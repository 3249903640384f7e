import Descent.Proofs.Token.Declared
import Descent.Proofs.Token.Tiling

/-!
# The lexeme that makes a token

A token is made by the first lexeme of its namespace that matches where the token starts.  The token
keeps nothing of that lexeme but the name.  What is found again under the name is the first lexeme of
that name, and if the maker is not that one, it is a lexeme that did not match.

Main results:

- `Lexicon.MadeBy` says which lexeme has made a token, and which ones were passed by.
- `Scanner.exists_kept`: what holds of all that is cut off holds of all items before the last one.
- `Lexicon.exists_maker`: every token that another one comes after has a maker.
- `Lexicon.MadeBy.exists_recorded`: the lexeme found under the name of a token is its maker just if
  none of that name was passed by.
-/

namespace Descent

/-- The number of octets that a lexeme matches at an offset of a text. -/
def Lexeme.lengthAt? (l : Lexeme) (text : List UInt8) (offset : Nat) : Option Nat :=
  l.matchLength? (text.take offset).reverse (text.drop offset)

/-- A lexeme has made a token of a text: those before it in the token's namespace do not match where
the token starts, and it matches a number of octets there that the value reads. -/
structure Lexicon.MadeBy (lx : Lexicon) (text : List UInt8) (t : Token) (passed : List Lexeme)
    (maker : Lexeme) (length : Nat) : Prop where
  lexemes_eq : ∃ others, (lx.lexemes? t.space).getD [] = passed ++ maker :: others
  none_matched : ∀ l ∈ passed, l.lengthAt? text t.offset = none
  matched : maker.lengthAt? text t.offset = some length
  length_pos : 0 < length
  name_eq : maker.name = t.kind
  value_eq : t.value = String.ofList (Text.decode ((text.drop t.offset).take length))

/-! ## From matches to makers -/

namespace Scanner

variable {s s' : Scanner} {t : Token}

/-- The first match leaves lexemes behind that do not match. -/
theorem exists_passed_of_firstMatch? {before after : List UInt8} {ls : List Lexeme} {l : Lexeme}
    {n : Nat} (h : firstMatch? before after ls = some (l, n)) :
    ∃ passed others, ls = passed ++ l :: others ∧
      (∀ other ∈ passed, other.matchLength? before after = none) ∧
      l.matchLength? before after = some n := by
  induction ls with
  | nil => cases h
  | cons first rest ih =>
    unfold firstMatch? at h
    split at h
    · rename_i k hk
      cases h
      exact ⟨[], rest, rfl, by simp, hk⟩
    · rename_i hnone
      rcases ih h with ⟨passed, others, rfl, hpassed, hmatch⟩
      refine ⟨first :: passed, others, rfl, ?_, hmatch⟩
      exact List.forall_mem_cons.2 ⟨hnone, hpassed⟩

/-- What is cut off has a maker. -/
theorem exists_maker_of_scanOne (h : s.scanOne = .ok (t, s')) :
    ∃ passed maker length, s.lexicon.MadeBy s.text t passed maker length := by
  rcases exists_match_of_scanOne h with ⟨l, n, s'', hmatch, -, -, rfl, -⟩
  rcases exists_passed_of_firstMatch? hmatch with ⟨passed, others, hls, hpassed, hlength⟩
  have hoffset : (s.tokenOf l (n + 1)).offset = s.offset := rfl
  have hat (l : Lexeme) : l.lengthAt? s.text s.offset = l.matchLength? s.before s.after := by
    rw [Lexeme.lengthAt?, take_text, drop_text, List.reverse_reverse]
  refine ⟨passed, l, n + 1, ⟨others, hls⟩, ?_, ?_, Nat.succ_pos n, rfl, ?_⟩
  · intro other hother
    rw [hoffset, hat]
    exact hpassed other hother
  · rw [hoffset, hat]
    exact hlength
  · rw [hoffset, drop_text]
    rfl

/-- What holds of all that is cut off from a text holds of all items before the last one. -/
theorem exists_kept (s : Scanner) (hs : s.finished = false) {P : Token → Prop}
    (hP : ∀ {s₁ s₂ : Scanner} {t : Token}, s₁.lexicon = s.lexicon → s₁.text = s.text →
      s₁.scanOne = .ok (t, s₂) → P t) :
    ∃ (ts : List Token) (last : Except LexError Token),
      s.steps.map (·.item) = ts.map Except.ok ++ [last] ∧ ∀ t ∈ ts, P t := by
  induction s using scan_induction with
  | ending s hnil => exact ⟨[], s.endingItem, by rw [steps_of_nil hs hnil]; rfl, by simp⟩
  | failing s e hne hscan => exact ⟨[], .error e, by rw [steps_of_error hs hne hscan]; rfl, by simp⟩
  | cut s t s' hne hscan ih =>
    have hlater := later_of_scanOne hne hscan
    rcases ih (hlater.finished.trans hs) fun hlexicon htext hcut =>
      hP (hlexicon.trans hlater.lexicon) (htext.trans hlater.text) hcut with ⟨ts, last, hsteps, hts⟩
    rw [steps_of_scanOne hs hne hscan, List.map_append, hsteps]
    by_cases hkeep : t.keep = true
    · refine ⟨t :: ts, last, by simp [hkeep], ?_⟩
      exact List.forall_mem_cons.2 ⟨hP rfl rfl hscan, hts⟩
    · exact ⟨ts, last, by simp [hkeep], hts⟩

end Scanner

/-! ## Makers and names -/

namespace Lexicon

variable {lx : Lexicon} {text : List UInt8}

/-- Every token that another item comes after has a maker. -/
theorem exists_maker {ts : List Token} {next : Except LexError Token}
    {rest : List (Except LexError Token)} (h : lx.items text = ts.map Except.ok ++ next :: rest) :
    ∀ t ∈ ts, ∃ passed maker length, lx.MadeBy text t passed maker length := by
  have hmade : ∀ {s₁ s₂ : Scanner} {t : Token}, s₁.lexicon = lx →
      s₁.text = (Scanner.start lx text).text → s₁.scanOne = .ok (t, s₂) →
      ∃ passed maker length, lx.MadeBy text t passed maker length := by
    intro s₁ s₂ t hlexicon htext hcut
    rw [Scanner.text_start] at htext
    have hmaker := Scanner.exists_maker_of_scanOne hcut
    rw [hlexicon, htext] at hmaker
    exact hmaker
  rcases Scanner.exists_kept (.start lx text) rfl hmade with ⟨us, last, hitems, hus⟩
  have hsame : ts.map Except.ok ++ next :: rest = us.map Except.ok ++ [last] := h.symm.trans hitems
  have hlength := congrArg List.length hsame
  simp only [List.length_append, List.length_cons, List.length_nil, List.length_map] at hlength
  -- The tokens are the first of those that come before the last item.
  have hinitial : ts.map Except.ok <+: us.map (Except.ok : Token → Except LexError Token) := by
    apply List.prefix_of_prefix_length_le (List.prefix_append _ (next :: rest))
    · rw [hsame]
      exact List.prefix_append _ _
    · rw [List.length_map, List.length_map]
      omega
  intro t ht
  rcases List.mem_map.1 (hinitial.subset (List.mem_map_of_mem ht)) with ⟨u, hu, htoken⟩
  cases htoken
  exact hus t hu

namespace MadeBy

variable {t : Token} {passed : List Lexeme} {maker : Lexeme} {length : Nat}

/-- What is found under the name of a token is the first lexeme of the name among those passed by and
the maker. -/
theorem exists_find? (h : lx.MadeBy text t passed maker length) :
    ∃ recorded, (passed ++ [maker]).find? (·.name == t.kind) = some recorded ∧
      lx.representation? t.space t.kind = some recorded.pattern := by
  rcases h.lexemes_eq with ⟨others, hls⟩
  have hmaker : (maker.name == t.kind) = true := by
    rw [h.name_eq]
    exact beq_self_eq_true _
  have hlookup : lx.representation? t.space t.kind =
      ((passed ++ maker :: others).find? (·.name == t.kind)).map (·.pattern) := by
    rw [← hls, representation?]
    rcases lx.lexemes? t.space with _ | ls <;> rfl
  rw [hlookup]
  rcases hpassed : passed.find? (·.name == t.kind) with _ | recorded
  · exact ⟨maker, by simp [List.find?_append, hpassed, hmaker],
      by simp [List.find?_append, hpassed, hmaker]⟩
  · exact ⟨recorded, by simp [List.find?_append, hpassed], by simp [List.find?_append, hpassed]⟩

/-- The pattern that is found under the name of a token is that of its maker just if no lexeme of the
name was passed by, and just then it matches what the token holds. -/
theorem exists_recorded {E : Engine} {groups : LexemeGroups} {unicode : Bool}
    (hlx : ofGroups E groups unicode = .ok lx) (h : lx.MadeBy text t passed maker length) :
    ∃ recorded, (passed ++ [maker]).find? (·.name == t.kind) = some recorded ∧
      lx.representation? t.space t.kind = some recorded.pattern ∧
      E.compile lx.unicode recorded.pattern = .ok recorded.matcher ∧
      (recorded.pattern = maker.pattern ↔ ∀ l ∈ passed, l.name ≠ t.kind) ∧
      (recorded.lengthAt? text t.offset = some length ↔
        ∀ l ∈ passed, l.name ≠ t.kind) := by
  obtain rfl := unicode_of_ofGroups hlx
  rcases h.exists_find? with ⟨recorded, hfind, hlookup⟩
  rcases h.lexemes_eq with ⟨others, hls⟩
  have hmem : ∀ l ∈ passed ++ [maker], l ∈ (lx.lexemes? t.space).getD [] := by
    intro l hl
    rw [hls, List.append_cons]
    exact List.mem_append_left _ hl
  have hrecorded := compile_pattern hlx (hmem recorded (List.mem_of_find?_eq_some hfind))
  have hmaker := compile_pattern hlx (hmem maker (by simp))
  -- Where no lexeme of the name was passed by, the one that is found is the maker.
  have hsame : (∀ l ∈ passed, l.name ≠ t.kind) → recorded = maker := by
    intro hpassed
    have hnone : passed.find? (·.name == t.kind) = none := by simpa using hpassed
    rw [List.find?_append, hnone, Option.none_or] at hfind
    simpa using List.mem_of_find?_eq_some hfind
  -- Else the one that is found was passed by, and does not match.
  have hmatch : recorded.lengthAt? text t.offset = some length →
      ∀ l ∈ passed, l.name ≠ t.kind := by
    intro hlength l hl hname
    have hsome : (passed.find? (·.name == t.kind)).isSome = true := by
      rw [List.find?_isSome]
      exact ⟨l, hl, beq_iff_eq.2 hname⟩
    rcases Option.isSome_iff_exists.1 hsome with ⟨first, hfirst⟩
    rw [List.find?_append, hfirst, Option.some_or, Option.some.injEq] at hfind
    have hpassed := List.mem_of_find?_eq_some hfirst
    rw [hfind] at hpassed
    rw [h.none_matched recorded hpassed] at hlength
    cases hlength
  refine ⟨recorded, hfind, hlookup, hrecorded, ⟨?_, ?_⟩, hmatch, ?_⟩
  · intro hpattern
    apply hmatch
    rw [hpattern, hmaker, Except.ok.injEq] at hrecorded
    rw [← h.matched, Lexeme.lengthAt?, Lexeme.lengthAt?, Lexeme.matchLength?, Lexeme.matchLength?, hrecorded]
  · intro hpassed
    rw [hsame hpassed]
  · intro hpassed
    rw [hsame hpassed]
    exact h.matched

end MadeBy

end Lexicon

end Descent
