import Descent.Proofs.Pattern.Engine
import Descent.Proofs.Text.Utf8
import Descent.Proofs.Token.Declared
import Descent.Proofs.Token.Matches

/-!
# Tokens tile a text

The matches of a text stand side by side from its start on, each where a lexeme of the namespace then
active matches, up to the place of the last item.  What is not kept was matched by a lexeme named for
skipping.  Over characters the cuts fall between characters, so the values spell the text.

Main results:

- `Lexicon.Makes` says what a cut is: where it stands, what it holds and what matched.
- `Lexicon.Tiles` says that cuts stand side by side.
- `Scanner.exists_tiles`: what comes from a scanner is made by cuts side by side, and a last item.
- `Lexicon.calls_tile`: the calls for the items of a text bring the kept tokens of cuts that tile it,
  then the last item, then nothing.
-/

namespace Descent

/-- What a match takes from a text: its octets and the token made of them. -/
structure Cut where
  octets : List UInt8
  token : Token

/-- The offset at which a cut ends. -/
def Cut.stop (c : Cut) : Nat :=
  c.token.offset + c.octets.length

/-- The tokens of some cuts that are kept. -/
def keptTokens (cuts : List Cut) : List Token :=
  (cuts.map Cut.token).filter (·.keep)

/-- The characters that the tokens of some cuts hold. -/
def spelled (cuts : List Cut) : List Char :=
  cuts.flatMap fun c => c.token.value.toList

/-- The offset that an error tells, if it tells one. -/
def LexError.offset? : LexError → Option Nat
  | .unrecognized e => some e.offset
  | .tooLarge offset => some offset
  | _ => none

namespace Lexicon

/-- A cut holds the octets from its token's offset on that a lexeme of its token's namespace matches
there, and its token is named after the lexeme and reads what they are. -/
structure Makes (lx : Lexicon) (text : List UInt8) (c : Cut) : Prop where
  ne_nil : c.octets ≠ []
  octets_eq : c.octets = (text.drop c.token.offset).take c.octets.length
  matched : ∃ l ∈ (lx.lexemes? c.token.space).getD [], l.name = c.token.kind ∧
    l.matchLength? (text.take c.token.offset).reverse (text.drop c.token.offset) =
      some c.octets.length
  value_eq : c.token.value = String.ofList (Text.decode c.octets)
  length_eq : c.token.length = c.token.value.toList.length
  keep_eq : c.token.keep = (c.token.kind != skipName)

/-- Cuts that stand side by side in a text, from one offset to another. -/
inductive Tiles (lx : Lexicon) (text : List UInt8) : (start : Nat) → List Cut → (stop : Nat) → Prop
  | none (start : Nat) : Tiles lx text start [] start
  | cut {c : Cut} {cuts : List Cut} {stop : Nat} (hc : lx.Makes text c)
      (hcuts : Tiles lx text c.stop cuts stop) : Tiles lx text c.token.offset (c :: cuts) stop

/-- The last item of a text: its ending if all of it is cut, and else an error, which tells no other
place than the one reached. -/
inductive LastAt (text : List UInt8) (stop : Nat) : Except LexError Token → Prop
  | ending (h : stop = text.length) : LastAt text stop (.ok (.ending text.length))
  | error (e : LexError) (h : ∀ offset, e.offset? = some offset → offset = stop) :
    LastAt text stop (.error e)

namespace Tiles

variable {lx : Lexicon} {text : List UInt8} {start stop : Nat} {cuts : List Cut}

/-- Cuts side by side hold all octets from the first to the last. -/
theorem drop_eq (h : lx.Tiles text start cuts stop) :
    text.drop start = cuts.flatMap Cut.octets ++ text.drop stop := by
  induction h with
  | none start => rfl
  | @cut c cuts stop hc hcuts ih =>
    have hsplit := List.take_append_drop c.octets.length (text.drop c.token.offset)
    rw [← hc.octets_eq, List.drop_drop] at hsplit
    rw [List.flatMap_cons, List.append_assoc, ← ih, ← hsplit]
    rfl

theorem makes (h : lx.Tiles text start cuts stop) : ∀ c ∈ cuts, lx.Makes text c := by
  induction h with
  | none start => simp
  | cut hc hcuts ih => exact List.forall_mem_cons.2 ⟨hc, ih⟩

theorem start_le (h : lx.Tiles text start cuts stop) : ∀ c ∈ cuts, start ≤ c.token.offset := by
  induction h with
  | none start => simp
  | @cut c cuts stop hc hcuts ih =>
    refine List.forall_mem_cons.2 ⟨Nat.le_refl _, ?_⟩
    intro d hd
    exact Nat.le_trans (Nat.le_add_right _ _) (ih d hd)

/-- Cuts side by side do not overlap. -/
theorem apart (h : lx.Tiles text start cuts stop) :
    cuts.Pairwise fun c d => c.stop ≤ d.token.offset := by
  induction h with
  | none start => exact .nil
  | cut hc hcuts ih => exact .cons hcuts.start_le ih

/-- Kept tokens come from left to right. -/
theorem offsets_lt (h : lx.Tiles text start cuts stop) :
    (keptTokens cuts).Pairwise fun t u => t.offset < u.offset := by
  have hcuts : cuts.Pairwise fun c d => c.token.offset < d.token.offset := by
    refine h.apart.imp_of_mem ?_
    intro c d hc _ hle
    have hpos := List.length_pos_iff.2 (h.makes c hc).ne_nil
    unfold Cut.stop at hle
    omega
  exact List.Pairwise.filter _ (List.pairwise_map.2 hcuts)

variable {E : Engine} {groups : LexemeGroups}

/-- Over characters, the values of cuts from a boundary on spell what they are cut from. -/
theorem spelled_append (h : lx.Tiles text start cuts stop) (hE : E.EndsInText)
    (hlx : ofGroups E groups true = .ok lx) {fs ds : List Char}
    (hbefore : text.take start = Text.octets fs) (hafter : text.drop start = Text.octets ds) :
    spelled cuts ++ Text.decode (text.drop stop) = ds := by
  induction h generalizing fs ds with
  | none start => simp [spelled, hafter]
  | @cut c cuts stop hc hcuts ih =>
    rcases hc.matched with ⟨l, hl, -, hmatch⟩
    rw [hbefore, hafter] at hmatch
    rcases Option.map_eq_some_iff.1 hmatch with ⟨place, hplace, hlength⟩
    rcases hE.between (compile_pattern hlx hl) hplace with ⟨front, es, rfl, rfl⟩
    have hcount : c.octets.length = (Text.octets front).length := by
      rw [← hlength]
      simp
    have hoctets : c.octets = Text.octets front := by
      rw [hc.octets_eq, hafter, hcount]
      simp
    have hvalue : c.token.value.toList = front := by
      rw [hc.value_eq, hoctets, Text.decode_octets, String.toList_ofList]
    have hnext : text.drop c.stop = Text.octets es := by
      rw [Cut.stop, ← List.drop_drop, hafter, hcount]
      simp
    have hpast : text.take c.stop = Text.octets (fs ++ front) := by
      rw [Cut.stop, List.take_add, hbefore, hafter, hcount]
      simp
    rw [spelled, List.flatMap_cons, List.append_assoc, hvalue]
    exact congrArg (front ++ ·) (ih hpast hnext)

end Tiles

end Lexicon

/-! ## From matches to cuts -/

namespace Scanner

variable {s s' : Scanner} {t : Token}

theorem take_text (s : Scanner) : s.text.take s.offset = s.before.reverse := by
  simp [text, offset]

theorem drop_text (s : Scanner) : s.text.drop s.offset = s.after := by
  simp [text, offset]

variable {E : Engine} {groups : LexemeGroups} {unicode : Bool}

/-- What a lexeme matches is there. -/
theorem matchLength?_le (hE : E.EndsInText)
    (hlx : Lexicon.ofGroups E groups unicode = .ok s.lexicon) {l : Lexeme} {n : Nat}
    (hl : l ∈ (s.lexicon.lexemes? s.space).getD [])
    (h : l.matchLength? s.before s.after = some n) : n ≤ s.after.length := by
  rcases Option.map_eq_some_iff.1 h with ⟨stop, hstop, rfl⟩
  have hwithin := hE.within (Lexicon.compile_pattern hlx hl) hstop
  omega

/-- What is cut off is a cut at the place of the scanner, and ends at the place of the next. -/
theorem exists_cut_of_scanOne (hE : E.EndsInText)
    (hlx : Lexicon.ofGroups E groups unicode = .ok s.lexicon) (h : s.scanOne = .ok (t, s')) :
    ∃ c : Cut, c.token = t ∧ t.offset = s.offset ∧ c.stop = s'.offset ∧ s.lexicon.Makes s.text c := by
  rcases exists_match_of_scanOne h with ⟨l, n, s'', hmatch, -, hfollow, rfl, rfl⟩
  rcases mem_of_firstMatch? hmatch with ⟨hl, hlength⟩
  have hle : n + 1 ≤ s.after.length := matchLength?_le hE hlx hl hlength
  rcases follow_after hfollow with ⟨hafter, hbefore, -⟩
  have htaken : (s.after.take (n + 1)).length = n + 1 := by
    simp [hle]
  refine ⟨⟨s.after.take (n + 1), s.tokenOf l (n + 1)⟩, rfl, rfl, ?_, ?_, ?_, ⟨l, hl, rfl, ?_⟩, rfl,
    ?_, rfl⟩
  · rw [offset_skip s'' (by rw [hafter]; exact hle)]
    simp only [Cut.stop, htaken, offset, hbefore, tokenOf]
  · show s.after.take (n + 1) ≠ []
    intro hnil
    rw [hnil] at htaken
    cases htaken
  · show s.after.take (n + 1) = (s.text.drop s.offset).take (s.after.take (n + 1)).length
    rw [drop_text, htaken]
  · show l.matchLength? (s.text.take s.offset).reverse (s.text.drop s.offset) = _
    rw [take_text, drop_text, List.reverse_reverse, htaken, hlength]
  · simp [tokenOf]

/-- An error of the namespaces tells no offset. -/
theorem offset?_of_follow {l : Lexeme} {e : LexError} (h : s.follow l = .error e) :
    e.offset? = none := by
  unfold follow at h
  dsimp only at h
  repeat' split at h
  all_goals cases h
  all_goals rfl

/-- An error in cutting off tells no other place than that of the scanner. -/
theorem offset_of_scanOne {e : LexError} (h : s.scanOne = .error e) {offset : Nat}
    (he : e.offset? = some offset) : offset = s.offset := by
  unfold scanOne at h
  split at h
  · cases h
    cases he
  · split at h
    · cases h
      cases he
      rfl
    · split at h
      · rename_i hfollow
        cases h
        rw [offset?_of_follow hfollow] at he
        cases he
      · cases h
  · split at h
    all_goals
      cases h
      cases he
      rfl

theorem lastAt_endingItem (hs : s.after = []) :
    Lexicon.LastAt s.text s.offset s.endingItem := by
  have hoffset : s.offset = s.text.length := by simp [offset, text, hs]
  unfold endingItem
  split
  · refine .error _ ?_
    intro offset he
    exact (Option.some.inj he).symm
  · rw [hoffset]
    exact .ending rfl

/-- What comes from a scanner is made by cuts side by side from its place on, and a last item. -/
theorem exists_tiles (hE : E.EndsInText) (s : Scanner)
    (hlx : Lexicon.ofGroups E groups unicode = .ok s.lexicon) (hs : s.finished = false) :
    ∃ cuts stop last, s.lexicon.Tiles s.text s.offset cuts stop ∧
      s.steps.map (·.item) = (keptTokens cuts).map Except.ok ++ [last] ∧
      Lexicon.LastAt s.text stop last := by
  induction s using scan_induction with
  | ending s hnil =>
    refine ⟨[], s.offset, s.endingItem, .none _, ?_, lastAt_endingItem hnil⟩
    rw [steps_of_nil hs hnil]
    rfl
  | failing s e hne hscan =>
    refine ⟨[], s.offset, .error e, .none _, ?_, .error e fun _ he => offset_of_scanOne hscan he⟩
    rw [steps_of_error hs hne hscan]
    rfl
  | cut s t s' hne hscan ih =>
    have hlater := later_of_scanOne hne hscan
    rcases exists_cut_of_scanOne hE hlx hscan with ⟨c, rfl, hoffset, hstop, hmakes⟩
    rcases ih (hlater.lexicon ▸ hlx) (hlater.finished.trans hs) with
      ⟨cuts, stop, last, htiles, hsteps, hlast⟩
    rw [hlater.lexicon, hlater.text, ← hstop] at htiles
    refine ⟨c :: cuts, stop, last, hoffset ▸ .cut hmakes htiles, ?_, hlater.text ▸ hlast⟩
    rw [steps_of_scanOne hs hne hscan, List.map_append, hsteps]
    by_cases hkeep : c.token.keep = true
    · simp [keptTokens, hkeep]
    · simp [keptTokens, hkeep]

end Scanner

/-! ## The items of a text -/

namespace Lexicon

/-- The calls for the items of a text bring the kept tokens of cuts that tile it up to some place, from
left to right, then one last item, which is the ending at the end of the text or an error at the place
reached, and then nothing.  Over characters, the values of the cuts and what they leave spell the
text. -/
theorem calls_tile {E : Engine} (hE : E.EndsInText) {groups : LexemeGroups} {unicode : Bool}
    {lx : Lexicon} (hlx : ofGroups E groups unicode = .ok lx) (text : String) :
    ∃ cuts stop last,
      (∀ n, (Scanner.start lx (Text.octets text.toList)).call n =
        ((keptTokens cuts).map Except.ok ++ [last])[n]?) ∧
      (keptTokens cuts).Pairwise (fun t u => t.offset < u.offset) ∧
      LastAt (Text.octets text.toList) stop last ∧
      (∀ c ∈ cuts, lx.Makes (Text.octets text.toList) c) ∧
      cuts.Pairwise (fun c d => c.stop ≤ d.token.offset) ∧
      Text.octets text.toList =
        cuts.flatMap Cut.octets ++ (Text.octets text.toList).drop stop ∧
      (unicode = true →
        spelled cuts ++ Text.decode ((Text.octets text.toList).drop stop) = text.toList) := by
  rcases Scanner.exists_tiles hE (.start lx (Text.octets text.toList)) hlx rfl with
    ⟨cuts, stop, last, htiles, hsteps, hlast⟩
  rw [Scanner.text_start] at htiles hlast
  refine ⟨cuts, stop, last, ?_, htiles.offsets_lt, hlast, htiles.makes, htiles.apart,
    htiles.drop_eq, ?_⟩
  · intro n
    rw [Scanner.call_eq, ← List.getElem?_map, hsteps]
  · rintro rfl
    have hbefore : (Text.octets text.toList).take 0 = Text.octets [] := rfl
    exact htiles.spelled_append hE hlx hbefore rfl

/-- Words of letters that take two octets each, and blanks that are passed over. -/
def accentGroups : LexemeGroups :=
  [(defaultSpace, [(skipName, " "), ("word", "é+")])]

/-- The cuts of two such words and the blank between them spell the text. -/
theorem calls_tile_accents :
    ∃ lx cuts stop last, ofGroups Pattern.engine accentGroups true = .ok lx ∧
      (∀ n, (Scanner.start lx (Text.octets "éé é".toList)).call n =
        ((keptTokens cuts).map Except.ok ++ [last])[n]?) ∧
      LastAt (Text.octets "éé é".toList) stop last ∧
      spelled cuts ++ Text.decode ((Text.octets "éé é".toList).drop stop) = "éé é".toList := by
  obtain ⟨lx, hlx⟩ : ∃ lx, ofGroups Pattern.engine accentGroups true = .ok lx := by
    have hok : (ofGroups Pattern.engine accentGroups true).isOk = true := by decide +kernel
    rcases h : ofGroups Pattern.engine accentGroups true with e | lx
    · rw [h] at hok
      cases hok
    · exact ⟨lx, rfl⟩
  rcases calls_tile Pattern.engine_endsInText hlx "éé é" with
    ⟨cuts, stop, last, hcalls, -, hlast, -, -, -, hspelled⟩
  exact ⟨lx, cuts, stop, last, hlx, hcalls, hlast, hspelled rfl⟩

end Lexicon

end Descent
