import Descent.Proofs.Search.Soundness
import Descent.Proofs.Token.Declared
import Descent.Proofs.Token.Ending

/-!
# Texts parsed as a whole

A parse ends well on a token of the kind of the ending.  That is the end of the text unless a lexeme
is named like the ending: then a parse may stop at what the lexeme matches, and what comes after it
is never looked at.

Main results:

- `Grammar.kind_mem_of_cuts`: what is cut off has a kind that the grammar declares.
- `Language.whole_or_stopsShort`: a parse accounts for the whole text, or it stops short.
- `Language.parse_whole`: so it does if the grammar declares no lexeme with the name of the ending.
-/

namespace Descent

/-! ## Kinds of a grammar -/

/-- What a lexicon cuts off has a kind that its grammar declares. -/
theorem Grammar.kind_mem_of_cuts {E : Engine} {g : Grammar} {lx : Lexicon}
    (hlexicon : g.lexicon E = .ok lx) {t : Token} (ht : lx.Cuts t) : t.kind ∈ g.kinds := by
  rcases ht with ⟨s, l, n, -, hl, -, rfl⟩
  show l.name ∈ g.kinds
  rcases Lexicon.exists_compile_of_mem hlexicon hl with ⟨group, hgroup, e, he, hcompile⟩
  have hname : (Lexeme.ofKey e.1).1 = l.name := by
    rw [(Lexeme.parts_of_compile hcompile).1]
  rcases List.mem_map.1 hgroup with ⟨f, hf, hpair⟩
  have hgroup : f.2.entries = group := (Prod.mk.inj hpair).2
  subst hgroup
  refine List.mem_flatMap.2 ⟨f.2, List.mem_map_of_mem hf, ?_⟩
  rw [OrderedMap.keys, List.map_map, ← hname]
  exact List.mem_map_of_mem he

/-! ## What a parse accounts for -/

namespace Language

variable {l : Language} {text : String} {events : List Event}

/-- The whole text is cut into tokens without an error, and the events match all of them but the
ending. -/
def AccountsForWhole (l : Language) (text : String) (events : List Event) : Prop :=
  ∃ ts : List Token, l.lexicon.tokenize (Text.octets text.toList) =
      .ok (ts ++ [.ending (Text.octets text.toList).length]) ∧
    (matchedTokens events).map MatchedToken.shown = ts.map Token.shown

/-- The events match the tokens before one that a lexeme has cut off and that passes for an
ending. -/
def StopsShort (l : Language) (text : String) (events : List Event) : Prop :=
  ∃ (ts : List Token) (t : Token) (rest : List (Except LexError Token)),
    l.items text = ts.map Except.ok ++ .ok t :: rest ∧ l.lexicon.Cuts t ∧ t.isEnding = true ∧
    (matchedTokens events).map MatchedToken.shown = ts.map Token.shown

/-- What a lexeme cuts off is not the token that ends a text, for that one has a value that is not
counted. -/
theorem not_cuts_ending {lx : Lexicon} (offset : Nat) : ¬lx.Cuts (.ending offset) := by
  rintro ⟨s, l, n, -, -, -, ht⟩
  have hvalue : endingKind = String.ofList (Text.decode (s.after.take (n + 1))) :=
    congrArg Token.value ht
  have hlength : 0 = (Text.decode (s.after.take (n + 1))).length := congrArg Token.length ht
  rw [List.length_eq_zero_iff.1 hlength.symm] at hvalue
  revert hvalue
  decide

/-- The last token of a text that is accounted for is its ending, which no lexeme cuts off. -/
theorem AccountsForWhole.not_stopsShort (h : l.AccountsForWhole text events) :
    ¬l.StopsShort text events := by
  rintro ⟨us, t, rest, hitems, hcuts, -, hus⟩
  rcases h with ⟨ts, htokenize, hts⟩
  have hlength : us.length = ts.length := by
    simpa using congrArg List.length (hus.symm.trans hts)
  have hsame : us.map Except.ok ++ .ok t :: rest =
      ts.map Except.ok ++ [.ok (.ending (Text.octets text.toList).length)] := by
    rw [← hitems, items, Lexicon.tokenize_eq_ok_iff.1 htokenize, List.map_append,
      List.map_singleton]
  have htail := (List.append_inj hsame (by simpa using hlength)).2
  simp only [List.cons.injEq, Except.ok.injEq] at htail
  exact not_cuts_ending _ (htail.1 ▸ hcuts)

/-- An item comes before the last one or is the last one. -/
private theorem mem_or_eq_last {α : Type} {xs ys rest : List α} {x last : α}
    (h : xs ++ x :: rest = ys ++ [last]) : x ∈ ys ∨ xs = ys ∧ x = last ∧ rest = [] := by
  rcases List.eq_nil_or_concat rest with rfl | ⟨rest, final, rfl⟩
  · have hlast := List.append_inj' h rfl
    exact .inr ⟨hlast.1, List.cons.inj hlast.2 |>.1, rfl⟩
  · rw [List.concat_eq_append, ← List.cons_append, ← List.append_assoc] at h
    rw [← (List.append_inj' h rfl).1]
    exact .inl (List.mem_append_right _ List.mem_cons_self)

/-- A parse that gives an account of a text accounts for the whole text, or stops short. -/
theorem whole_or_stopsShort {root : RuleKey} {d : Derivation} {ts : List Token} {last : Token}
    (h : l.Accounts text root events d ts last) :
    l.AccountsForWhole text events ∨ l.StopsShort text events := by
  rcases h.items_eq with ⟨rest, hitems⟩
  rcases l.lexicon.exists_items (Text.octets text.toList) with ⟨us, final, hends⟩
  rcases mem_or_eq_last (hitems.symm.trans hends.items_eq) with hmem | ⟨hall, hlast, rfl⟩
  · rcases List.mem_map.1 hmem with ⟨u, hu, hlast⟩
    cases hlast
    exact .inr ⟨ts, last, rest, hitems, (hends.cuts last hu).1, h.ending, h.tokens_eq⟩
  · refine .inl ⟨ts, Lexicon.tokenize_eq_ok_iff.2 ?_, h.tokens_eq⟩
    have hending : final = .ok (.ending (Text.octets text.toList).length) := by
      rcases hends.isLast with hfinal | ⟨e, hfinal⟩
      · exact hfinal
      · rw [hfinal] at hlast
        cases hlast
    rw [hends.items_eq, ← hall, hending, List.map_append, List.map_singleton]

theorem exists_trace_of_parse {start : Option String} {fuel : Nat} {t : Tree}
    (h : l.parse text start fuel = some (.ok t)) :
    ∃ events, l.trace text start fuel = some (.ok events) := by
  rcases exists_events_of_parse h with ⟨root, events, -, htrace, -⟩
  exact ⟨events, htrace⟩

theorem lexicon_of_ofGrammar {H : Host} {g : Grammar} (h : ofGrammar H g = .ok l) :
    l.grammar = g ∧ g.lexicon H.engine = .ok l.lexicon := by
  unfold ofGrammar at h
  split at h
  · cases h
  · unfold ofRules at h
    split at h
    · cases h
    · rename_i hlexicon
      cases h
      exact ⟨rfl, hlexicon⟩

theorem itemSize_of_ofGrammar {H : Host} {g : Grammar} (h : ofGrammar H g = .ok l) :
    l.itemSize = H.itemSize := by
  unfold ofGrammar at h
  split at h
  · cases h
  · unfold ofRules at h
    split at h
    · cases h
    · cases h
      rfl

/-- A parse that ends well accounts for the whole text just if it does not stop at a token that a
lexeme cuts off and that passes for the ending, and there is no such token where the grammar
declares no lexeme with the name of the ending. -/
theorem parse_whole {H : Host} {document source : String} (hl : ofDocument H document source = .ok l)
    {start : Option String} {fuel : Nat} {t : Tree}
    (ht : l.parse text start fuel = some (.ok t)) :
    ∃ events, l.trace text start fuel = some (.ok events) ∧
      (l.AccountsForWhole text events ↔ ¬l.StopsShort text events) ∧
      (endingKind ∉ l.grammar.kinds → l.AccountsForWhole text events) := by
  rcases exists_trace_of_parse ht with ⟨events, htrace⟩
  rcases trace_sound htrace with ⟨root, s₀, s, d, ts, last, -, -, -, -, -, haccounts⟩
  have hwhole := whole_or_stopsShort haccounts
  refine ⟨events, htrace, ⟨AccountsForWhole.not_stopsShort, hwhole.resolve_right⟩, ?_⟩
  intro hnone
  refine hwhole.resolve_right ?_
  rintro ⟨us, u, rest, -, hcuts, hending, -⟩
  obtain ⟨g, hg⟩ : ∃ g, ofGrammar H g = .ok l := by
    unfold ofDocument at hl
    split at hl
    · cases hl
    · exact ⟨_, hl⟩
  rcases lexicon_of_ofGrammar hg with ⟨hgrammar, hlexicon⟩
  have hkind : u.kind = endingKind := beq_iff_eq.1 hending
  rw [hgrammar, ← hkind] at hnone
  exact hnone (Grammar.kind_mem_of_cuts hlexicon hcuts)

/-- How many tokens a parse of a text from the first rule of a document matches, and how many the
text has. -/
def tokenCounts (document text : String) (fuel : Nat) : Option (Nat × Nat) :=
  match ofDocument .standard document "" with
  | .ok l =>
    match l.parse text none fuel, l.trace text none fuel,
      l.lexicon.tokenize (Text.octets text.toList) with
    | some (.ok _), some (.ok events), .ok ts => some ((matchedTokens events).length, ts.length)
    | _, _, _ => none
  | .error _ => none

private theorem exists_of_tokenCounts {document : String} {fuel n k : Nat}
    (h : tokenCounts document text fuel = some (n, k)) :
    ∃ l t events ts, ofDocument .standard document "" = .ok l ∧ l.parse text none fuel = some (.ok t) ∧
      l.trace text none fuel = some (.ok events) ∧
      l.lexicon.tokenize (Text.octets text.toList) = .ok ts ∧
      (matchedTokens events).length = n ∧ ts.length = k := by
  unfold tokenCounts at h
  split at h
  · rename_i l hl
    split at h
    · rename_i t events ts ht hevents hts
      cases h
      exact ⟨l, t, events, ts, hl, ht, hevents, hts, rfl, rfl⟩
    · cases h
  · cases h

/-- A document of one letter, and a lexeme that may have the name of the ending. -/
def letterDocument (name : String) : String :=
  "%token a a\n%token " ++ name ++ " x\nr:\n  <a>\n"

/-- Where no lexeme has the name of the ending, a parse accounts for the whole text. -/
theorem parse_whole_letter :
    ∃ l t events, ofDocument .standard (letterDocument "b") "" = .ok l ∧
      l.parse "a" none 40 = some (.ok t) ∧ l.trace "a" none 40 = some (.ok events) ∧
      endingKind ∉ l.grammar.kinds ∧ l.AccountsForWhole "a" events := by
  have hcounts : tokenCounts (letterDocument "b") "a" 40 = some (1, 2) := by decide +kernel
  have hkinds : (ofDocument .standard (letterDocument "b") "").toOption.all
      (fun l => !l.grammar.kinds.contains endingKind) = true := by
    decide +kernel
  rcases exists_of_tokenCounts hcounts with ⟨l, t, events, us, hl, ht, hevents, -⟩
  rw [hl] at hkinds
  have hnone : endingKind ∉ l.grammar.kinds := by simpa [Except.toOption] using hkinds
  rcases parse_whole hl ht with ⟨events', hevents', -, hwhole⟩
  rw [hevents] at hevents'
  cases hevents'
  exact ⟨l, t, events, hl, ht, hevents, hnone, hwhole hnone⟩

/-- A lexeme with the name of the ending matches in the middle of the text, and there the parse
stops as if all were read. -/
theorem parse_stops_short :
    ∃ l t events, ofDocument .standard (letterDocument endingKind) "" = .ok l ∧
      l.parse "ax" none 40 = some (.ok t) ∧ l.trace "ax" none 40 = some (.ok events) ∧
      ¬l.AccountsForWhole "ax" events := by
  have hcounts : tokenCounts (letterDocument endingKind) "ax" 40 = some (1, 3) := by
    decide +kernel
  rcases exists_of_tokenCounts hcounts with
    ⟨l, t, events, us, hl, ht, hevents, hus, hmatched, hlength⟩
  refine ⟨l, t, events, hl, ht, hevents, ?_⟩
  rintro ⟨ts, htokenize, hts⟩
  rw [htokenize, Except.ok.injEq] at hus
  have hall := congrArg List.length hts
  simp only [List.length_map] at hall
  rw [← hus, List.length_append, List.length_singleton, ← hall, hmatched] at hlength
  omega

end Language

end Descent
