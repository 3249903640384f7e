import Descent.Proofs.Search.SideBySide
import Descent.Proofs.Search.WholeText
import Descent.Proofs.Tree.Expected

/-!
# What a parse does not depend on

The window of a parse is only there to bound what it keeps: a larger one does not change a parse that
has not named a token as unexpected, as long as there is room for it.  Nor does a parse depend on what is
skipped in a text: texts with the same tokens at other places come to the same.

Main results:

- `Language.decided_of_wider`: what a larger window leaves as it is.
- `Language.sameOutcome_of_shown`: texts whose tokens show the same come to the same.
-/

namespace Descent

/-- Two grammars that declare the same, whatever number of tokens a parse may go back. -/
structure Grammar.SameButLookahead (g g' : Grammar) : Prop where
  lexemes_eq : g'.lexemes = g.lexemes
  bodies_eq : g'.bodies = g.bodies
  unicode_eq : g'.pragmas.unicode = g.pragmas.unicode

namespace Language

variable {H : Host} {g g' : Grammar} {l : Language} {text text' : String} {start : Option String}
  {root : RuleKey} {fuel : Nat}

/-! ## Searches of a parse -/

theorem hasRoom_iff :
    l.hasRoom = true ↔ l.itemSize * max l.grammar.pragmas.lookahead 1 ≤ maxOctets := by
  simp [hasRoom, Window.fits]

theorem exists_initial (hroot : l.rules.get? root ≠ none) (items : List (Except LexError Token))
    (capacity : Nat) : ∃ s₀, l.machine.initial items capacity root = .ok s₀ := by
  rw [Machine.initial, Machine.plan_of_get? hroot]
  exact ⟨_, rfl⟩

/-- Where there is room, a derivation is what a run from the initial state has recorded. -/
theorem derive_of_initial {s₀ : State} (hroom : l.hasRoom = true)
    (hinitial : l.machine.initial (l.items text) l.grammar.pragmas.lookahead root = .ok s₀) :
    l.derive text root fuel =
      (l.machine.run fuel s₀).map fun r => r.map fun s => s.trace.reverse := by
  rw [derive_eq hroom, Machine.search, hinitial]

theorem trace_eq (hstart : l.startRule? start = some root) :
    l.trace text start fuel =
      (l.derive text root fuel).map fun r => r.mapError (l.errorOf text) := by
  rw [trace, hstart]

/-- What a parse makes of what its search came to. -/
def outcome (l : Language) (text : String) (root : RuleKey) :
    Except Failure (List Event) → Except Error Tree
  | .error f => .error (l.errorOf text f)
  | .ok events => l.treeOf text root events

theorem parse_eq (hstart : l.startRule? start = some root) :
    l.parse text start fuel = (l.derive text root fuel).map (l.outcome text root) := by
  rw [parse, hstart]
  rfl

/-- Without room nothing comes back of a parse. -/
theorem unfinished_of_no_room (hstart : l.startRule? start = some root) (h : l.hasRoom = false) :
    l.trace text start fuel = none ∧ l.parse text start fuel = none := by
  rw [trace_eq hstart, parse_eq hstart, derive_of_no_room h]
  exact ⟨rfl, rfl⟩

/-- The item of a text with some number is among those of its items that are tokens. -/
theorem lt_countP_of_item {t : Token} {n : Nat} (h : (l.items text)[n]? = some (.ok t)) :
    n < (l.items text).countP (·.isOk) := by
  rcases l.lexicon.exists_items (Text.octets text.toList) with ⟨ts, last, hends⟩
  have hitems : l.items text = ts.map Except.ok ++ [last] := hends.items_eq
  have htokens : (ts.map (Except.ok (ε := LexError))).countP (·.isOk) = ts.length := by
    rw [List.countP_map]
    exact List.countP_eq_length.2 fun _ _ => rfl
  rw [hitems] at h ⊢
  rw [List.countP_append, htokens]
  rcases Nat.lt_trichotomy n ts.length with hlt | rfl | hgt
  · omega
  · rw [List.getElem?_append_right (by simp), List.length_map, Nat.sub_self] at h
    cases h
    exact Nat.lt_succ_self _
  · rw [List.getElem?_eq_none (by simp; omega)] at h
    cases h

/-! ## Larger windows -/

/-- A parse has not named a token as unexpected. -/
def Decided {α : Type} (r : Except Error α) : Prop :=
  ∀ e, r ≠ .error (.unexpected e)

/-- The grammar compiles to the same language but for its window. -/
theorem ofGrammar_of_same (hl : ofGrammar H g = .ok l) (hsame : g.SameButLookahead g') :
    ofGrammar H g' = .ok { l with grammar := g' } := by
  have hrules : g'.rules = g.rules := by
    unfold Grammar.rules Grammar.kinds Grammar.ruleNames
    rw [hsame.lexemes_eq, hsame.bodies_eq]
  have hlexicon : g'.lexicon H.engine = g.lexicon H.engine := by
    unfold Grammar.lexicon Grammar.groups
    rw [hsame.lexemes_eq, hsame.unicode_eq]
  unfold ofGrammar ofRules at hl ⊢
  rw [hrules, hlexicon]
  split at hl
  · cases hl
  · split at hl
    · cases hl
    · cases hl
      rfl

/-- A search with a larger window that there is room for comes to the same, or the smaller window has been
too small for a token that is to be named as unexpected. -/
theorem derive_of_wider (text : String) (fuel : Nat) (hroot : l.rules.get? root ≠ none)
    (hle : max l.grammar.pragmas.lookahead 1 ≤ max g'.pragmas.lookahead 1)
    (hroom : l.itemSize * max g'.pragmas.lookahead 1 ≤ maxOctets) :
    derive { l with grammar := g' } text root fuel = l.derive text root fuel ∨
      ∃ t n, l.derive text root fuel = some (.error (.unexpected t)) ∧
        max l.grammar.pragmas.lookahead 1 < n ∧ (l.items text)[n - 1]? = some (.ok t) := by
  have hitems := l.items_ne_nil text
  have hordered : Ordered (l.items text) := l.lexicon.ordered_items _
  rcases exists_initial hroot (l.items text) l.grammar.pragmas.lookahead with ⟨s₀, hinitial⟩
  rcases exists_initial hroot (l.items text) g'.pragmas.lookahead with ⟨s₀', hinitial'⟩
  have hrun := Machine.paired_run (m := l.machine) rfl hordered hordered hle fuel
    (Machine.abreast_initial hitems hitems hinitial hinitial')
  have hless : l.hasRoom = true :=
    hasRoom_iff.2 (Nat.le_trans (Nat.mul_le_mul_left l.itemSize hle) hroom)
  have hwider : derive { l with grammar := g' } text root fuel = _ :=
    derive_of_initial (hasRoom_iff.2 hroom) hinitial'
  rw [hwider, derive_of_initial hless hinitial]
  have hmachine : machine { l with grammar := g' } = l.machine := rfl
  rw [hmachine]
  generalize l.machine.run fuel s₀ = r at hrun
  generalize l.machine.run fuel s₀' = r' at hrun
  cases hrun with
  | none => exact .inl rfl
  | ok htrace =>
    refine .inl ?_
    simp [Except.map, htrace]
  | error hfailed =>
    refine .inl ?_
    cases hfailed with
    | same => rfl
    | unexpected h h' =>
      rw [h] at h'
      cases h'
      rfl
  | lost _ hpulled hitem => exact .inr ⟨_, _, rfl, hpulled, hitem⟩

/-- A larger window that there is room for changes nothing about a parse that has not named a token as
unexpected, and nothing at all if the smaller one holds every token of the text with its ending.  Without
room for the larger one no parse ever ends. -/
theorem decided_of_wider (hl : ofGrammar H g = .ok l) (hsame : g.SameButLookahead g')
    (hle : max g.pragmas.lookahead 1 ≤ max g'.pragmas.lookahead 1) :
    ∃ l', ofGrammar H g' = .ok l' ∧ ∀ text start,
      (maxOctets < H.itemSize * max g'.pragmas.lookahead 1 → ∀ fuel,
        l'.trace text start fuel = none ∧ l'.parse text start fuel = none) ∧
      (H.itemSize * max g'.pragmas.lookahead 1 ≤ maxOctets → ∀ fuel,
        (∀ r, l.trace text start fuel = some r → Decided r → l'.trace text start fuel = some r) ∧
        (∀ r, l.parse text start fuel = some r → Decided r → l'.parse text start fuel = some r) ∧
        ((l.items text).countP (·.isOk) ≤ max g.pragmas.lookahead 1 →
          l'.trace text start fuel = l.trace text start fuel ∧
            l'.parse text start fuel = l.parse text start fuel)) := by
  refine ⟨{ l with grammar := g' }, ofGrammar_of_same hl hsame, fun text start => ?_⟩
  rcases exists_startRule hl start with ⟨root, hstart, hroot⟩
  have hgrammar := (lexicon_of_ofGrammar hl).1
  rw [← itemSize_of_ofGrammar hl]
  rw [← hgrammar] at hle ⊢
  have hstart' : startRule? { l with grammar := g' } start = some root := hstart
  refine ⟨fun hnone fuel => ?_, fun hroom fuel => ?_⟩
  · refine unfinished_of_no_room hstart' (Bool.eq_false_iff.2 fun hroom => ?_)
    exact Nat.not_le_of_lt hnone (hasRoom_iff.1 hroom)
  · rw [trace_eq hstart, parse_eq hstart, trace_eq hstart', parse_eq hstart']
    rcases derive_of_wider text fuel hroot hle hroom with
      hsame | ⟨t, n, hlost, hpulled, hitem⟩
    · rw [hsame]
      exact ⟨fun r hr _ => hr, fun r hr _ => hr, fun _ => ⟨rfl, rfl⟩⟩
    · rw [hlost]
      refine ⟨?_, ?_, fun henough => ?_⟩
      · intro r hr hdecided
        cases hr
        exact absurd rfl (hdecided _)
      · intro r hr hdecided
        cases hr
        exact absurd rfl (hdecided _)
      · have hcount := lt_countP_of_item hitem
        omega

/-- Two letters, the second of which may only be one or the other, with a window of some tokens. -/
def pairs (lookahead : Int) : Grammar :=
  .ofParts ⟨[("default", ⟨[("a", "a"), ("b", "b")]⟩)]⟩ ⟨[("pair", "<a> <b> | <a> <a>")]⟩
    ⟨[(Pragmas.lookaheadName, .int lookahead)]⟩

private theorem exists_of_parses (h : parses g text fuel = true) :
    ∃ l events, ofGrammar .standard g = .ok l ∧ l.trace text none fuel = some (.ok events) := by
  unfold parses at h
  split at h
  · rename_i l hl
    split at h
    · rename_i events hevents
      exact ⟨l, events, hl, hevents⟩
    · cases h
  · cases h

/-- A pair that is the first alternative is found with any window, and its events are the same. -/
theorem decided_of_wider_pairs :
    ∃ l l' events, ofGrammar .standard (pairs 0) = .ok l ∧ ofGrammar .standard (pairs 8) = .ok l' ∧
      l.trace "ab" none 40 = some (.ok events) ∧ l'.trace "ab" none 40 = some (.ok events) := by
  have hparses : parses (pairs 0) "ab" 40 = true := by decide +kernel
  rcases exists_of_parses hparses with ⟨l, events, hl, hevents⟩
  have hsame : (pairs 0).SameButLookahead (pairs 8) := ⟨rfl, rfl, rfl⟩
  obtain ⟨l', hl', hwider⟩ := decided_of_wider hl hsame (by decide)
  have htrace := ((hwider "ab" none).2 (by decide) 40).1 _ hevents (fun e he => nomatch he)
  exact ⟨l, l', events, hl, hl', hevents, htrace⟩

/-- The largest number that a grammar can give for its window is too large for memory: the pair that is found
with the smallest window is not found then, with however many steps. -/
theorem undecided_of_wider_pairs :
    ∃ l l' events, ofGrammar .standard (pairs 0) = .ok l ∧
      ofGrammar .standard (pairs 9223372036854775807) = .ok l' ∧
      l.trace "ab" none 40 = some (.ok events) ∧
      ∀ fuel, l'.trace "ab" none fuel = none ∧ l'.parse "ab" none fuel = none := by
  have hparses : parses (pairs 0) "ab" 40 = true := by decide +kernel
  rcases exists_of_parses hparses with ⟨l, events, hl, hevents⟩
  have hsame : (pairs 0).SameButLookahead (pairs 9223372036854775807) := ⟨rfl, rfl, rfl⟩
  have hl' := ofGrammar_of_same hl hsame
  rcases exists_startRule hl' none with ⟨root, hstart, -⟩
  refine ⟨l, _, events, hl, hl', hevents, fun fuel => unfinished_of_no_room hstart ?_⟩
  rw [Bool.eq_false_iff]
  intro hroom
  have hoctets := hasRoom_iff.1 hroom
  rw [itemSize_of_ofGrammar hl'] at hoctets
  have hmany : maxOctets <
      Host.standard.itemSize * max (pairs 9223372036854775807).pragmas.lookahead 1 := by
    decide
  exact Nat.not_le_of_lt hmany hoctets

/-- For the second alternative, the first letter is to be given back. -/
example : parses (pairs 1) "aa" 40 = false ∧ parses (pairs 2) "aa" 40 = true := by
  decide +kernel

/-! ## Texts that show the same -/

/-- The tree of events that can be read to the end does not depend on the text. -/
theorem treeOf_congr {events : List Event} (h : Tree.Readable l.rules root events)
    (text text' : String) : l.treeOf text root events = l.treeOf text' root events := by
  rcases h.made with ⟨t, ht⟩
  rw [treeOf, treeOf, ht]
  rfl

/-- A parse fails in one way, whether its events or its tree are asked for. -/
def FailsWith (l : Language) (text : String) (start : Option String) (fuel : Nat) (e : Error) : Prop :=
  l.trace text start fuel = some (.error e) ∧ l.parse text start fuel = some (.error e)

/-- A parse has reached a state in which a rule matches the ending of the text. -/
def ConsumedEnding (l : Language) (text : String) (start : Option String) : Prop :=
  ∃ root s₀ s, l.startRule? start = some root ∧
    l.machine.initial (l.items text) l.grammar.pragmas.lookahead root = .ok s₀ ∧
    l.machine.Reaches s₀ s ∧ l.ConsumesEnding text s

/-- How parses of two texts with some tokens stand after as many steps: neither has ended; they have the
same events and the same tree, unless it is too large in both; each names the token at the same place as
unexpected; or in both a rule has matched the ending of the text, which is an internal error. -/
inductive SameOutcome (l : Language) (text text' : String) (ts ts' : List Token)
    (start : Option String) (fuel : Nat) : Prop
  | unfinished (htrace : l.trace text start fuel = none ∧ l.trace text' start fuel = none)
      (hparse : l.parse text start fuel = none ∧ l.parse text' start fuel = none)
  | derived {events : List Event} {r : Except Error Tree}
      (hr : (∃ tree, r = .ok tree) ∨ r = .error .treeTooLarge)
      (htrace : l.trace text start fuel = some (.ok events) ∧
        l.trace text' start fuel = some (.ok events))
      (hparse : l.parse text start fuel = some r ∧ l.parse text' start fuel = some r)
  | unexpected {i : Nat} {t t' : Token} (ht : ts[i]? = some t) (ht' : ts'[i]? = some t')
      (h : l.FailsWith text start fuel
        (.unexpected (.at (Text.octets text.toList) t l.lexicon.columnUnit)))
      (h' : l.FailsWith text' start fuel
        (.unexpected (.at (Text.octets text'.toList) t' l.lexicon.columnUnit)))
  | consumed (hconsumed : l.ConsumedEnding text start) (hconsumed' : l.ConsumedEnding text' start)
      (h : l.FailsWith text start fuel (.internal "token stream ended before EOF"))
      (h' : l.FailsWith text' start fuel (.internal "token stream ended before EOF"))

section

variable {s₀ s : State} (hstart : l.startRule? start = some root)
  (hinitial : l.machine.initial (l.items text) l.grammar.pragmas.lookahead root = .ok s₀)

include hstart hinitial

/-- Only the match of the ending makes an internal error. -/
private theorem consumedEnding_of_run (hl : ofGrammar H g = .ok l) {detail : String}
    (hrun : l.machine.run fuel s₀ = some (.error (.internal detail))) :
    l.ConsumedEnding text start ∧ .internal detail = pastTheEnd := by
  rcases Machine.exists_reached_of_run hrun with ⟨s, hreach, hstep⟩
  rcases (sound_of_reaches hl hinitial hreach).failed _ hstep with ⟨hexpected, -⟩ | ⟨hpast, hs⟩
  · cases hexpected
  · exact ⟨⟨root, s₀, s, hstart, hinitial, hreach, hs⟩, hpast⟩

variable (hroom : l.hasRoom = true)

include hroom

private theorem unfinished_of_run (hrun : l.machine.run fuel s₀ = none) :
    l.trace text start fuel = none ∧ l.parse text start fuel = none := by
  rw [trace_eq hstart, parse_eq hstart, derive_of_initial hroom hinitial, hrun]
  exact ⟨rfl, rfl⟩

private theorem derived_of_run (hrun : l.machine.run fuel s₀ = some (.ok s)) :
    l.trace text start fuel = some (.ok s.trace.reverse) ∧
      l.parse text start fuel = some (l.treeOf text root s.trace.reverse) := by
  rw [trace_eq hstart, parse_eq hstart, derive_of_initial hroom hinitial, hrun]
  exact ⟨rfl, rfl⟩

private theorem failsWith_of_run {f : Failure} (hrun : l.machine.run fuel s₀ = some (.error f)) :
    l.FailsWith text start fuel (l.errorOf text f) := by
  rw [FailsWith, trace_eq hstart, parse_eq hstart, derive_of_initial hroom hinitial, hrun]
  exact ⟨rfl, rfl⟩

end

private theorem getElem?_of_map_ok {ts : List Token} {t : Token} {n : Nat}
    (h : (ts.map (Except.ok (ε := LexError)))[n]? = some (.ok t)) : ts[n]? = some t := by
  rw [List.getElem?_map, Option.map_eq_some_iff] at h
  rcases h with ⟨u, hu, hsame⟩
  cases hsame
  exact hu

/-- Texts without an error whose tokens show the same come to the same. -/
theorem sameOutcome_of_shown (hl : ofGrammar H g = .ok l) {ts ts' : List Token}
    (hts : l.lexicon.tokenize (Text.octets text.toList) = .ok ts)
    (hts' : l.lexicon.tokenize (Text.octets text'.toList) = .ok ts')
    (hshown : ts'.map Token.shown = ts.map Token.shown) (start : Option String) (fuel : Nat) :
    l.SameOutcome text text' ts ts' start fuel := by
  rcases exists_startRule hl start with ⟨root, hstart, hroot⟩
  rcases hroom : l.hasRoom with _ | _
  · have hnone (text : String) : l.trace text start fuel = none ∧ l.parse text start fuel = none :=
      unfinished_of_no_room hstart hroom
    exact .unfinished ⟨(hnone text).1, (hnone text').1⟩ ⟨(hnone text).2, (hnone text').2⟩
  have hitems : l.items text = ts.map Except.ok := Lexicon.tokenize_eq_ok_iff.1 hts
  have hitems' : l.items text' = ts'.map Except.ok := Lexicon.tokenize_eq_ok_iff.1 hts'
  have hsame : (l.items text').map shownItem = (l.items text).map shownItem := by
    have hboth := congrArg (List.map (Except.ok (ε := LexError))) hshown
    rw [hitems, hitems', List.map_map, List.map_map]
    rw [List.map_map, List.map_map] at hboth
    exact hboth
  have hordered : Ordered (l.items text) := l.lexicon.ordered_items _
  have hordered' : Ordered (l.items text') := l.lexicon.ordered_items _
  rcases exists_initial hroot (l.items text) l.grammar.pragmas.lookahead with ⟨s₀, hinitial⟩
  rcases exists_initial hroot (l.items text') l.grammar.pragmas.lookahead with ⟨s₀', hinitial'⟩
  have halike := Machine.paired_run (m := l.machine) hsame hordered hordered'
    (Nat.le_refl _) fuel (Machine.abreast_initial (l.items_ne_nil text) (l.items_ne_nil text') hinitial
      hinitial')
  generalize hrun : l.machine.run fuel s₀ = r at halike
  generalize hrun' : l.machine.run fuel s₀' = r' at halike
  cases halike with
  | none =>
    have hleft := unfinished_of_run hstart hinitial hroom hrun
    have hright := unfinished_of_run hstart hinitial' hroom hrun'
    exact .unfinished ⟨hleft.1, hright.1⟩ ⟨hleft.2, hright.2⟩
  | ok htrace =>
    have hleft := derived_of_run hstart hinitial hroom hrun
    have hright := derived_of_run hstart hinitial' hroom hrun'
    have hreadable := readable_of_run hroot hinitial hrun
    rw [htrace, treeOf_congr hreadable text' text] at hright
    exact .derived (treeOf_made hreadable text) ⟨hleft.1, hright.1⟩ ⟨hleft.2, hright.2⟩
  | error hfailed =>
    have hleft := failsWith_of_run hstart hinitial hroom hrun
    have hright := failsWith_of_run hstart hinitial' hroom hrun'
    cases hfailed with
    | same hnameless =>
      cases hnameless with
      | lex h =>
        rw [hitems, List.getElem?_map, Option.map_eq_some_iff] at h
        rcases h with ⟨t, -, ht⟩
        cases ht
      | internal detail =>
        rcases consumedEnding_of_run hstart hinitial hl hrun with ⟨hconsumed, hpast⟩
        have hconsumed' := (consumedEnding_of_run hstart hinitial' hl hrun').1
        rw [hpast] at hleft hright
        exact .consumed hconsumed hconsumed' hleft hright
    | unexpected h h' =>
      rw [hitems] at h
      rw [hitems'] at h'
      exact .unexpected (getElem?_of_map_ok h) (getElem?_of_map_ok h') hleft hright
  | lost hless => exact absurd hless (Nat.lt_irrefl _)

/-- A grammar of a letter with blanks around it, and of a letter with the ending of the text after it. -/
def spacedEndings : Grammar :=
  .ofParts ⟨[("default", ⟨[(skipName, " "), ("a", "a"), (endingKind, "x")]⟩)]⟩
    ⟨[("closed", "<a> ::EOF::"), ("letter", "<a>")]⟩ .empty

/-- Whether a grammar cuts two texts into tokens that show the same. -/
def showsAlike (g : Grammar) (text text' : String) : Bool :=
  match ofGrammar .standard g with
  | .ok l =>
    match l.lexicon.tokenize (Text.octets text.toList), l.lexicon.tokenize (Text.octets text'.toList) with
    | .ok ts, .ok ts' => ts'.map Token.shown == ts.map Token.shown
    | _, _ => false
  | .error _ => false

private theorem exists_of_showsAlike (h : showsAlike g text text' = true) :
    ∃ l ts ts', ofGrammar .standard g = .ok l ∧ l.lexicon.tokenize (Text.octets text.toList) = .ok ts ∧
      l.lexicon.tokenize (Text.octets text'.toList) = .ok ts' ∧
      ts'.map Token.shown = ts.map Token.shown := by
  unfold showsAlike at h
  split at h
  · rename_i l hl
    split at h
    · rename_i ts ts' hts hts'
      exact ⟨l, ts, ts', hl, hts, hts', beq_iff_eq.1 h⟩
    · cases h
  · cases h

private theorem showsAlike_blank : showsAlike spacedEndings "a" " a" = true := by
  decide +kernel

/-- A blank before a letter makes no difference. -/
theorem sameOutcome_of_shown_blank :
    ∃ l ts ts', ofGrammar .standard spacedEndings = .ok l ∧
      l.lexicon.tokenize (Text.octets "a".toList) = .ok ts ∧
      l.lexicon.tokenize (Text.octets " a".toList) = .ok ts' ∧
      ts'.map Token.shown = ts.map Token.shown ∧
      l.SameOutcome "a" " a" ts ts' (some "letter") 40 := by
  rcases exists_of_showsAlike showsAlike_blank with ⟨l, ts, ts', hl, hts, hts', hshown⟩
  exact ⟨l, ts, ts', hl, hts, hts', hshown,
    sameOutcome_of_shown hl hts hts' hshown (some "letter") 40⟩

/-- Where a rule asks for the ending, neither text comes to a tree or to an unexpected token. -/
theorem neither_of_shown_blank :
    ∃ l ts ts' r r', ofGrammar .standard spacedEndings = .ok l ∧
      l.lexicon.tokenize (Text.octets "a".toList) = .ok ts ∧
      l.lexicon.tokenize (Text.octets " a".toList) = .ok ts' ∧
      ts'.map Token.shown = ts.map Token.shown ∧ l.parse "a" none 40 = some r ∧
      l.parse " a" none 40 = some r' ∧
      ¬((∃ t, r = .ok t ∧ r' = .ok t) ∨
        ∃ e e', r = .error (.unexpected e) ∧ r' = .error (.unexpected e')) := by
  have hleft : endsInternally spacedEndings "a" none 40 = some true := by decide +kernel
  have hright : endsInternally spacedEndings " a" none 40 = some true := by decide +kernel
  rcases exists_of_showsAlike showsAlike_blank with ⟨l, ts, ts', hl, hts, hts', hshown⟩
  rcases exists_of_endsInternally hleft with ⟨l₁, r, hl₁, hr, hinternal⟩
  rcases exists_of_endsInternally hright with ⟨l₂, r', hl₂, hr', -⟩
  rw [hl] at hl₁ hl₂
  cases hl₁
  cases hl₂
  refine ⟨l, ts, ts', r, r', hl, hts, hts', hshown, hr, hr', ?_⟩
  rintro (⟨t, rfl, -⟩ | ⟨e, e', rfl, -⟩)
  · cases hinternal
  · cases hinternal

end Language

end Descent
