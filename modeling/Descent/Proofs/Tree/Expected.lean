import Descent.Proofs.Rule.Closed
import Descent.Proofs.Search.Failing
import Descent.Proofs.Token.Ending
import Descent.Proofs.Tree.Bracketed
import Descent.Proofs.Tree.KeptTokens
import Descent.Proofs.Tree.Linked

/-!
# What a parse may come to

A parse with a compiled grammar comes to a tree, or to an error in the text: an item that is an
error, a token that was not expected, or a tree that has too many nodes.  It comes to an internal
error just if a rule for the kind of the ending matches the ending of the text, for then there is
nothing left to stand on.

Main results:

- `Language.exists_startRule`: there is a rule to start from, whatever is asked for.
- `Language.sound_of_reaches`: what holds of every state that a parse reaches.
- `Language.parse_expected`: what a parse comes to.
-/

namespace Descent

namespace Language

variable {H : Host} {g : Grammar} {l : Language} {text : String} {start : Option String} {root : RuleKey}
  {s s₀ : State} {fuel : Nat}

/-- What a parse comes to when nothing is wrong inside. -/
inductive Expected : Except Error Tree → Prop
  | tree (t : Tree) : Expected (.ok t)
  | lex (e : LexError) : Expected (.error (.lex e))
  | unexpected (e : Unexpected) : Expected (.error (.unexpected e))
  | tooLarge : Expected (.error .treeTooLarge)

/-- A rule for the kind of the ending matches the ending of the text, which is its last item. -/
def ConsumesEnding (l : Language) (text : String) (s : State) : Prop :=
  l.machine.Overruns (l.items text) s (.ending (Text.octets text.toList).length)

/-- What holds of the states of a parse: the rules to do and those recorded are there, a token can
be named when the window has dropped one that is to be given back, and a step fails as expected
unless it consumes the ending of the text. -/
structure Sound (l : Language) (text : String) (s : State) : Prop where
  known : l.machine.KnowsAll s.todo
  recorded : ∀ e ∈ s.trace, l.machine.Recorded e
  named : ∀ todo s', State.retreat l.machine { s with todo := todo } = .exhausted s' →
    s'.window.isValid = false → s'.furthest ≠ none
  failed : ∀ f, l.machine.step s = .failed f →
    f.Expected ∧ ¬l.ConsumesEnding text s ∨ f = pastTheEnd ∧ l.ConsumesEnding text s
  overrun : l.ConsumesEnding text s → l.machine.step s = .failed pastTheEnd

theorem items_ne_nil (l : Language) (text : String) : l.items text ≠ [] := by
  rcases l.lexicon.exists_items (Text.octets text.toList) with ⟨ts, last, hends⟩
  rw [items, hends.items_eq]
  exact List.append_ne_nil_of_right_ne_nil _ (List.cons_ne_nil last [])

/-- The last item that is a token is the ending. -/
theorem consumesEnding_of_overruns {t : Token} (h : l.machine.Overruns (l.items text) s t) :
    l.ConsumesEnding text s := by
  rcases l.lexicon.exists_items (Text.octets text.toList) with ⟨ts, last, hends⟩
  have hlast : last = .ok t := by
    have hsuffix := List.drop_suffix (matchedCount s.trace) (l.items text)
    rw [h.last, items, hends.items_eq] at hsuffix
    rcases hsuffix with ⟨front, hfront⟩
    exact (List.cons.inj (List.append_inj' hfront rfl).2).1.symm
  rcases hends.isLast with hending | ⟨e, he⟩
  · rw [hlast] at hending
    cases hending
    exact h
  · rw [hlast] at he
    cases he

/-- There is a rule to start from, whatever is asked for. -/
theorem exists_startRule (hl : ofGrammar H g = .ok l) (start : Option String) :
    ∃ root, l.startRule? start = some root ∧ l.rules.get? root ≠ none := by
  rcases Grammar.exists_root_of_rules (rules_of_ofGrammar hl) with ⟨root, hroot, hthere⟩
  unfold startRule?
  split
  · split
    · rename_i hcontains
      exact ⟨_, rfl, OrderedMap.mem_keys_iff.1 (OrderedMap.contains_iff_mem_keys.1 hcontains)⟩
    · exact ⟨root, hroot, hthere⟩
  · exact ⟨root, hroot, hthere⟩

/-- What holds of every state that a parse reaches. -/
theorem sound_of_reaches (hl : ofGrammar H g = .ok l)
    (hinitial : l.machine.initial (l.items text) l.grammar.pragmas.lookahead root = .ok s₀)
    (h : l.machine.Reaches s₀ s) : l.Sound text s := by
  have hclosed : l.machine.rules.Closed := Grammar.closed_of_rules (rules_of_ofGrammar hl)
  have hsteady := Machine.steady_of_reaches hclosed hinitial h
  have hitems := l.items_ne_nil text
  have hoverrun (hconsumes : l.ConsumesEnding text s) :
      l.machine.step s = .failed pastTheEnd :=
    Machine.step_of_overruns hsteady.good.placed hconsumes
  refine ⟨hsteady.known, hsteady.recorded,
    fun todo s' => Machine.furthest_of_exhausted hsteady hitems, ?_, hoverrun⟩
  intro f hstep
  by_cases hconsumes : l.ConsumesEnding text s
  · rw [hoverrun hconsumes] at hstep
    cases hstep
    exact .inr ⟨rfl, hconsumes⟩
  · rcases Machine.failed_of_step hclosed hsteady hitems hstep with hf | ⟨-, t, ht⟩
    · exact .inl ⟨hf, hconsumes⟩
    · exact absurd (consumesEnding_of_overruns ht) hconsumes

/-- Where a search has consumed the ending of the text, it can only fail. -/
theorem eq_pastTheEnd_of_consumesEnding {r : Except Failure State} (hsound : l.Sound text s)
    (hreach : l.machine.Reaches s₀ s) (hconsumes : l.ConsumesEnding text s)
    (hrun : l.machine.run fuel s₀ = some r) : r = .error pastTheEnd :=
  Machine.Halts.unique ⟨fuel, hrun⟩ (hreach.halts (hsound.overrun hconsumes))

/-- The events of a search that ends well make a tree. -/
theorem readable_of_run (hroot : l.rules.get? root ≠ none)
    (hinitial : l.machine.initial (l.items text) l.grammar.pragmas.lookahead root = .ok s₀)
    (hrun : l.machine.run fuel s₀ = some (.ok s)) :
    Tree.Readable l.rules root s.trace.reverse := by
  rcases Machine.run_ok hinitial hrun with ⟨d, last, rest, hends, hevents, -⟩
  rw [hevents]
  exact Tree.readable_of_bracketed hroot
    (Derivation.bracketed_linearize hends.derives.fits (-1) .empty)

theorem expected_errorOf (l : Language) (text : String) {f : Failure} (h : f.Expected) :
    Expected (.error (l.errorOf text f)) := by
  cases h with
  | lex e => exact .lex e
  | unexpected t => exact .unexpected _

/-- Events that can be read to the end make a tree, unless too many nodes are made. -/
theorem treeOf_made {events : List Event} (h : Tree.Readable l.rules root events) (text : String) :
    (∃ t, l.treeOf text root events = .ok t) ∨
      l.treeOf text root events = .error .treeTooLarge := by
  rcases h.made with ⟨t, ht⟩
  have houtcome := LinkedTree.ofEvents_cases l.rules root events
  unfold treeOf
  rw [ht] at houtcome ⊢
  generalize LinkedTree.ofEvents l.rules root events = r at houtcome ⊢
  cases houtcome with
  | tooLarge => exact .inr rfl
  | ok hholds => exact .inl ⟨t, rfl⟩

theorem expected_treeOf {events : List Event} (h : Tree.Readable l.rules root events) :
    Expected (l.treeOf text root events) := by
  rcases treeOf_made h text with ⟨t, ht⟩ | hlarge
  · rw [ht]
    exact .tree t
  · rw [hlarge]
    exact .tooLarge

/-- What comes back of a derivation is what a run from the initial state has recorded. -/
theorem exists_run_of_derive {r : Except Failure (List Event)}
    (hinitial : l.machine.initial (l.items text) l.grammar.pragmas.lookahead root = .ok s₀)
    (h : l.derive text root fuel = some r) :
    ∃ r', l.machine.run fuel s₀ = some r' ∧ r = r'.map fun s => s.trace.reverse := by
  have hsearch := (search_of_derive h).2
  rw [Machine.search, hinitial] at hsearch
  rcases Option.map_eq_some_iff.1 hsearch with ⟨r', hrun, rfl⟩
  exact ⟨r', hrun, rfl⟩

/-- A parse starts from a rule that is there, and whatever it reaches is sound.  The events of a
derivation are read to the end, with no rule left open.  A parse comes to something expected, or it
has consumed the ending of the text. -/
theorem parse_expected (hl : ofGrammar H g = .ok l) (text : String) (start : Option String) :
    ∃ root s₀, l.startRule? start = some root ∧ l.rules.get? root ≠ none ∧
      l.machine.initial (l.items text) l.grammar.pragmas.lookahead root = .ok s₀ ∧
      (∀ s, l.machine.Reaches s₀ s → l.Sound text s) ∧
      (∀ fuel events, l.trace text start fuel = some (.ok events) →
        Tree.Readable l.rules root events) ∧
      ∀ fuel r, l.parse text start fuel = some r →
        (Expected r ∧ ∀ s, l.machine.Reaches s₀ s → ¬l.ConsumesEnding text s) ∨
        r = .error (.internal "token stream ended before EOF") ∧
          ∃ s, l.machine.Reaches s₀ s ∧ l.ConsumesEnding text s := by
  rcases exists_startRule hl start with ⟨root, hstart, hroot⟩
  obtain ⟨s₀, hinitial⟩ :
      ∃ s₀, l.machine.initial (l.items text) l.grammar.pragmas.lookahead root = .ok s₀ := by
    rw [Machine.initial, Machine.plan_of_get? hroot]
    exact ⟨_, rfl⟩
  have hsound (s : State) (h : l.machine.Reaches s₀ s) : l.Sound text s :=
    sound_of_reaches hl hinitial h
  refine ⟨root, s₀, hstart, hroot, hinitial, hsound, fun fuel events htrace => ?_,
    fun fuel r hparse => ?_⟩
  · rw [trace, hstart] at htrace
    rcases Option.map_eq_some_iff.1 htrace with ⟨r, hderive, hr⟩
    rcases exists_run_of_derive hinitial hderive with ⟨f | s, hrun, rfl⟩
    · cases hr
    · cases hr
      exact readable_of_run hroot hinitial hrun
  · rw [parse, hstart] at hparse
    rcases Option.map_eq_some_iff.1 hparse with ⟨r, hderive, rfl⟩
    rcases exists_run_of_derive hinitial hderive with ⟨r', hrun, rfl⟩
    have hconsumes {s : State} (h : l.machine.Reaches s₀ s) (hs : l.ConsumesEnding text s) :
        r' = .error pastTheEnd :=
      eq_pastTheEnd_of_consumesEnding (hsound s h) h hs hrun
    rcases r' with f | s
    · rcases Machine.exists_reached_of_run hrun with ⟨s, hreach, hstep⟩
      rcases (hsound s hreach).failed f hstep with ⟨hf, -⟩ | ⟨rfl, hs⟩
      · refine .inl ⟨expected_errorOf l text hf, fun s' h hs => ?_⟩
        cases hconsumes h hs
        cases hf
      · exact .inr ⟨rfl, s, hreach, hs⟩
    · refine .inl ⟨expected_treeOf (readable_of_run hroot hinitial hrun), fun s' h hs => ?_⟩
      cases hconsumes h hs

/-- A grammar of a letter, and of a letter with the ending of the text after it. -/
def endings : Grammar :=
  .ofParts ⟨[("default", ⟨[("a", "a"), (endingKind, "x")]⟩)]⟩
    ⟨[("letter", "<a>"), ("#closed", "<a> ::EOF::")]⟩ .empty

/-- Whether a result is an internal error. -/
def isInternal : Except Error Tree → Bool
  | .error (.internal _) => true
  | _ => false

theorem isInternal_of_expected {r : Except Error Tree} (h : Expected r) : isInternal r = false := by
  cases h <;> rfl

/-- Whether the parse of a text with a grammar comes to an internal error, if it ends. -/
def endsInternally (g : Grammar) (text : String) (start : Option String) (fuel : Nat) :
    Option Bool :=
  match ofGrammar .standard g with
  | .ok l => (l.parse text start fuel).map isInternal
  | .error _ => none

theorem exists_of_endsInternally {b : Bool}
    (h : endsInternally g text start fuel = some b) :
    ∃ l r, ofGrammar .standard g = .ok l ∧ l.parse text start fuel = some r ∧ isInternal r = b := by
  unfold endsInternally at h
  split at h
  · rename_i l hl
    rcases Option.map_eq_some_iff.1 h with ⟨r, hr, hb⟩
    exact ⟨l, r, hl, hr, hb⟩
  · cases h

/-- A letter alone comes to a tree; where the ending is asked for, it is consumed. -/
theorem parse_expected_endings :
    ∃ l r s, ofGrammar .standard endings = .ok l ∧ l.parse "a" none 40 = some r ∧ Expected r ∧
      l.parse "a" (some "closed") 40 = some (.error (.internal "token stream ended before EOF")) ∧
      l.ConsumesEnding "a" s := by
  have hletter : endsInternally endings "a" none 40 = some false := by decide +kernel
  have hclosed : endsInternally endings "a" (some "closed") 40 = some true := by decide +kernel
  rcases exists_of_endsInternally hletter with ⟨l, r, hl, hr, hok⟩
  rcases exists_of_endsInternally hclosed with ⟨l', r', hl', hr', hinternal⟩
  rw [hl] at hl'
  cases hl'
  obtain ⟨root, s₀, -, -, -, -, -, hends⟩ := parse_expected hl "a" none
  have hexpected : Expected r := by
    rcases hends 40 r hr with ⟨h, -⟩ | ⟨rfl, -⟩
    · exact h
    · cases hok
  obtain ⟨root', s₀', -, -, -, -, -, hends'⟩ := parse_expected hl "a" (some "closed")
  rcases hends' 40 r' hr' with ⟨h, -⟩ | ⟨rfl, s, -, hs⟩
  · rw [isInternal_of_expected h] at hinternal
    cases hinternal
  · exact ⟨l, r, s, hl, hr, hexpected, hr', hs⟩

end Language

end Descent
