import Descent.Proofs.Rule.Origin
import Descent.Proofs.Search.Furthest
import Descent.Proofs.Search.Uses

/-!
# Which tokens are unified

A token is refused for its value only if it does not agree with one in the same use of a declared rule.
That is the use of the rule whose body the token is written in, with an exception: a declared rule that
is nothing but a token leaves no events of its own, so that its token counts as one of the rule that
calls it.

Main results:

- `Machine.Mentions.owner_eq`: a part is mentioned by the rule of the declaration that it is written in.
- `Machine.unifiesWithinUses_of_scoped`: what the test of unification compares.
- `Language.unified_within_uses`: this is so in all states that a parse reaches.
-/

namespace Descent

namespace Machine

variable {m : Machine} {g : Grammar} {s : State} {root key : RuleKey} {r : Rule}
  {owner : Option RuleKey} {declarations : List (String × String)} {home : Nat → String × String}
  {call : Call} {kind : String} {unification : Option Nat} {kept : Bool} {t : Token}

/-! ## The rule that a part is written in -/

theorem isTransitional_eq (hrules : g.rules = .ok m.rules) (hr : m.rules.get? key = some r) :
    m.isTransitional key = !key.isNamed :=
  (transitional_of_get? hr).symm.trans ((Grammar.isNamed_of_rules hrules).get? hr)

/-- A part is mentioned by the rule of the declaration that it is written in, and by no other one. -/
theorem Mentions.owner_eq (hrules : g.rules = .ok m.rules)
    (hhome : m.rules.ComesFrom declarations home) (hroot : root.isNamed = true) {n : Nat}
    (h : m.Mentions root owner (.part n)) : owner = some (.named (bareRuleName (home n).1)) := by
  generalize hn : RuleKey.part n = child at h
  induction h generalizing n with
  | root =>
    rw [← hn] at hroot
    cases hroot
  | @body key child r howner hr hchild =>
    rcases hhome.get? hr with ⟨d, -, hkey, hfrom⟩
    rw [isTransitional_eq hrules hr] at howner
    cases key with
    | named name => rw [hfrom.parts child hchild n hn.symm, hkey]
    | part k => cases howner
  | @part owner key child r h hkey hr hchild ih =>
    rcases hhome.get? hr with ⟨d, -, hhere, hfrom⟩
    rw [isTransitional_eq hrules hr] at hkey
    cases key with
    | named name => cases hkey
    | part k =>
      rw [hfrom.parts child hchild n hn.symm, ← hhere]
      exact ih rfl

/-! ## What the test compares -/

/-- To enter the rule of a token is in vain just if the test does not accept the token that is next. -/
theorem enter_blocked_iff (hr : m.rules.get? call.rule = some r)
    (hbody : r.body = .token kind unification kept) (htoken : s.token = .ok t) :
    (∃ s', State.enter m s call = .ok (.blocked s')) ↔
      accepts kind unification s.depth s.trace t = false := by
  have henter : State.enter m s call = State.matchToken m s call.rule kind unification kept := by
    simp only [State.enter, hr, hbody]
  rw [henter]
  constructor
  · rintro ⟨s', hblocked⟩
    unfold State.matchToken at hblocked
    rw [htoken] at hblocked
    dsimp only at hblocked
    split at hblocked
    · rename_i hkind
      exact Bool.eq_false_iff.2 fun haccepts => hkind (accepts_iff.1 haccepts).1
    · split at hblocked
      · rename_i hrefused
        exact Bool.eq_false_iff.2 fun haccepts => (accepts_iff.1 haccepts).2 hrefused
      · split at hblocked
        · cases hblocked
        · cases hblocked
  · intro haccepts
    exact ⟨s, matchToken_of_blocked htoken haccepts⟩

/-- In a state, the test of unification keeps to the uses of declared rules. -/
structure UnifiesWithinUses (m : Machine) (root : RuleKey) (s : State) : Prop where
  /-- No token is outside of the uses. -/
  divided : ∀ t, .token t ∈ s.trace → ∃ use ∈ (usesOf s.trace).all, t ∈ use.tokens
  /-- A token in a use is matched by a rule that the body of the use's rule mentions. -/
  belongs : ∀ use ∈ (usesOf s.trace).all, ∀ t ∈ use.tokens, m.Belongs root use.owner t
  /-- The tokens in a use with the same index have the same value. -/
  consistent : ∀ use ∈ (usesOf s.trace).all, Consistent use.tokens
  /-- The rule of a token that is entered next is mentioned by the body of the rule that is open. -/
  mentions : ∀ {call todo r kind unification kept}, s.todo.pop? = some (.enter call, todo) →
    m.rules.get? call.rule = some r → r.body = .token kind unification kept →
    m.Mentions root (usesOf s.trace).current.owner call.rule
  /-- A token is refused just if it is of another kind or does not agree with one in the use that is
  open. -/
  refused_iff : ∀ {call todo r kind unification kept t}, s.todo.pop? = some (.enter call, todo) →
    m.rules.get? call.rule = some r → r.body = .token kind unification kept → s.token = .ok t →
    ((∃ s', State.enter m { s with todo := todo } call = .ok (.blocked s')) ↔
      t.kind ≠ kind ∨ ∃ u ∈ (usesOf s.trace).current.tokens, ¬u.Agrees (m.matched call.rule t))

theorem unifiesWithinUses_of_scoped (h : m.Scoped root s.config) : m.UnifiesWithinUses root s := by
  refine ⟨fun t => exists_use_of_token, h.tallied.belongs, h.tallied.consistent, ?_, ?_⟩
  · intro call todo r kind unification kept hnext hr hbody
    have hcall : m.isRepetition call.rule = false := by
      rw [isRepetition_of_body hr, hbody]
      rfl
    rcases h.nested.calls hnext hcall with ⟨owner, howner, hmentions⟩
    rw [← Option.some.inj howner] at hmentions
    exact hmentions
  · intro call todo r kind unification kept t hnext hr hbody htoken
    have hagrees := h.tallied.accepts_iff hr hbody t
    rw [enter_blocked_iff (s := { s with todo := todo }) hr hbody htoken, ← Bool.not_eq_true]
    refine (not_congr hagrees).trans ?_
    simp only [Classical.not_and_iff_not_or_not, Classical.not_forall, exists_prop]
    exact Iff.rfl

/-! ## Refusals -/

/-- The rule that refuses the token that is next although the token is of its kind, with the rules of the
tokens matched before. -/
def refusal? (m : Machine) (s : State) : Option (RuleKey × List RuleKey) :=
  match s.todo.pop?, s.token with
  | some (.enter call, todo), .ok t =>
    match State.enter m { s with todo := todo } call, (m.rules.get? call.rule).map Rule.body with
    | .ok (.blocked _), some (.token kind _ _) =>
      if t.kind = kind then
        some (call.rule, s.trace.filterMap fun
          | .token u => some u.rule
          | _ => none)
      else none
    | _, _ => none
  | _, _ => none

end Machine

namespace Language

variable {H : Host} {g : Grammar} {l : Language} {start : Option String} {root : RuleKey}

theorem isNamed_of_startRule (h : l.startRule? start = some root) : root.isNamed = true := by
  unfold startRule? at h
  split at h
  · split at h
    · cases h
      rfl
    · exact List.find?_some h
  · exact List.find?_some h

/-- In all states that a parse reaches, a token is refused for its value just if it does not agree with
one in the same use of a declared rule.  What belongs to a use as a part of a body is written in the
declaration of the use's rule; what else belongs to it is called there, as a declared rule that is nothing
but a token. -/
theorem unified_within_uses (hl : ofGrammar H g = .ok l) (text : String) (start : Option String) :
    ∃ root s₀ home, l.startRule? start = some root ∧
      l.machine.initial (l.items text) l.grammar.pragmas.lookahead root = .ok s₀ ∧
      (∀ s, l.machine.Reaches s₀ s → l.machine.UnifiesWithinUses root s) ∧
      l.rules.ComesFrom g.bodies.entries home ∧
      ∀ n owner, l.machine.Mentions root owner (.part n) →
        owner = some (.named (bareRuleName (home n).1)) := by
  rcases exists_startRule hl start with ⟨root, hstart, hroot⟩
  rcases exists_initial hroot (l.items text) l.grammar.pragmas.lookahead with ⟨s₀, hinitial⟩
  have hrules : g.rules = .ok l.machine.rules := rules_of_ofGrammar hl
  have hclosed : l.machine.rules.Closed := Grammar.closed_of_rules hrules
  rcases Grammar.exists_home_of_rules hrules with ⟨home, hhome⟩
  refine ⟨root, s₀, home, hstart, hinitial, fun s hreach => ?_, hhome, fun n owner h => ?_⟩
  · have hcomes := Machine.comes_of_reaches hclosed hinitial hreach
    exact Machine.unifiesWithinUses_of_scoped (Machine.scoped_of_comes hcomes)
  · exact h.owner_eq hrules hhome (isNamed_of_startRule hstart)

/-- A grammar of a word, a call of a rule that is nothing but a word, and the first word again, where the
index is the same in all places. -/
def calling : Grammar :=
  .ofParts ⟨[("default", ⟨[(skipName, "\\s"), ("w", "[a-z]+")]⟩)]⟩
    ⟨[("#outer", "<w[0]> inner() <w[0]>"), ("inner", "<w[0]>")]⟩ .empty

private theorem unexpectedColumn_calling : unexpectedColumn calling "x y x" 40 = some (3, 4) := by
  decide +kernel

/-- The word in the call belongs to the use of the rule that calls. -/
theorem unified_within_uses_calling :
    ∃ l root s₀, ofGrammar .standard calling = .ok l ∧
      l.machine.initial (l.items "x y x") l.grammar.pragmas.lookahead root = .ok s₀ ∧
      ∀ s, l.machine.Reaches s₀ s → l.machine.UnifiesWithinUses root s := by
  rcases exists_of_unexpectedColumn unexpectedColumn_calling with ⟨l, -, hl, -⟩
  rcases unified_within_uses hl "x y x" none with ⟨root, s₀, -, -, hinitial, huses, -⟩
  exact ⟨l, root, s₀, hl, hinitial, huses⟩

/-- Which rule refuses a token after some steps of a parse. -/
def refusalAfter (g : Grammar) (text : String) (steps : Nat) : Option (RuleKey × List RuleKey) :=
  match ofGrammar .standard g with
  | .ok l =>
    match l.machine.initial (l.items text) l.grammar.pragmas.lookahead (.named "outer") with
    | .ok s₀ => (l.machine.stateAfter steps s₀).bind l.machine.refusal?
    | .error _ => none
  | .error _ => none

private theorem exists_of_refusalAfter {text : String} {steps : Nat} {refusal : RuleKey × List RuleKey}
    (h : refusalAfter g text steps = some refusal) :
    ∃ l s₀ s, ofGrammar .standard g = .ok l ∧
      l.machine.initial (l.items text) l.grammar.pragmas.lookahead (.named "outer") = .ok s₀ ∧
      l.machine.Reaches s₀ s ∧ l.machine.refusal? s = some refusal := by
  unfold refusalAfter at h
  split at h
  · rename_i l hl
    split at h
    · rename_i s₀ hinitial
      rcases Option.bind_eq_some_iff.1 h with ⟨s, hs, hrefusal⟩
      exact ⟨l, s₀, s, hl, hinitial, Machine.reaches_of_stateAfter hs, hrefusal⟩
    · cases h
  · cases h

/-- The rule that is nothing but a word refuses one for the sake of the word before the call, which is a
part of another body, and so the parse names it as unexpected. -/
theorem refused_in_call :
    ∃ l e s₀ s, ofGrammar .standard calling = .ok l ∧
      l.parse "x y x" none 40 = some (.error (.unexpected e)) ∧ e.column = 3 ∧
      l.machine.initial (l.items "x y x") l.grammar.pragmas.lookahead (.named "outer") = .ok s₀ ∧
      l.machine.Reaches s₀ s ∧ l.machine.refusal? s = some (.named "inner", [.part 0]) := by
  have hrefusal : refusalAfter calling "x y x" 2 = some (.named "inner", [.part 0]) := by
    decide +kernel
  rcases exists_of_refusalAfter hrefusal with ⟨l, s₀, s, hl, hinitial, hreach, hrefused⟩
  rcases exists_of_unexpectedColumn unexpectedColumn_calling with ⟨l', e, hl', he, hthird, -⟩
  rw [hl] at hl'
  cases hl'
  exact ⟨l, e, s₀, s, hl, he, hthird, hinitial, hreach, hrefused⟩

end Language

end Descent
