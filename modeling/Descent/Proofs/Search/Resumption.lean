import Descent.Proofs.Search.Agenda

/-!
# Going back to a decision

Going back takes up the last decision that is recorded as it was when it came up: with the events, the
steps to do, the depth and the place in the text that there were then.  Only the token that is to be named
as unexpected is not taken back.

Main results:

- `Machine.Decides` says what is to be done next where a decision is made, and which event records it.
- `Machine.Remains`: a decision made in one state is still recorded in another one.
- `Machine.remembers_of_reaches`: every decision that is recorded was made in a state of the search.
- `Machine.backtrack_restores`: going back leads to where the last decision was made.
-/

namespace Descent

namespace Machine

variable {m : Machine} {items : List (Except LexError Token)} {capacity data : Nat}
  {s s' s₀ p : State} {c c' : Config} {root key : RuleKey} {e : Event} {left : Todo}

/-! ## Decisions -/

/-- Whether an event records a decision that may be taken up again. -/
def isDecision (m : Machine) : Event → Bool
  | .enter call _ _ => m.isChoice call.rule
  | .leave call _ _ => m.isRepetition call.rule
  | .token _ => false

/-- In a configuration the use of a rule is decided by a number: which alternative of a choice is begun,
or after how many passes a repetition ends.  The event records it with the steps that are left but for
the one that is next. -/
inductive Decides (m : Machine) : Config → Event → RuleKey → Nat → Todo → Prop
  | choice {left : Todo} {depth : Int} {trace : List Event} {key : RuleKey} {data : Nat}
      (hkey : m.isChoice key = true) :
      Decides m ⟨left.push (.enter (m.use key data)), depth, trace⟩
        (.enter (m.use key data) (m.depthInside key depth) left) key data left
  | repetition {left : Todo} {depth : Int} {trace : List Event} {key : RuleKey} {data : Nat}
      (hkey : m.isRepetition key = true) :
      Decides m ⟨left.push (.leave (m.use key data) true), depth, trace⟩
        (.leave (m.use key data) depth left) key data left

/-- What is left for later by a decision is to decide by the next number. -/
theorem alternatives_of_decides (h : m.Decides c e key data left) :
    m.alternatives (e :: c.trace) =
      ⟨left.push (.enter (m.use key (data + 1))), c.depth, c.trace⟩ :: m.alternatives c.trace := by
  cases h with
  | choice hkey =>
    rw [alternatives_choice hkey, depthOutside_depthInside]
    rfl
  | repetition hkey => exact alternatives_repetition hkey

/-- What is left for later first is what the last decision has left. -/
theorem exists_decision_of_alternatives {es : List Event} {cs : List Config}
    (h : m.alternatives es = c :: cs) :
    ∃ later e, es = later ++ e :: c.trace ∧ (∀ x ∈ later, m.isDecision x = false) ∧
      m.isDecision e = true ∧ m.alternatives (e :: c.trace) = c :: cs := by
  induction es with
  | nil => cases h
  | cons x es ih =>
    by_cases hx : m.isDecision x = true
    · have htrace : es = c.trace := by
        cases x with
        | enter call depth left =>
          rw [alternatives_choice hx] at h
          cases h
          rfl
        | leave call depth left =>
          rw [alternatives_repetition hx] at h
          cases h
          rfl
        | token t => cases hx
      rw [htrace] at h ⊢
      exact ⟨[], x, rfl, fun y hy => absurd hy List.not_mem_nil, hx, h⟩
    · rw [Bool.not_eq_true] at hx
      have hrest : m.alternatives es = c :: cs := by
        cases x with
        | enter call depth left => rwa [alternatives_enter hx] at h
        | leave call depth left => rwa [alternatives_leave hx] at h
        | token t => exact h
      rcases ih hrest with ⟨later, e, hes, hlater, he⟩
      refine ⟨x :: later, e, ?_, ?_, he⟩
      · rw [hes, List.cons_append]
      · exact List.forall_mem_cons.2 ⟨hx, hlater⟩

/-- A move records one event at most, and it is a decision only where one is made. -/
theorem trace_of_moved (h : m.Moved items c c') :
    c'.trace = c.trace ∨ ∃ e, c'.trace = e :: c.trace ∧
      (m.isDecision e = true → ∃ key data left, m.Decides c e key data left) := by
  cases h with
  | goOn | again | skip => exact .inl rfl
  | leave hcall => exact .inr ⟨_, rfl, fun hdecision => nomatch hcall.symm.trans hdecision⟩
  | stop hkey => exact .inr ⟨_, rfl, fun _ => ⟨_, _, _, .repetition hkey⟩⟩
  | token => exact .inr ⟨_, rfl, fun hdecision => nomatch hdecision⟩
  | concatenation hr hbody =>
    refine .inr ⟨_, rfl, fun hdecision => ?_⟩
    rw [isDecision, rule_use, isChoice_of_body hr, hbody] at hdecision
    cases hdecision
  | take hr hbody =>
    refine .inr ⟨_, rfl, fun _ => ⟨_, _, _, .choice ?_⟩⟩
    rw [isChoice_of_body hr, hbody]
    rfl
  | repetition hr hbody =>
    refine .inr ⟨_, rfl, fun hdecision => ?_⟩
    rw [isDecision, rule_use, isChoice_of_body hr, hbody] at hdecision
    cases hdecision

/-- A step takes events back or records one more, which is a decision only where one is made. -/
theorem trace_of_step (hs : m.Ready items capacity s) (hstep : m.step s = .running s') :
    s'.trace <:+ s.trace ∨ ∃ e, s'.trace = e :: s.trace ∧
      (m.isDecision e = true → ∃ key data left, m.Decides s.config e key data left) := by
  have hmoved {ds : List Bool} (h : (ds, s'.config) ∈ m.moves items s.config) :
      s'.trace <:+ s.trace ∨ ∃ e, s'.trace = e :: s.trace ∧
        (m.isDecision e = true → ∃ key data left, m.Decides s.config e key data left) := by
    rcases trace_of_moved (moved_of_mem_moves hs.good.orderly h) with hsame | hmore
    · have htrace : s'.trace = s.trace := hsame
      rw [htrace]
      exact .inl List.suffix_rfl
    · exact .inr hmore
  cases stepped hs.good with
  | done hdone =>
    rw [hstep] at hdone
    cases hdone
  | broken hfailed =>
    rw [hstep] at hfailed
    cases hfailed
  | forced hrunning hmoves =>
    rw [hstep] at hrunning
    cases hrunning
    exact hmoved (hmoves ▸ List.mem_cons_self)
  | decided hrunning hmoves =>
    rw [hstep] at hrunning
    cases hrunning
    exact hmoved (hmoves ▸ List.mem_cons_self)
  | @stuck s₁ hback htrace =>
    rw [hstep] at hback
    have hstate := retreatThrough_state (m := m) s₁ s₁.trace
    rw [resumed_of_backtrack hback.symm, htrace] at hstate
    exact .inl hstate.2

/-! ## Decisions that are recorded -/

/-- Some steps lead from one state to another, and some events stay recorded all the while. -/
def Keeps (m : Machine) (events : List Event) : State → State → Prop :=
  Relation.ReflTransGen fun s s' => m.step s = .running s' ∧ events <:+ s'.trace

/-- A decision was made in the state `p`, and the event of it has been recorded ever since, up to the
state `s`. -/
structure Remains (m : Machine) (p s : State) (e : Event) (key : RuleKey) (data : Nat) (left : Todo) :
    Prop where
  decides : m.Decides p.config e key data left
  recorded : ∃ p', m.step p = .running p' ∧ p'.trace = e :: p.trace ∧ m.Keeps (e :: p.trace) p' s

theorem Remains.step (h : m.Remains p s e key data left) (hstep : m.step s = .running s')
    (hkept : e :: p.trace <:+ s'.trace) : m.Remains p s' e key data left := by
  rcases h.recorded with ⟨p', hp', htrace, hkeeps⟩
  exact ⟨h.decides, p', hp', htrace, hkeeps.tail ⟨hstep, hkept⟩⟩

/-- Every decision that is recorded in a state was made in a state that was reached, after the events
before it. -/
def Remembers (m : Machine) (s₀ s : State) : Prop :=
  ∀ {later : List Event} {e : Event} {rest : List Event}, s.trace = later ++ e :: rest →
    m.isDecision e = true → ∃ p key data left, m.Reaches s₀ p ∧ p.trace = rest ∧
      m.Remains p s e key data left

theorem remembers_step (hs : m.Ready items capacity s) (hreach : m.Reaches s₀ s)
    (hremembers : m.Remembers s₀ s) (hstep : m.step s = .running s') : m.Remembers s₀ s' := by
  intro later e rest htrace he
  have hkept {p : State} (hp : p.trace = rest) : e :: p.trace <:+ s'.trace := by
    rw [htrace, hp]
    exact List.suffix_append _ _
  -- A decision that was recorded before the step is recorded after it.
  have hold {before : List Event} (hbefore : s.trace = before ++ e :: rest) :
      ∃ p key data left, m.Reaches s₀ p ∧ p.trace = rest ∧ m.Remains p s' e key data left := by
    rcases hremembers hbefore he with ⟨p, key, data, left, hp, hrest, hremains⟩
    exact ⟨p, key, data, left, hp, hrest, hremains.step hstep (hkept hrest)⟩
  rcases trace_of_step hs hstep with ⟨front, hfront⟩ | ⟨new, hnew, hdecides⟩
  · have hbefore : s.trace = (front ++ later) ++ e :: rest := by
      rw [← hfront, htrace, List.append_assoc]
    exact hold hbefore
  · rw [hnew] at htrace
    rcases List.cons_eq_append_iff.1 htrace with ⟨-, hhere⟩ | ⟨later', -, hbefore⟩
    · cases hhere
      rcases hdecides he with ⟨key, data, left, hdecides⟩
      refine ⟨s, key, data, left, hreach, rfl, hdecides, s', hstep, hnew, .refl⟩
    · exact hold hbefore

theorem remembers_of_reaches (hinitial : m.initial items capacity root = .ok s₀)
    (h : m.Reaches s₀ s) : m.Remembers s₀ s := by
  induction h with
  | refl =>
    intro later e rest htrace
    have hnone : s₀.trace = [] := congrArg Config.trace (config_of_initial hinitial)
    rw [hnone] at htrace
    exact absurd htrace.symm (by simp)
  | tail hreach hstep ih =>
    exact remembers_step (ready_of_reaches hinitial hreach) hreach ih hstep

/-! ## Going back -/

/-- Going back from the state `s` to the state `s'` leads to where a decision was made in the state `p`,
which is now decided by the next number. -/
structure Restores (m : Machine) (items : List (Except LexError Token)) (p s s' : State) (key : RuleKey)
    (data : Nat) (left : Todo) : Prop where
  trace_eq : s'.trace = p.trace
  todo_eq : s'.todo = left.push (.enter (m.use key (data + 1)))
  depth_eq : s'.depth = p.depth
  index_eq : s'.window.index items.length = p.window.index items.length
  current_eq : s'.window.current = p.window.current
  /-- The token to be named as unexpected is not taken back. -/
  furthest_eq : s'.furthest = s.furthest

/-- Going back leads to where the last decision that is recorded was made, whatever there is to do. -/
theorem backtrack_restores (hinitial : m.initial items capacity root = .ok s₀)
    (hreach : m.Reaches s₀ s) (todo : Todo) (hback : m.backtrack { s with todo := todo } = .running s') :
    ∃ p e key data left later, m.Reaches s₀ p ∧ m.Remains p s e key data left ∧
      s.trace = later ++ e :: p.trace ∧ (∀ x ∈ later, m.isDecision x = false) ∧
      m.Restores items p s s' key data left := by
  have hready := ready_of_reaches hinitial hreach
  have hresumed : State.retreatThrough m { s with todo := todo } s.trace = .resumed s' :=
    resumed_of_backtrack hback
  have hhere : Placed items (max capacity 1) { s with todo := todo } :=
    hready.good.placed.of_eq rfl rfl
  have hplaced := placed_of_resumed (s := { s with todo := todo }) hhere hresumed
  have hstate := retreatThrough_state (m := m) { s with todo := todo } s.trace
  rw [hresumed] at hstate
  rcases exists_decision_of_alternatives (alternatives_of_resumed hresumed) with
    ⟨later, e, htrace, hlater, he, hagain⟩
  rcases remembers_of_reaches hinitial hreach htrace he with
    ⟨p, key, data, left, hp, hsame, hremains⟩
  have hplacedAt := (ready_of_reaches hinitial hp).good.placed
  have hagenda := alternatives_of_decides hremains.decides
  have hconfig : s'.config = ⟨left.push (.enter (m.use key (data + 1))), p.depth, p.trace⟩ := by
    rw [← hsame] at hagain
    exact (List.cons.inj (hagain.symm.trans hagenda)).1
  have hevents : s'.trace = p.trace := congrArg Config.trace hconfig
  refine ⟨p, e, key, data, left, later, hp, hremains, ?_, hlater, hevents,
    congrArg Config.todo hconfig, congrArg Config.depth hconfig, ?_, ?_, hstate.1⟩
  · rw [hsame]
    exact htrace
  · rw [hplaced.index_eq, hplacedAt.index_eq, hevents]
  · rw [hplaced.current, hplacedAt.current, hevents]

/-- Two of three letters are no whole word: the search gives both back and takes up the choice that it began
with. -/
theorem backtrack_restores_word :
    ∃ s₀ s s' p key data left,
      word.initial ([letter 0, letter 1, letter 2].map Except.ok ++ [.ok (.ending 3)]) 3
        (.named "word") = .ok s₀ ∧
      word.Reaches s₀ s ∧ matchedCount s.trace = 2 ∧ word.backtrack s = .running s' ∧
      matchedCount s'.trace = 0 ∧ word.Reaches s₀ p ∧
      word.Restores ([letter 0, letter 1, letter 2].map Except.ok ++ [.ok (.ending 3)]) p s s' key data
        left := by
  obtain ⟨s₀, s, s', hinitial, hs, hmatched, hback, hnone⟩ : ∃ s₀ s s',
      word.initial ([letter 0, letter 1, letter 2].map Except.ok ++ [.ok (.ending 3)]) 3
        (.named "word") = .ok s₀ ∧
      word.stateAfter 6 s₀ = some s ∧ matchedCount s.trace = 2 ∧ word.backtrack s = .running s' ∧
      matchedCount s'.trace = 0 :=
    ⟨_, _, _, rfl, rfl, rfl, rfl, rfl⟩
  have hreach := reaches_of_stateAfter hs
  rcases backtrack_restores hinitial hreach s.todo hback with
    ⟨p, e, key, data, left, later, hp, -, -, -, hrestores⟩
  exact ⟨s₀, s, s', p, key, data, left, hinitial, hreach, hmatched, hback, hnone, hp, hrestores⟩

end Machine

end Descent
