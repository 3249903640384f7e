import Descent.Proofs.Search.Reached

/-!
# Searches with more rules

A search looks up no rule but those that it has to do, those that it has done, and those that they refer
to.  In a table whose references all resolve it never meets a rule that is not there.  So a machine that
has the same rules and some more goes through the same states, step by step.

Main results:

- `Machine.Widens` says that a machine has the rules of another one.
- `Machine.step_eq_of_widens`: a step from a state whose rules are there is the same.
- `Machine.search_eq_of_widens`: so is the whole search.
-/

namespace Descent

namespace Machine

variable {m m' : Machine} {items : List (Except LexError Token)} {capacity : Nat} {s : State}
  {todo : Todo} {key : RuleKey}

/-- A machine has the rules of another one, and cuts texts in the same way. -/
structure Widens (m m' : Machine) : Prop where
  lexicon_eq : m'.lexicon = m.lexicon
  rule_eq : ∀ key, m.Knows key → m'.rules.get? key = m.rules.get? key

/-! ## Single rules -/

theorem isChoice_eq_of_widens (h : m.Widens m') (hkey : m.Knows key) :
    m'.isChoice key = m.isChoice key := by
  rw [isChoice, isChoice, h.rule_eq key hkey]

theorem isRepetition_eq_of_widens (h : m.Widens m') (hkey : m.Knows key) :
    m'.isRepetition key = m.isRepetition key := by
  rw [isRepetition, isRepetition, h.rule_eq key hkey]

theorem plan_eq_of_widens (h : m.Widens m') (hkey : m.Knows key) (todo : Todo) :
    State.plan m' todo key = State.plan m todo key := by
  rw [State.plan, State.plan, Machine.call, Machine.call, h.rule_eq key hkey]

theorem planAll_eq_of_widens (h : m.Widens m') {keys : List RuleKey} (hkeys : ∀ key ∈ keys, m.Knows key)
    (todo : Todo) : State.planAll m' todo keys = State.planAll m todo keys := by
  induction keys generalizing todo with
  | nil => rfl
  | cons key keys ih =>
    rcases List.forall_mem_cons.1 hkeys with ⟨hkey, hrest⟩
    rw [State.planAll, State.planAll, plan_eq_of_widens h hkey]
    split
    · rfl
    · exact ih hrest _

theorem planTimes_eq_of_widens (h : m.Widens m') (hkey : m.Knows key) (todo : Todo) (n : Nat) :
    State.planTimes m' todo key n = State.planTimes m todo key n := by
  induction n generalizing todo with
  | zero => rfl
  | succ n ih =>
    rw [State.planTimes, State.planTimes, plan_eq_of_widens h hkey]
    split
    · rfl
    · exact ih _

/-! ## Beginning a rule -/

section

variable {call : Call}

theorem matchToken_eq_of_widens (h : m.Widens m') (s : State) (key : RuleKey) (kind : String)
    (unification : Option Nat) (kept : Bool) :
    State.matchToken m' s key kind unification kept =
      State.matchToken m s key kind unification kept := by
  rw [State.matchToken, State.matchToken, h.lexicon_eq]

theorem enterConcatenation_eq_of_widens (h : m.Widens m') {children : List RuleKey}
    (hchildren : ∀ child ∈ children, m.Knows child) (s : State) (call : Call) :
    State.enterConcatenation m' s call children = State.enterConcatenation m s call children := by
  have hreverse : ∀ child ∈ children.reverse, m.Knows child :=
    fun child hchild => hchildren child (List.mem_reverse.1 hchild)
  rw [State.enterConcatenation, State.enterConcatenation, planAll_eq_of_widens h hreverse]

theorem enterChoice_eq_of_widens (h : m.Widens m') {children : List RuleKey}
    (hchildren : ∀ child ∈ children, m.Knows child) (s : State) (call : Call) :
    State.enterChoice m' s call children = State.enterChoice m s call children := by
  unfold State.enterChoice
  rcases hchild : children[call.data]? with _ | child
  · rfl
  · dsimp only
    rw [plan_eq_of_widens h (hchildren child (List.mem_of_getElem? hchild))]

theorem enterRepetition_eq_of_widens (h : m.Widens m') {child : RuleKey} (hchild : m.Knows child)
    (s : State) (call : Call) (bounds : Bounds) :
    State.enterRepetition m' s call bounds child = State.enterRepetition m s call bounds child := by
  unfold State.enterRepetition
  dsimp only
  rw [planTimes_eq_of_widens h hchild, plan_eq_of_widens h hchild]

theorem enter_eq_of_widens (h : m.Widens m') (hclosed : m.rules.Closed) (hcall : m.Knows call.rule)
    (s : State) : State.enter m' s call = State.enter m s call := by
  rcases Option.ne_none_iff_exists'.1 hcall with ⟨r, hr⟩
  have hchildren : ∀ child ∈ r.children, m.Knows child := fun child hchild => hclosed hr hchild
  unfold State.enter
  rw [h.rule_eq _ hcall, hr]
  dsimp only
  unfold Rule.children at hchildren
  cases hbody : r.body with
  | token kind unification kept => exact matchToken_eq_of_widens h s _ kind unification kept
  | concatenation children =>
    rw [hbody] at hchildren
    exact enterConcatenation_eq_of_widens h hchildren s _
  | choice children =>
    rw [hbody] at hchildren
    exact enterChoice_eq_of_widens h hchildren s _
  | repetition bounds child =>
    rw [hbody] at hchildren
    exact enterRepetition_eq_of_widens h (hchildren child (List.mem_singleton_self child)) s _ bounds

end

/-! ## Going back -/

theorem retreatThrough_eq_of_widens (h : m.Widens m') {es : List Event}
    (hrecorded : ∀ e ∈ es, m.Recorded e) (s : State) :
    State.retreatThrough m' s es = State.retreatThrough m s es := by
  induction es generalizing s with
  | nil => rfl
  | cons e es ih =>
    rcases List.forall_mem_cons.1 hrecorded with ⟨he, hes⟩
    cases e with
    | enter call depth left =>
      rw [State.retreatThrough, State.retreatThrough, isChoice_eq_of_widens h he.1, ih hes]
    | leave call depth left =>
      rw [State.retreatThrough, State.retreatThrough, isRepetition_eq_of_widens h he.1, ih hes]
    | token t =>
      rw [State.retreatThrough, State.retreatThrough]
      dsimp only
      rw [ih hes]

theorem backtrack_eq_of_widens (h : m.Widens m') (hrecorded : ∀ e ∈ s.trace, m.Recorded e) :
    m'.backtrack s = m.backtrack s := by
  rw [backtrack, backtrack, State.retreat, State.retreat, retreatThrough_eq_of_widens h hrecorded]

/-! ## Steps -/

/-- A step from a steady state looks up no rule that is not there. -/
theorem step_eq_of_widens (h : m.Widens m') (hclosed : m.rules.Closed)
    (hs : m.Steady items capacity s) : m'.step s = m.step s := by
  unfold step
  split
  · rfl
  · rename_i call todo hpop
    have hknown := hs.known
    rw [Stack.eq_push_of_pop? hpop] at hknown
    have hcall : m.Knows call.rule := hknown.pop.2
    rw [enter_eq_of_widens h hclosed hcall]
    split
    · rfl
    · rfl
    · rename_i henter
      -- a step that is blocked leaves the events as they are
      cases enters_of_enter (show Noted { s with todo := todo } from hs.noted) henter with
      | blocked => exact backtrack_eq_of_widens h hs.recorded
  · split
    · rfl
    · rw [backtrack_eq_of_widens h hs.recorded]

/-- A search from a steady state is the same with more rules. -/
theorem run_eq_of_widens (h : m.Widens m') (hclosed : m.rules.Closed) (fuel : Nat)
    (hs : m.Steady items capacity s) : m'.run fuel s = m.run fuel s := by
  induction fuel generalizing s with
  | zero => rfl
  | succ fuel ih =>
    rw [run_succ, run_succ, step_eq_of_widens h hclosed hs]
    split
    · rename_i hstep
      exact ih (steady_step hclosed hs hstep)
    · rfl
    · rfl

theorem initial_eq_of_widens (h : m.Widens m') (hroot : m.Knows key)
    (items : List (Except LexError Token)) (capacity : Nat) :
    m'.initial items capacity key = m.initial items capacity key := by
  rw [initial, initial, plan_eq_of_widens h hroot]

/-- A search for a rule that is there is the same with more rules. -/
theorem search_eq_of_widens (h : m.Widens m') (hclosed : m.rules.Closed) (hroot : m.Knows key)
    (items : List (Except LexError Token)) (capacity fuel : Nat) :
    m'.search items capacity key fuel = m.search items capacity key fuel := by
  rw [search, search, initial_eq_of_widens h hroot]
  split
  · rfl
  · rename_i hinitial
    rw [run_eq_of_widens h hclosed fuel (steady_initial hinitial)]

/-! ## Events -/

theorem eq_of_step_done {s' : State} (h : m.step s = .done s') : s' = s := by
  have hback (s₁ : State) : m.backtrack s₁ ≠ .done s' := by
    unfold backtrack
    split <;> exact fun hdone => by cases hdone
  unfold step at h
  split at h
  · cases h
  · split at h
    · cases h
    · cases h
    · exact absurd h (hback _)
  · split at h
    · cases h
    · split at h
      · cases h
        rfl
      · exact absurd h (hback s)

theorem recorded_of_run (hclosed : m.rules.Closed) {fuel : Nat} {s' : State}
    (hs : m.Steady items capacity s) (h : m.run fuel s = some (.ok s')) :
    ∀ e ∈ s'.trace, m.Recorded e := by
  induction fuel generalizing s with
  | zero => cases h
  | succ fuel ih =>
    rw [run_succ] at h
    split at h
    · rename_i hstep
      exact ih (steady_step hclosed hs hstep) h
    · rename_i hstep
      cases h
      rw [eq_of_step_done hstep]
      exact hs.recorded
    · cases h

/-- The events of a search are all of rules that are there. -/
theorem recorded_of_search (hclosed : m.rules.Closed) {fuel : Nat} {events : List Event}
    (h : m.search items capacity key fuel = some (.ok events)) : ∀ e ∈ events, m.Recorded e := by
  rcases search_cases h with ⟨-, f, hfailed⟩ | ⟨s₀, r, hinitial, hrun, hevents⟩
  · cases hfailed
  · rcases r with f | s
    · cases hevents
    · cases hevents
      intro e he
      exact recorded_of_run hclosed (steady_initial hinitial) hrun e (List.mem_reverse.1 he)

end Machine

end Descent
