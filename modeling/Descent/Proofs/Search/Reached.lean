import Mathlib.Logic.Relation
import Descent.Proofs.Rule.Closed
import Descent.Proofs.Search.FirstDerivation

/-!
# What a search may reach

In a table of rules whose references all resolve, a search never meets a rule that is not there: not
in what it has to do, not in what it has done, and not in what a decision has kept for later.  Once
it has matched a token, it can always name one that was not expected, even if the window has dropped
the tokens that it would have to give back.

Main results:

- `Machine.Reaches` is a number of steps, and `Machine.Steady` what holds of the states reached.
- `Machine.retreated_of_recorded` says what going back comes to.
- `Machine.steady_step`: a step keeps a state steady.
- `Machine.steady_of_reaches`: so every state that is reached is steady.
-/

namespace Descent

/-- The state that going back leads to. -/
def State.Retreat.state : State.Retreat → State
  | .resumed s | .exhausted s => s

namespace Machine

/-- Some steps of a search lead from one state to another. -/
def Reaches (m : Machine) : State → State → Prop :=
  Relation.ReflTransGen fun s s' => m.step s = .running s'

/-- There is such a rule. -/
def Knows (m : Machine) (key : RuleKey) : Prop :=
  m.rules.get? key ≠ none

/-- There are rules for all steps to do. -/
def KnowsAll (m : Machine) (todo : Todo) : Prop :=
  ∀ step ∈ todo.items, m.Knows step.call.rule

/-- An event is one of a rule that is there, and so are the steps that it keeps; if a search may
come back to it, they are in order then. -/
def Recorded (m : Machine) : Event → Prop
  | .enter c _ left => m.Knows c.rule ∧ m.KnowsAll left ∧
    (m.isChoice c.rule = true → m.Orderly (left.push (.enter { c with data := c.data + 1 })))
  | .leave c _ left => m.Knows c.rule ∧ m.KnowsAll left ∧
    (m.isRepetition c.rule = true → m.Orderly (left.push (.enter { c with data := c.data + 1 })))
  | .token t => m.Knows t.rule

/-- Once a token was matched, there is one to be named as unexpected. -/
def Noted (s : State) : Prop :=
  0 < matchedCount s.trace → s.furthest ≠ none

/-- What holds of every state that a search reaches. -/
structure Steady (m : Machine) (items : List (Except LexError Token)) (capacity : Nat) (s : State) :
    Prop where
  good : m.Good items capacity s
  known : m.KnowsAll s.todo
  recorded : ∀ e ∈ s.trace, m.Recorded e
  noted : Noted s

variable {m : Machine} {items : List (Except LexError Token)} {capacity : Nat} {s s' : State}
  {todo : Todo} {key : RuleKey}

/-- The state after some steps. -/
def stateAfter (m : Machine) : (steps : Nat) → State → Option State
  | 0, s => some s
  | steps + 1, s =>
    match m.step s with
    | .running s' => m.stateAfter steps s'
    | _ => none

theorem reaches_of_stateAfter {steps : Nat} {s' : State} (h : m.stateAfter steps s = some s') :
    m.Reaches s s' := by
  induction steps generalizing s with
  | zero =>
    cases h
    exact .refl
  | succ steps ih =>
    unfold stateAfter at h
    split at h
    · rename_i s₁ hstep
      exact .head hstep (ih h)
    · cases h

/-! ## Steps to do -/

theorem knowsAll_empty : m.KnowsAll .empty :=
  fun _ h => absurd h List.not_mem_nil

theorem KnowsAll.push (h : m.KnowsAll todo) (step : Step) (hstep : m.Knows step.call.rule) :
    m.KnowsAll (todo.push step) := by
  intro other hother
  rcases List.mem_cons.1 hother with rfl | hother
  · exact hstep
  · exact h other hother

theorem KnowsAll.pop {step : Step} (h : m.KnowsAll (todo.push step)) :
    m.KnowsAll todo ∧ m.Knows step.call.rule :=
  ⟨fun other hother => h other (List.mem_cons_of_mem _ hother), h step List.mem_cons_self⟩

theorem KnowsAll.planned (h : m.KnowsAll todo) (hkey : m.Knows key) :
    m.KnowsAll (m.planned todo key) :=
  (h.push (.leave (m.use key 0) false) hkey).push (.enter (m.use key 0)) hkey

theorem KnowsAll.plannedAll {keys : List RuleKey} (h : m.KnowsAll todo)
    (hkeys : ∀ key ∈ keys, m.Knows key) : m.KnowsAll (m.plannedAll todo keys) := by
  induction keys with
  | nil => exact h
  | cons key keys ih =>
    rw [plannedAll_cons]
    exact (ih fun k hk => hkeys k (List.mem_cons_of_mem _ hk)).planned
      (hkeys key List.mem_cons_self)

theorem KnowsAll.passesLeft {child : RuleKey} {made : Nat} (h : m.KnowsAll todo)
    (hkey : m.Knows key) (hchild : m.Knows child) :
    m.KnowsAll (m.passesLeft key child todo made) :=
  (h.push (.leave (m.use key (max (m.leastPasses key) made)) true) hkey).plannedAll fun _ hk =>
    (List.eq_of_mem_replicate hk).symm ▸ hchild

/-! ## Moves -/

/-- What a move makes of steps to do and events that are known: one event at most is added. -/
def Records (m : Machine) (trace : List Event) (c : Config) : Prop :=
  m.KnowsAll c.todo ∧ (c.trace = trace ∨ ∃ e, c.trace = e :: trace ∧ m.Recorded e)

section

variable {c : Config} {ds : List Bool} {depth : Int} {trace : List Event} {r : Rule} {index : Nat}

theorem rule_matched (hr : m.rules.get? key = some r) {kind : String} {unification : Option Nat}
    {kept : Bool} (hbody : r.body = .token kind unification kept) (t : Token) :
    (m.matched key t).rule = key := by
  rw [matched_eq hr hbody]

private theorem records_of_leave {call : Call} (hcall : m.isRepetition call.rule = false)
    (hknown : m.KnowsAll (todo.push (.leave call false)))
    (h : (ds, c) ∈ m.moves items ⟨todo.push (.leave call false), depth, trace⟩) :
    m.Records trace c := by
  rw [moves_leave, List.mem_singleton] at h
  cases h
  rcases hknown.pop with ⟨htodo, hkey⟩
  refine ⟨htodo, .inr ⟨_, rfl, hkey, knowsAll_empty, fun hrepetition => ?_⟩⟩
  rw [hcall] at hrepetition
  cases hrepetition

private theorem records_of_decision {made : Nat} (hkey : m.isRepetition key = true)
    (htodo : m.Orderly todo) (hknown : m.KnowsAll (todo.push (.leave (m.use key made) true)))
    (h : (ds, c) ∈ m.moves items ⟨todo.push (.leave (m.use key made) true), depth, trace⟩) :
    m.Records trace c := by
  rw [moves_decision, List.mem_cons, List.mem_singleton] at h
  rcases hknown.pop with ⟨hleft, hrule⟩
  rcases h with htake | hskip
  · cases htake
    exact ⟨hleft, .inr ⟨_, rfl, hrule, hleft, fun _ => htodo.again hkey⟩⟩
  · cases hskip
    exact ⟨hleft.push (.enter (m.use key (made + 1))) hrule, .inl rfl⟩

private theorem records_of_enter (hclosed : m.rules.Closed)
    (hindex : index = 0 ∨ m.isChoice key = true) (htodo : m.Orderly todo)
    (hknown : m.KnowsAll (todo.push (.leave (m.use key 0) false)))
    (h : (ds, c) ∈ m.moves items
      ⟨(todo.push (.leave (m.use key 0) false)).push (.enter (m.use key index)), depth, trace⟩) :
    m.Records trace c := by
  rcases hknown.pop with ⟨hleft, hkey⟩
  cases entered_of_mem_moves h with
  | token hr hbody =>
    refine ⟨hleft, .inr ⟨_, rfl, ?_⟩⟩
    show m.Knows (m.matched (m.use key index).rule _).rule
    rw [rule_matched hr hbody]
    exact hkey
  | concatenation hr hbody =>
    refine ⟨hknown.plannedAll fun k hk => hclosed hr (by rwa [Rule.children, hbody]),
      .inr ⟨_, rfl, hkey, knowsAll_empty, fun hnot => ?_⟩⟩
    have hkind := (isChoice_of_body hr).symm.trans hnot
    rw [hbody] at hkind
    cases hkind
  | take hr hbody hchild =>
    have hchoice := isChoice_of_body hr
    rw [hbody] at hchoice
    have hmem := List.mem_of_getElem? hchild
    exact ⟨hknown.planned (hclosed hr (by rwa [Rule.children, hbody])),
      .inr ⟨_, rfl, hkey, hknown, fun _ => htodo.enter hkey (.inr hchoice)⟩⟩
  | skip => exact ⟨hknown.push (.enter (m.use key (index + 1))) hkey, .inl rfl⟩
  | begin hr hbody =>
    have hchild := hclosed hr (by rw [Rule.children, hbody]; exact List.mem_singleton_self _)
    refine ⟨hleft.passesLeft hkey hchild, .inr ⟨_, rfl, hkey, knowsAll_empty, fun hnot => ?_⟩⟩
    have hkind := (isChoice_of_body hr).symm.trans hnot
    rw [hbody] at hkind
    cases hkind
  | again hr hbody hdata =>
    have hkind := (isChoice_of_body hr).symm.trans (hindex.resolve_left hdata)
    rw [hbody] at hkind
    cases hkind

private theorem records_of_again (hclosed : m.rules.Closed) {made : Nat}
    (hkey : m.isRepetition key = true)
    (hknown : m.KnowsAll (todo.push (.enter (m.use key (made + 1)))))
    (h : (ds, c) ∈ m.moves items ⟨todo.push (.enter (m.use key (made + 1))), depth, trace⟩) :
    m.Records trace c := by
  rcases hknown.pop with ⟨hleft, hrule⟩
  cases entered_of_mem_moves h with
  | again hr hbody =>
    have hchild := hclosed hr (by rw [Rule.children, hbody]; exact List.mem_singleton_self _)
    exact ⟨(hleft.push (.leave (m.use key (made + 1)) true) hrule).planned hchild, .inl rfl⟩
  | begin _ _ hdata => cases hdata
  | token hr hbody | concatenation hr hbody | take hr hbody | skip hr hbody =>
    have hkind := (isRepetition_of_body hr).symm.trans hkey
    rw [hbody] at hkind
    cases hkind

end

/-- What a move makes of orderly steps to do. -/
theorem records_of_mem_moves (hclosed : m.rules.Closed) {c c' : Config} {ds : List Bool}
    (horderly : m.Orderly c.todo) (hknown : m.KnowsAll c.todo) (h : (ds, c') ∈ m.moves items c) :
    m.Records c.trace c' := by
  rcases c with ⟨todo, depth, trace⟩
  dsimp only at horderly hknown
  cases horderly with
  | empty => cases h
  | leave hcall htodo => exact records_of_leave hcall hknown h
  | decision hkey htodo => exact records_of_decision hkey htodo hknown h
  | enter _ hindex htodo => exact records_of_enter hclosed hindex htodo hknown.pop.1 h
  | again hkey htodo => exact records_of_again hclosed hkey hknown h

/-! ## Going back -/

/-- Going back only drops events, and does not forget the token to be named as unexpected. -/
theorem retreatThrough_state (s : State) (es : List Event) :
    (State.retreatThrough m s es).state.furthest = s.furthest ∧
      (State.retreatThrough m s es).state.trace <:+ es := by
  induction es generalizing s with
  | nil => exact ⟨rfl, List.suffix_rfl⟩
  | cons e es ih =>
    have hcons := List.suffix_cons e es
    cases e with
    | enter call depth left =>
      unfold State.retreatThrough
      split
      · exact ⟨rfl, hcons⟩
      · exact ⟨(ih s).1, (ih s).2.trans hcons⟩
    | leave call depth left =>
      unfold State.retreatThrough
      split
      · exact ⟨rfl, hcons⟩
      · exact ⟨(ih s).1, (ih s).2.trans hcons⟩
    | token t =>
      have hback := ih { s with window := s.window.previous }
      unfold State.retreatThrough
      dsimp only
      split
      · exact ⟨hback.1, hback.2.trans hcons⟩
      · exact ⟨rfl, hcons⟩

/-- What going back through recorded events comes to: a decision is taken up again; or the window
has dropped one of the tokens; or there is no decision. -/
inductive Retreated (m : Machine) (items : List (Except LexError Token)) (capacity : Nat)
    (s : State) (es : List Event) : Prop
  | resumed {s' : State} (h : State.retreatThrough m s es = .resumed s')
      (hgood : m.Good items capacity s') (hknown : m.KnowsAll s'.todo)
  | lost {s' : State} (h : State.retreatThrough m s es = .exhausted s')
      (hmatched : 0 < matchedCount es)
  | spent {s' : State} (h : State.retreatThrough m s es = .exhausted s')
      (hplaced : Placed items capacity s')

/-- An event that is no decision is passed over. -/
private theorem Retreated.cons {s₁ : State} {e : Event} {es : List Event}
    (h : m.Retreated items capacity s₁ es)
    (hsame : State.retreatThrough m s (e :: es) = State.retreatThrough m s₁ es) :
    m.Retreated items capacity s (e :: es) := by
  cases h with
  | resumed h hgood hknown => exact .resumed (hsame.trans h) hgood hknown
  | lost h hmatched =>
    exact .lost (hsame.trans h)
      (Nat.lt_of_lt_of_le hmatched (List.sublist_cons_self e es).countP_le)
  | spent h hplaced => exact .spent (hsame.trans h) hplaced

/-- At a decision, what there was to do then is taken up. -/
private theorem Retreated.taken {s₁ : State} {call : Call} {depth : Int} {left : Todo}
    {es : List Event}
    (h : State.retreatThrough m s es = .resumed (State.resume s₁ call depth left))
    (hkey : m.Knows call.rule) (hleft : m.KnowsAll left)
    (horderly : m.Orderly (left.push (.enter { call with data := call.data + 1 })))
    (hplaced : Placed items capacity s₁) : m.Retreated items capacity s es := by
  have hknown : m.KnowsAll (left.push (.enter { call with data := call.data + 1 })) :=
    hleft.push _ hkey
  exact .resumed h ⟨horderly, hplaced.of_eq rfl rfl⟩ hknown

theorem retreated_of_recorded {es : List Event} (hplaced : Placed items capacity { s with trace := es })
    (hrecorded : ∀ e ∈ es, m.Recorded e) : m.Retreated items capacity s es := by
  induction es generalizing s with
  | nil => exact .spent rfl hplaced
  | cons e es ih =>
    have he := hrecorded e List.mem_cons_self
    have hes := fun e he => hrecorded e (List.mem_cons_of_mem _ he)
    cases e with
    | enter call depth left =>
      have hrest : Placed items capacity { s with trace := es } := hplaced.of_eq rfl (by simp)
      rcases he with ⟨hkey, hleft, hdecision⟩
      by_cases hchoice : m.isChoice call.rule = true
      · exact .taken (by rw [State.retreatThrough, if_pos hchoice]) hkey hleft (hdecision hchoice)
          hrest
      · exact (ih hrest hes).cons (by rw [State.retreatThrough, if_neg hchoice])
    | leave call depth left =>
      have hrest : Placed items capacity { s with trace := es } := hplaced.of_eq rfl (by simp)
      rcases he with ⟨hkey, hleft, hdecision⟩
      by_cases hrepetition : m.isRepetition call.rule = true
      · exact .taken (by rw [State.retreatThrough, if_pos hrepetition]) hkey hleft
          (hdecision hrepetition) hrest
      · exact (ih hrest hes).cons (by rw [State.retreatThrough, if_neg hrepetition])
    | token t =>
      rcases hplaced.previous rfl with ⟨hvalid, hback⟩ | ⟨hinvalid, -⟩
      · exact (ih hback hes).cons (by rw [State.retreatThrough]; exact if_pos hvalid)
      · have hlost : State.retreatThrough m s (.token t :: es) =
            .exhausted { s with window := s.window.previous, trace := es } := by
          rw [State.retreatThrough]
          exact if_neg (by simpa using hinvalid)
        refine .lost hlost ?_
        rw [matchedCount_token]
        exact Nat.succ_pos _

/-! ## The token to be named -/

theorem Noted.of_le (h : Noted s) (hsame : s'.furthest = s.furthest)
    (hle : matchedCount s'.trace ≤ matchedCount s.trace) : Noted s' := by
  intro hmatched
  rw [hsame]
  exact h (Nat.lt_of_lt_of_le hmatched hle)

theorem noted_of_noteProgress (h : s.noteProgress = .ok s') : Noted s' := by
  intro _
  unfold State.noteProgress at h
  split at h
  · cases h
  · split at h
    · cases h
      exact Option.some_ne_none _
    · rename_i t furthest hfurthest
      split at h
      · cases h
        exact Option.some_ne_none _
      · cases h
        rw [hfurthest]
        exact Option.some_ne_none _

/-- What becomes of a step from a state: nothing has changed, or there is a token to be named if one
was matched. -/
inductive Enters (s : State) : State.Entered → Prop
  | blocked : Enters s (.blocked s)
  | on {s' : State} (h : Noted s') : Enters s (.on s')

section

variable {e : State.Entered} {call : Call}

theorem enters_matchToken {kind : String} {unification : Option Nat} {kept : Bool}
    (h : State.matchToken m s key kind unification kept = .ok e) : Enters s e := by
  unfold State.matchToken at h
  split at h
  · cases h
  · split at h
    · cases h
      exact .blocked
    · split at h
      · cases h
        exact .blocked
      · dsimp only at h
        split at h
        · cases h
        · rename_i hnote
          cases h
          exact .on (noted_of_noteProgress hnote)

theorem enters_concatenation (hs : Noted s) {children : List RuleKey}
    (h : State.enterConcatenation m s call children = .ok e) : Enters s e := by
  unfold State.enterConcatenation at h
  dsimp only at h
  split at h
  · cases h
  · cases h
    exact .on (hs.of_le rfl (by simp))

theorem enters_choice (hs : Noted s) {children : List RuleKey}
    (h : State.enterChoice m s call children = .ok e) : Enters s e := by
  unfold State.enterChoice at h
  dsimp only at h
  split at h
  · cases h
    exact .blocked
  · split at h
    · cases h
    · cases h
      exact .on (hs.of_le rfl (by simp))

theorem enters_repetition (hs : Noted s) {bounds : Bounds} {child : RuleKey}
    (h : State.enterRepetition m s call bounds child = .ok e) : Enters s e := by
  unfold State.enterRepetition at h
  dsimp only at h
  split at h
  · split at h
    · cases h
    · cases h
      exact .on (hs.of_le rfl (by simp))
  · split at h
    · split at h
      · cases h
      · cases h
        exact .on (hs.of_le rfl (Nat.le_refl _))
    · cases h
      exact .blocked

theorem enters_of_enter (hs : Noted s) (h : State.enter m s call = .ok e) : Enters s e := by
  unfold State.enter at h
  split at h
  · cases h
  · dsimp only at h
    split at h
    · exact enters_matchToken h
    · exact enters_concatenation hs h
    · exact enters_choice hs h
    · exact enters_repetition hs h

end

theorem noted_of_backtrack (hs : Noted s) (h : m.backtrack s = .running s') : Noted s' := by
  have hstate := retreatThrough_state (m := m) s s.trace
  unfold backtrack State.retreat at h
  split at h
  · rename_i hretreat
    cases h
    rw [hretreat] at hstate
    exact hs.of_le hstate.1 hstate.2.sublist.countP_le
  · cases h

theorem noted_of_step (hs : Noted s) (h : m.step s = .running s') : Noted s' := by
  unfold step at h
  split at h
  · cases h
    exact hs.of_le rfl (by simp [State.leave])
  · rename_i call todo hpop
    have htodo : Noted { s with todo := todo } := hs
    split at h
    · cases h
    · rename_i henter
      cases h
      cases enters_of_enter htodo henter with
      | on hnoted => exact hnoted
    · rename_i henter
      cases enters_of_enter htodo henter with
      | blocked => exact noted_of_backtrack htodo h
  · split at h
    · cases h
    · split at h
      · cases h
      · exact noted_of_backtrack hs h

/-! ## Steps -/

theorem steady_initial {root : RuleKey} {s₀ : State}
    (h : m.initial items capacity root = .ok s₀) : m.Steady items (max capacity 1) s₀ := by
  have hroot : m.Knows root := by
    intro hunknown
    rcases plan_of_unknown hunknown .empty with ⟨f, hf⟩
    rw [initial, hf] at h
    cases h
  rw [initial, plan_of_get? hroot] at h
  cases h
  exact ⟨good_initial hroot, knowsAll_empty.planned hroot, fun e he => absurd he List.not_mem_nil,
    fun hmatched => absurd hmatched (Nat.lt_irrefl 0)⟩

private theorem steady_of_move (hclosed : m.rules.Closed) (hs : m.Steady items capacity s)
    {ds : List Bool} (hmove : (ds, s'.config) ∈ m.moves items s.config)
    (hgood : m.Good items capacity s') (hnoted : Noted s') : m.Steady items capacity s' := by
  have hrecords := records_of_mem_moves hclosed hs.good.orderly hs.known hmove
  refine ⟨hgood, hrecords.1, ?_, hnoted⟩
  intro e he
  rcases hrecords.2 with hsame | ⟨e', htrace, he'⟩
  · have hmem : e ∈ s.config.trace := hsame ▸ he
    exact hs.recorded e hmem
  · have hmem : e ∈ e' :: s.config.trace := htrace ▸ he
    rcases List.mem_cons.1 hmem with rfl | hold
    · exact he'
    · exact hs.recorded e hold

theorem steady_step (hclosed : m.rules.Closed) (hs : m.Steady items capacity s)
    (hstep : m.step s = .running s') : m.Steady items capacity s' := by
  have hnoted := noted_of_step hs.noted hstep
  cases stepped hs.good with
  | done hdone =>
    rw [hstep] at hdone
    cases hdone
  | broken hfailed =>
    rw [hstep] at hfailed
    cases hfailed
  | forced hrunning hmoves hgood =>
    rw [hstep] at hrunning
    cases hrunning
    have hmove : ([], s'.config) ∈ m.moves items s.config := by
      rw [hmoves]
      exact List.mem_singleton_self _
    exact steady_of_move hclosed hs hmove hgood hnoted
  | decided hrunning hmoves hsame hgood =>
    rw [hstep] at hrunning
    cases hrunning
    have hmove : ([false], s'.config) ∈ m.moves items s.config := by
      rw [hmoves]
      exact List.mem_cons_self
    exact steady_of_move hclosed hs hmove hgood hnoted
  | @stuck s₁ hback htrace hplaced =>
    rw [hstep] at hback
    have hstate := retreatThrough_state (m := m) s₁ s₁.trace
    have hrecorded : ∀ e ∈ s₁.trace, m.Recorded e := fun e he => hs.recorded e (htrace ▸ he)
    unfold backtrack State.retreat at hback
    cases retreated_of_recorded (m := m) (s := s₁) hplaced hrecorded with
    | resumed h hgood hknown =>
      rw [h] at hback hstate
      cases hback
      exact ⟨hgood, hknown, fun e he => hrecorded e (hstate.2.mem he), hnoted⟩
    | lost h =>
      rw [h] at hback
      cases hback
    | spent h =>
      rw [h] at hback
      cases hback

/-- What holds of every state that a search reaches. -/
theorem steady_of_reaches {root : RuleKey} {s₀ : State} (hclosed : m.rules.Closed)
    (hinitial : m.initial items capacity root = .ok s₀) (h : m.Reaches s₀ s) :
    m.Steady items (max capacity 1) s := by
  induction h with
  | refl => exact steady_initial hinitial
  | tail _ hstep ih => exact steady_step hclosed ih hstep

end Machine

end Descent
