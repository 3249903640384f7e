import Descent.Proofs.Search.Visited

/-!
# What holds of all that is left to do

Whatever the rules, references that do not resolve included, a search has on its list only what it came
to by moves.  So what the beginning has and every move keeps holds of all that is on the list: of where
the search is, and of everything that going back may lead to.

Main results:

- `Machine.Moved` says what a move can be, by what was to be done next.
- `Machine.ready_of_reaches`: what is on the list of a search is in order.
- `Machine.forall_agenda_of_reaches` is the induction over the steps of a search.
-/

namespace Descent

namespace Machine

variable {m : Machine} {items : List (Except LexError Token)} {capacity : Nat} {s s' s₀ : State}
  {c c' : Config} {root key : RuleKey} {r : Rule} {todo left : Todo} {depth : Int}
  {trace : List Event} {ds : List Bool}

/-! ## Moves by what is next -/

/-- A move from steps to do that are in order. -/
inductive Moved (m : Machine) (items : List (Except LexError Token)) : Config → Config → Prop
  | leave {todo : Todo} {depth : Int} {trace : List Event} {call : Call}
      (hcall : m.isRepetition call.rule = false) :
      Moved m items ⟨todo.push (.leave call false), depth, trace⟩
        ⟨todo, call.depthOutside depth, .leave call depth .empty :: trace⟩
  /-- A repetition ends after the passes that were made. -/
  | stop {todo : Todo} {depth : Int} {trace : List Event} {key : RuleKey} {made : Nat}
      (hkey : m.isRepetition key = true) :
      Moved m items ⟨todo.push (.leave (m.use key made) true), depth, trace⟩
        ⟨todo, (m.use key made).depthOutside depth, .leave (m.use key made) depth todo :: trace⟩
  /-- A repetition is to go on instead of ending. -/
  | goOn {todo : Todo} {depth : Int} {trace : List Event} {key : RuleKey} {made : Nat}
      (hkey : m.isRepetition key = true) :
      Moved m items ⟨todo.push (.leave (m.use key made) true), depth, trace⟩
        ⟨todo.push (.enter (m.use key (made + 1))), depth, trace⟩
  | again {todo : Todo} {depth : Int} {trace : List Event} {key child : RuleKey} {made : Nat}
      {r : Rule} {bounds : Bounds} (hr : m.rules.get? key = some r)
      (hbody : r.body = .repetition bounds child) (hadmits : bounds.admits (made + 1) = true) :
      Moved m items ⟨todo.push (.enter (m.use key (made + 1))), depth, trace⟩
        ⟨m.planned (todo.push (.leave (m.use key (made + 1)) true)) child, depth, trace⟩
  | token {todo : Todo} {depth : Int} {trace : List Event} {key : RuleKey} {index : Nat} {r : Rule}
      {kind : String} {unification : Option Nat} {kept : Bool} {t : Token}
      (hr : m.rules.get? key = some r) (hbody : r.body = .token kind unification kept)
      (hitem : items[matchedCount trace]? = some (.ok t))
      (haccepts : accepts kind unification depth trace t = true) :
      Moved m items
        ⟨(todo.push (.leave (m.use key 0) false)).push (.enter (m.use key index)), depth, trace⟩
        ⟨todo, depth, .token (m.matched key t) :: trace⟩
  | concatenation {todo : Todo} {depth : Int} {trace : List Event} {key : RuleKey} {index : Nat}
      {r : Rule} {children : List RuleKey} (hr : m.rules.get? key = some r)
      (hbody : r.body = .concatenation children) :
      Moved m items
        ⟨(todo.push (.leave (m.use key 0) false)).push (.enter (m.use key index)), depth, trace⟩
        ⟨m.plannedAll (todo.push (.leave (m.use key 0) false)) children, m.depthInside key depth,
          .enter (m.use key 0) (m.depthInside key depth) .empty :: trace⟩
  /-- An alternative of a choice is begun. -/
  | take {todo : Todo} {depth : Int} {trace : List Event} {key child : RuleKey} {index : Nat}
      {r : Rule} {children : List RuleKey} (hr : m.rules.get? key = some r)
      (hbody : r.body = .choice children) (hchild : children[index]? = some child) :
      Moved m items
        ⟨(todo.push (.leave (m.use key 0) false)).push (.enter (m.use key index)), depth, trace⟩
        ⟨m.planned (todo.push (.leave (m.use key 0) false)) child, m.depthInside key depth,
          .enter (m.use key index) (m.depthInside key depth)
            (todo.push (.leave (m.use key 0) false)) :: trace⟩
  /-- An alternative of a choice is passed over. -/
  | skip {todo : Todo} {depth : Int} {trace : List Event} {key : RuleKey} {index : Nat} {r : Rule}
      {children : List RuleKey} (hr : m.rules.get? key = some r)
      (hbody : r.body = .choice children) :
      Moved m items
        ⟨(todo.push (.leave (m.use key 0) false)).push (.enter (m.use key index)), depth, trace⟩
        ⟨(todo.push (.leave (m.use key 0) false)).push (.enter (m.use key (index + 1))), depth,
          trace⟩
  | repetition {todo : Todo} {depth : Int} {trace : List Event} {key child : RuleKey} {r : Rule}
      {bounds : Bounds} (hr : m.rules.get? key = some r)
      (hbody : r.body = .repetition bounds child) :
      Moved m items
        ⟨(todo.push (.leave (m.use key 0) false)).push (.enter (m.use key 0)), depth, trace⟩
        ⟨m.passesLeft key child todo 0, m.depthInside key depth,
          .enter (m.use key bounds.min) (m.depthInside key depth) .empty :: trace⟩

private theorem moved_of_enter {index : Nat} (hindex : index = 0 ∨ m.isChoice key = true)
    (h : (ds, c') ∈ m.moves items
      ⟨(todo.push (.leave (m.use key 0) false)).push (.enter (m.use key index)), depth, trace⟩) :
    m.Moved items
      ⟨(todo.push (.leave (m.use key 0) false)).push (.enter (m.use key index)), depth, trace⟩ c' := by
  cases entered_of_mem_moves h with
  | token hr hbody hitem haccepts => exact .token hr hbody hitem haccepts
  | concatenation hr hbody => exact .concatenation hr hbody
  | take hr hbody hchild => exact .take hr hbody hchild
  | skip hr hbody => exact .skip hr hbody
  | begin hr hbody hdata =>
    obtain rfl : index = 0 := hdata
    exact .repetition hr hbody
  | again hr hbody hdata =>
    -- Only a choice is entered with a number.
    have hkind := (isChoice_of_body hr).symm.trans (hindex.resolve_left hdata)
    rw [hbody] at hkind
    cases hkind

private theorem moved_of_again {made : Nat} (hkey : m.isRepetition key = true)
    (h : (ds, c') ∈ m.moves items ⟨todo.push (.enter (m.use key (made + 1))), depth, trace⟩) :
    m.Moved items ⟨todo.push (.enter (m.use key (made + 1))), depth, trace⟩ c' := by
  cases entered_of_mem_moves h with
  | again hr hbody _ hadmits => exact .again hr hbody hadmits
  | begin _ _ hdata => cases hdata
  | token hr hbody | concatenation hr hbody | take hr hbody | skip hr hbody =>
    have hkind := (isRepetition_of_body hr).symm.trans hkey
    rw [hbody] at hkind
    cases hkind

/-- What a move can be. -/
theorem moved_of_mem_moves (horderly : m.Orderly c.todo) (h : (ds, c') ∈ m.moves items c) :
    m.Moved items c c' := by
  rcases c with ⟨todo, depth, trace⟩
  dsimp only at horderly
  cases horderly with
  | empty => cases h
  | leave hcall htodo =>
    rw [moves_leave, List.mem_singleton] at h
    cases h
    exact .leave hcall
  | decision hkey htodo =>
    rw [moves_decision, List.mem_cons, List.mem_singleton] at h
    rcases h with hstop | hgoOn
    · cases hstop
      exact .stop hkey
    · cases hgoOn
      exact .goOn hkey
  | enter _ hindex => exact moved_of_enter hindex h
  | again hkey => exact moved_of_again hkey h

/-! ## Searches that are ready to go back -/

/-- Where a search is, its window and its steps to do are as they should be, and so are the steps of all
that it has left for later. -/
structure Ready (m : Machine) (items : List (Except LexError Token)) (capacity : Nat) (s : State) :
    Prop where
  good : m.Good items capacity s
  orderly : ∀ c ∈ m.alternatives s.trace, m.Orderly c.todo

/-- Where going back takes up a decision, the window stands on the item after the tokens matched by
then. -/
theorem placed_of_resumed {es : List Event} (hplaced : Placed items capacity { s with trace := es })
    (h : State.retreatThrough m s es = .resumed s') : Placed items capacity s' := by
  induction es generalizing s with
  | nil => cases h
  | cons e es ih =>
    cases e with
    | enter call depth left =>
      have hrest : Placed items capacity { s with trace := es } := hplaced.of_eq rfl (by simp)
      unfold State.retreatThrough at h
      split at h
      · cases h
        exact hrest.of_eq rfl rfl
      · exact ih hrest h
    | leave call depth left =>
      have hrest : Placed items capacity { s with trace := es } := hplaced.of_eq rfl (by simp)
      unfold State.retreatThrough at h
      split at h
      · cases h
        exact hrest.of_eq rfl rfl
      · exact ih hrest h
    | token t =>
      unfold State.retreatThrough at h
      dsimp only at h
      split at h
      · rename_i hvalid
        rcases hplaced.previous rfl with ⟨-, hback⟩ | ⟨hinvalid, -⟩
        · exact ih hback h
        · exact absurd (hvalid.symm.trans hinvalid) (by simp)
      · cases h

theorem resumed_of_backtrack (h : m.backtrack s = .running s') :
    State.retreatThrough m s s.trace = .resumed s' := by
  unfold backtrack State.retreat at h
  split at h
  · rename_i hretreat
    cases h
    exact hretreat
  · cases h

theorem ready_step (hs : m.Ready items capacity s) (hstep : m.step s = .running s') :
    m.Ready items capacity s' := by
  have hagenda := agenda_of_step hs.good hstep
  cases stepped hs.good with
  | done hdone =>
    rw [hstep] at hdone
    cases hdone
  | broken hfailed =>
    rw [hstep] at hfailed
    cases hfailed
  | forced hrunning hmoves hgood =>
    rw [hstep] at hrunning
    cases hrunning
    rw [hmoves] at hagenda
    have hlater : m.alternatives s'.trace = m.alternatives s.trace := (List.cons.inj hagenda).2
    refine ⟨hgood, ?_⟩
    rw [hlater]
    exact hs.orderly
  | decided hrunning hmoves hsame hgood hresume =>
    rw [hstep] at hrunning
    cases hrunning
    -- The second possibility is what going back at once would lead to.
    rcases hresume s' hgood.placed rfl with ⟨s₂, hgood₂, rfl, -⟩
    rw [hmoves] at hagenda
    have hlater : m.alternatives s'.trace = s₂.config :: m.alternatives s.trace :=
      (List.cons.inj hagenda).2
    refine ⟨hgood, ?_⟩
    rw [hlater]
    exact List.forall_mem_cons.2 ⟨hgood₂.orderly, hs.orderly⟩
  | @stuck s₁ hback htrace hplaced hmoves =>
    rw [hstep] at hback
    have hplaced' := placed_of_resumed hplaced (resumed_of_backtrack hback.symm)
    rw [hmoves] at hagenda
    have hlater : m.alternatives s.trace = s'.config :: m.alternatives s'.trace := hagenda.symm
    have horderly := hs.orderly
    rw [hlater] at horderly
    rcases List.forall_mem_cons.1 horderly with ⟨hhere, hrest⟩
    exact ⟨⟨hhere, hplaced'⟩, hrest⟩

/-- What is on the list of a search is in order. -/
theorem ready_of_reaches (hinitial : m.initial items capacity root = .ok s₀)
    (h : m.Reaches s₀ s) : m.Ready items (max capacity 1) s := by
  induction h with
  | refl =>
    have htrace : s₀.trace = [] := congrArg Config.trace (config_of_initial hinitial)
    refine ⟨(steady_initial hinitial).good, ?_⟩
    rw [htrace]
    exact fun c hc => absurd hc List.not_mem_nil
  | tail _ hstep ih => exact ready_step ih hstep

/-- What the beginning of a search has and every move keeps holds of all that is on the list. -/
theorem forall_agenda_of_reaches {P : Config → Prop}
    (hinitial : m.initial items capacity root = .ok s₀) (hstart : P (m.outset root))
    (hmove : ∀ {c c' : Config} {ds : List Bool}, m.Orderly c.todo → (ds, c') ∈ m.moves items c →
      P c → P c') (h : m.Reaches s₀ s) :
    ∀ c ∈ m.agenda s, P c := by
  induction h with
  | refl =>
    have hconfig := config_of_initial hinitial
    have htrace : s₀.trace = [] := congrArg Config.trace hconfig
    intro c hc
    rw [agenda, htrace, hconfig, alternatives, List.mem_singleton] at hc
    rw [hc]
    exact hstart
  | tail hreach hstep ih =>
    have hready := ready_of_reaches hinitial hreach
    intro c hc
    rw [agenda_of_step hready.good hstep, List.mem_append] at hc
    rcases hc with hmoved | hlater
    · rcases List.mem_map.1 hmoved with ⟨⟨ds, c'⟩, hmem, rfl⟩
      exact hmove hready.good.orderly hmem (ih _ List.mem_cons_self)
    · exact ih c (List.mem_cons_of_mem _ hlater)

end Machine

end Descent
