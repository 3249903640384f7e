import Descent.Proofs.Collection.Window
import Descent.Proofs.Search.Move

/-!
# Steps of a search

A search makes the first of the moves that its configuration allows.  What it leaves behind in the
trace is enough to come back: going back undoes the moves that decide nothing, and takes up the
second possibility of the last move that decides something.

Main results:

- `Machine.Orderly` and `Placed` say what holds of the steps to do and of the window at any time.
- `Machine.stepped`: a step makes the first move, ends the search, or goes back, and what it leaves
  behind can be undone.
-/

namespace Descent

/-- What a state has to do, where it is, and what it has done. -/
def State.config (s : State) : Config :=
  ⟨s.todo, s.depth, s.trace⟩

/-- The token that a failure names as unexpected. -/
def Failure.token? : Failure → Option Token
  | .unexpected t => some t
  | .lex _ | .internal _ => none

/-- A state without a token on its window names none. -/
theorem State.token?_of_token {s : State} {f : Failure} (h : s.token = .error f) :
    f.token? = none := by
  unfold State.token at h
  split at h
  · cases h
  · cases h
    rfl
  · cases h
    rfl

/-- The window stands on the item after the tokens matched. -/
structure Placed (items : List (Except LexError Token)) (capacity : Nat) (s : State) : Prop where
  room : s.window.capacity = capacity
  covers : ∃ pulled, s.window.Covers items pulled (matchedCount s.trace + 1)
  place_pos : 0 < s.window.place
  matched_lt : items ≠ [] → matchedCount s.trace < items.length

namespace Placed

variable {items : List (Except LexError Token)} {capacity : Nat} {s : State}

theorem current (h : Placed items capacity s) :
    s.window.current = items[matchedCount s.trace]? := by
  rcases h.covers with ⟨pulled, hcovers⟩
  exact hcovers.current h.place_pos

/-- The place of the cursor in the text is the number of tokens matched. -/
theorem index_eq (h : Placed items capacity s) :
    s.window.index items.length = matchedCount s.trace := by
  rcases h.covers with ⟨pulled, hcovers⟩
  rw [hcovers.index_eq]
  omega

/-- The window of a state decides whether it is placed, with the number of tokens matched. -/
theorem of_eq {s' : State} (h : Placed items capacity s) (hwindow : s'.window = s.window)
    (hcount : matchedCount s'.trace = matchedCount s.trace) : Placed items capacity s' := by
  constructor
  · rw [hwindow, h.room]
  · rw [hwindow, hcount]
    exact h.covers
  · rw [hwindow]
    exact h.place_pos
  · rw [hcount]
    exact h.matched_lt

theorem token_of_ok {t : Token} (h : Placed items capacity s)
    (hitem : items[matchedCount s.trace]? = some (.ok t)) : s.token = .ok t := by
  unfold State.token
  rw [h.current, hitem]

theorem token_eq_ok_iff {t : Token} (h : Placed items capacity s) :
    s.token = .ok t ↔ items[matchedCount s.trace]? = some (.ok t) := by
  refine ⟨?_, h.token_of_ok⟩
  intro htoken
  unfold State.token at htoken
  rw [h.current] at htoken
  split at htoken
  · rename_i t' ht'
    cases htoken
    exact ht'
  · cases htoken
  · cases htoken

theorem covers_advance {t : Token} (h : Placed items capacity s)
    (hitem : items[matchedCount s.trace]? = some (.ok t)) :
    ∃ pulled, s.window.advance.Covers items pulled (matchedCount s.trace + 1 + 1) := by
  rcases h.covers with ⟨pulled, hcovers⟩
  apply hcovers.advance
  have hlt := (List.getElem?_eq_some_iff.1 hitem).1
  have hreached := hcovers.reached_le
  have hend := hcovers.exhausted
  omega

/-- Giving a token back leads to the state before it was matched, unless the window has dropped the
token. -/
theorem previous {t : MatchedToken} {rest : List Event}
    (h : Placed items capacity s) (htrace : s.trace = .token t :: rest) :
    (s.window.previous.isValid = true ∧
        Placed items capacity { s with window := s.window.previous, trace := rest }) ∨
      s.window.previous.isValid = false ∧ capacity < items.length := by
  rcases h.covers with ⟨pulled, hcovers⟩
  rw [htrace, matchedCount_token] at hcovers
  have hback := hcovers.previous h.place_pos
  have hlength : matchedCount rest + 1 ≤ items.length := by
    have hreached := hcovers.reached_le
    have hpulled := hcovers.pulled_le
    omega
  rcases Nat.eq_zero_or_pos s.window.previous.place with hzero | hpos
  · refine .inr ⟨Window.Covers.isValid_of_place hzero, ?_⟩
    apply Nat.lt_of_not_le
    intro hroom
    have hplace := hback.place_of_roomy (by rw [Window.capacity_previous, h.room]; exact hroom)
    omega
  · refine .inl ⟨hback.isValid hpos hlength, ?_, ⟨pulled, hback⟩, hpos, fun _ => hlength⟩
    show s.window.previous.capacity = capacity
    rw [Window.capacity_previous, h.room]

end Placed

namespace Machine

/-- The circumstances in which nothing stops a search but that its possibilities fail: all
references resolve, the text is without errors, only its last token is an ending and no rule asks
for one, and the window never drops an item. -/
structure Favourable (m : Machine) (items : List (Except LexError Token)) (capacity : Nat) :
    Prop where
  closed : ∀ {key : RuleKey} {r : Rule} {child : RuleKey}, m.rules.get? key = some r →
    child ∈ r.children → m.rules.get? child ≠ none
  text : ∃ (ts : List Token) (last : Token), items = ts.map Except.ok ++ [.ok last] ∧
    (∀ t ∈ ts, t.isEnding = false) ∧ last.isEnding = true
  unasked : ∀ {key : RuleKey} {r : Rule} {kind : String} {unification : Option Nat} {kept : Bool},
    m.rules.get? key = some r → r.body = .token kind unification kept → kind ≠ endingKind
  roomy : items.length ≤ capacity

namespace Favourable

variable {m : Machine} {items : List (Except LexError Token)} {capacity : Nat}

theorem items_ne_nil (h : m.Favourable items capacity) : items ≠ [] := by
  rcases h.text with ⟨ts, last, hitems, -⟩
  simp [hitems]

/-- Every item is a token. -/
theorem exists_token (h : m.Favourable items capacity) {n : Nat} (hn : n < items.length) :
    ∃ t, items[n]? = some (.ok t) := by
  rcases h.text with ⟨ts, last, hitems, -⟩
  have hall : ∀ x ∈ items, ∃ t, x = .ok t := by
    intro x hx
    rw [hitems, List.mem_append, List.mem_map, List.mem_singleton] at hx
    rcases hx with ⟨t, -, rfl⟩ | rfl
    · exact ⟨t, rfl⟩
    · exact ⟨last, rfl⟩
  rcases hall items[n] (List.getElem_mem hn) with ⟨t, ht⟩
  exact ⟨t, by rw [List.getElem?_eq_getElem hn, ht]⟩

/-- An item that is no ending is not the last one. -/
theorem succ_lt (h : m.Favourable items capacity) {n : Nat} {t : Token}
    (hitem : items[n]? = some (.ok t)) (ht : t.isEnding = false) : n + 1 < items.length := by
  rcases h.text with ⟨ts, last, hitems, -, hlast⟩
  have hlt := (List.getElem?_eq_some_iff.1 hitem).1
  rw [hitems, List.length_append, List.length_map, List.length_singleton] at hlt ⊢
  by_cases hn : n = ts.length
  · rw [hitems, hn, List.getElem?_append_right (by simp)] at hitem
    simp at hitem
    rw [hitem, ht] at hlast
    cases hlast
  · omega

end Favourable

/-! ## Plans -/

variable {m : Machine} {todo : Todo}

private theorem call_of_get? {key : RuleKey} (h : m.rules.get? key ≠ none) (data : Nat) :
    m.call key data = .ok (m.use key data) := by
  rcases Option.ne_none_iff_exists'.1 h with ⟨r, hr⟩
  simp [call, use, isTransitional, hr]

theorem plan_of_get? {key : RuleKey} (h : m.rules.get? key ≠ none) (todo : Todo) :
    State.plan m todo key = .ok (m.planned todo key) := by
  unfold State.plan
  rw [call_of_get? h]
  rfl

theorem plan_of_unknown {key : RuleKey} (h : m.rules.get? key = none) (todo : Todo) :
    ∃ f, State.plan m todo key = .error f := by
  simp [State.plan, call, h]

/-- Planning several rules succeeds if there are such rules. -/
theorem planAll_eq (todo : Todo) (keys : List RuleKey) :
    (State.planAll m todo keys = .ok (m.plannedAll todo keys.reverse) ∧
        ∀ key ∈ keys, m.rules.get? key ≠ none) ∨
      (∃ f, State.planAll m todo keys = .error f) ∧ ∃ key ∈ keys, m.rules.get? key = none := by
  induction keys generalizing todo with
  | nil => exact .inl ⟨rfl, fun _ hk => absurd hk List.not_mem_nil⟩
  | cons key keys ih =>
    by_cases hkey : m.rules.get? key = none
    · rcases plan_of_unknown (m := m) hkey todo with ⟨f, hf⟩
      exact .inr ⟨⟨f, by simp [State.planAll, hf]⟩, key, List.mem_cons_self, hkey⟩
    · have hplan := plan_of_get? (m := m) hkey todo
      rcases ih (m.planned todo key) with ⟨hrest, hkeys⟩ | ⟨⟨f, hf⟩, key', hmem, hkey'⟩
      · refine .inl ⟨?_, ?_⟩
        · simp only [State.planAll, hplan, hrest, plannedAll, List.reverse_cons,
            List.foldr_append, List.foldr_cons, List.foldr_nil]
        · intro k hk
          rcases List.mem_cons.1 hk with rfl | hk
          · exact hkey
          · exact hkeys k hk
      · exact .inr ⟨⟨f, by simp [State.planAll, hplan, hf]⟩, key',
          List.mem_cons_of_mem _ hmem, hkey'⟩

theorem internal_of_plan {key : RuleKey} {f : Failure} (h : State.plan m todo key = .error f) :
    ∃ detail, f = .internal detail := by
  unfold State.plan call at h
  split at h
  · rename_i hcall
    split at hcall
    · cases hcall
    · cases hcall
      cases h
      exact ⟨_, rfl⟩
  · cases h

theorem internal_of_planAll {keys : List RuleKey} {f : Failure}
    (h : State.planAll m todo keys = .error f) : ∃ detail, f = .internal detail := by
  induction keys generalizing todo with
  | nil => cases h
  | cons key keys ih =>
    unfold State.planAll at h
    split at h
    · rename_i hplan
      cases h
      exact internal_of_plan hplan
    · exact ih h

private theorem token?_of_plan {key : RuleKey} {f : Failure}
    (h : State.plan m todo key = .error f) : f.token? = none := by
  rcases internal_of_plan h with ⟨detail, rfl⟩
  rfl

private theorem token?_of_planAll {keys : List RuleKey} {f : Failure}
    (h : State.planAll m todo keys = .error f) : f.token? = none := by
  rcases internal_of_planAll h with ⟨detail, rfl⟩
  rfl

/-- Planning a number of uses is planning as many rules. -/
theorem planTimes_eq_planAll (key : RuleKey) (n : Nat) :
    State.planTimes m todo key n = State.planAll m todo (List.replicate n key) := by
  induction n generalizing todo with
  | zero => rfl
  | succ n ih =>
    rw [State.planTimes, List.replicate_succ, State.planAll]
    cases State.plan m todo key with
    | error f => rfl
    | ok todo => exact ih

/-! ## What there is to do -/

/-- Steps to do as a search leaves them: whole uses of rules, their ends, and at the top perhaps a
decision that is taken up again. -/
inductive Orderly (m : Machine) : Todo → Prop
  | empty : Orderly m .empty
  | leave {todo : Todo} {call : Call} (hcall : m.isRepetition call.rule = false)
      (h : Orderly m todo) : Orderly m (todo.push (.leave call false))
  | decision {todo : Todo} {key : RuleKey} {made : Nat} (hkey : m.isRepetition key = true)
      (h : Orderly m todo) : Orderly m (todo.push (.leave (m.use key made) true))
  | enter {todo : Todo} {key : RuleKey} {index : Nat} (hknown : m.rules.get? key ≠ none)
      (hindex : index = 0 ∨ m.isChoice key = true) (h : Orderly m todo) :
      Orderly m ((todo.push (.leave (m.use key 0) false)).push (.enter (m.use key index)))
  | again {todo : Todo} {key : RuleKey} {made : Nat} (hkey : m.isRepetition key = true)
      (h : Orderly m todo) : Orderly m (todo.push (.enter (m.use key (made + 1))))

theorem Orderly.planned {key : RuleKey} (h : m.Orderly todo) (hkey : m.rules.get? key ≠ none) :
    m.Orderly (m.planned todo key) :=
  .enter hkey (.inl rfl) h

theorem Orderly.plannedAll {keys : List RuleKey} (h : m.Orderly todo)
    (hkeys : ∀ key ∈ keys, m.rules.get? key ≠ none) : m.Orderly (m.plannedAll todo keys) := by
  induction keys with
  | nil => exact h
  | cons key keys ih =>
    rw [plannedAll_cons]
    exact (ih fun k hk => hkeys k (List.mem_cons_of_mem _ hk)).planned
      (hkeys key List.mem_cons_self)

/-! ## Going back -/

/-- Going back does not look at the trace of the state but at the events it is given. -/
private theorem retreatThrough_trace (es trace : List Event) (s : State) :
    State.retreatThrough m { s with trace := trace } es = State.retreatThrough m s es := by
  induction es generalizing s with
  | nil => rfl
  | cons e es ih =>
    cases e with
    | enter call depth left =>
      simp only [State.retreatThrough, State.resume]
      rw [ih]
    | leave call depth left =>
      simp only [State.retreatThrough, State.resume]
      rw [ih]
    | token t =>
      simp only [State.retreatThrough]
      have h := ih { s with window := s.window.previous }
      rw [← h]

section

variable {s : State} {call : Call} {depth : Int} {left : Todo} {rest : List Event}

theorem backtrack_enter (htrace : s.trace = .enter call depth left :: rest)
    (hcall : m.isChoice call.rule = false) :
    m.backtrack s = m.backtrack { s with trace := rest } := by
  have h := retreatThrough_trace (m := m) rest rest s
  unfold backtrack State.retreat
  rw [htrace, State.retreatThrough, hcall, h]
  rfl

theorem backtrack_choice (htrace : s.trace = .enter call depth left :: rest)
    (hcall : m.isChoice call.rule = true) :
    m.backtrack s = .running (State.resume { s with trace := rest } call
      (call.depthOutside depth) left) := by
  unfold backtrack State.retreat
  rw [htrace, State.retreatThrough, hcall]
  rfl

theorem backtrack_leave (htrace : s.trace = .leave call depth left :: rest)
    (hcall : m.isRepetition call.rule = false) :
    m.backtrack s = m.backtrack { s with trace := rest } := by
  have h := retreatThrough_trace (m := m) rest rest s
  unfold backtrack State.retreat
  rw [htrace, State.retreatThrough, hcall, h]
  rfl

theorem backtrack_repetition (htrace : s.trace = .leave call depth left :: rest)
    (hcall : m.isRepetition call.rule = true) :
    m.backtrack s = .running (State.resume { s with trace := rest } call depth left) := by
  unfold backtrack State.retreat
  rw [htrace, State.retreatThrough, hcall]
  rfl

theorem backtrack_token {t : MatchedToken} (htrace : s.trace = .token t :: rest)
    (hvalid : s.window.previous.isValid = true) :
    m.backtrack s = m.backtrack { s with window := s.window.previous, trace := rest } := by
  have h := retreatThrough_trace (m := m) rest rest { s with window := s.window.previous }
  unfold backtrack State.retreat
  rw [htrace, State.retreatThrough, hvalid, h]
  rfl

theorem backtrack_exhausted {t : MatchedToken} (htrace : s.trace = .token t :: rest)
    (hvalid : s.window.previous.isValid = false) : ∃ f, m.backtrack s = .failed f := by
  unfold backtrack State.retreat
  rw [htrace, State.retreatThrough, hvalid]
  exact ⟨_, rfl⟩

end

variable {items : List (Except LexError Token)} {capacity : Nat}

/-- Going back from one state is going back from another with the events of `s`, or fails for lack
of room in the window. -/
def Undone (m : Machine) (items : List (Except LexError Token)) (capacity : Nat)
    (s s₁ : State) : Prop :=
  (∃ s₂, Placed items capacity s₂ ∧ s₂.trace = s.trace ∧ m.backtrack s₁ = m.backtrack s₂) ∨
    (∃ f, m.backtrack s₁ = .failed f) ∧ ¬m.Favourable items capacity

/-- What holds of a state at any time. -/
structure Good (m : Machine) (items : List (Except LexError Token)) (capacity : Nat)
    (s : State) : Prop where
  orderly : m.Orderly s.todo
  placed : Placed items capacity s

/-- Nothing is left to do and the text is at its ending. -/
def Accepts (items : List (Except LexError Token)) (c : Config) : Prop :=
  c.todo = .empty ∧ ∃ t, items[matchedCount c.trace]? = some (.ok t) ∧ t.isEnding = true

/-- What a step does, and how it can be undone. -/
inductive Stepped (m : Machine) (items : List (Except LexError Token)) (capacity : Nat)
    (s : State) : Prop
  | done (hstep : m.step s = .done s) (haccepts : Accepts items s.config)
  | stuck {s₁ : State} (hstep : m.step s = m.backtrack s₁) (htrace : s₁.trace = s.trace)
      (hplaced : Placed items capacity s₁) (hmoves : m.moves items s.config = [])
      (hnot : ¬Accepts items s.config) (hwindow : s₁.window = s.window)
  | forced {s' : State} (hstep : m.step s = .running s')
      (hmoves : m.moves items s.config = [([], s'.config)]) (hgood : m.Good items capacity s')
      (hundo : ∀ s₁, Placed items capacity s₁ → s₁.trace = s'.trace →
        m.Undone items capacity s s₁)
  | decided {s' : State} {c : Config} (hstep : m.step s = .running s')
      (hmoves : m.moves items s.config = [([false], s'.config), ([true], c)])
      (hsame : c.trace = s.trace) (hgood : m.Good items capacity s')
      (hresume : ∀ s₁, Placed items capacity s₁ → s₁.trace = s'.trace →
        ∃ s₂, m.Good items capacity s₂ ∧ s₂.config = c ∧ m.backtrack s₁ = .running s₂)
  | broken {f : Failure} (hstep : m.step s = .failed f) (hnot : ¬m.Favourable items capacity)
      (hnone : f.token? = none)

/-! ## One step -/

section

variable {s : State} {todo : Todo} {key : RuleKey} {r : Rule}

private theorem config_eq {step : Step} (hs : s.todo = todo.push step) :
    s.config = ⟨todo.push step, s.depth, s.trace⟩ := by
  rw [State.config, hs]

private theorem not_accepts {step : Step} (hs : s.todo = todo.push step) :
    ¬Accepts items s.config := by
  rintro ⟨htodo, -⟩
  exact push_ne_empty _ _ (hs.symm.trans htodo)

private theorem Undone.refl {s₁ : State} (hplaced : Placed items capacity s₁)
    (htrace : s₁.trace = s.trace) : m.Undone items capacity s s₁ :=
  .inl ⟨s₁, hplaced, htrace, rfl⟩

theorem isChoice_of_body (hr : m.rules.get? key = some r) :
    m.isChoice key = r.body.isChoice := by
  simp [isChoice, hr]

theorem isRepetition_of_body (hr : m.rules.get? key = some r) :
    m.isRepetition key = r.body.isRepetition := by
  simp [isRepetition, hr]

theorem transitional_of_get? (hr : m.rules.get? key = some r) :
    r.transitional = m.isTransitional key := by
  simp [isTransitional, hr]

/-- Where the steps to do are used up, the search ends or goes back. -/
private theorem stepped_empty (hplaced : Placed items capacity s) (hs : s.todo = .empty) :
    Stepped m items capacity s := by
  have hmoves : m.moves items s.config = [] := by
    rw [State.config, hs]
    rfl
  rcases htoken : s.token with f | t
  · have hstep : m.step s = .failed f := by
      unfold step
      rw [hs, htoken]
      rfl
    refine .broken hstep ?_ (State.token?_of_token htoken)
    intro hfav
    rcases hfav.exists_token (hplaced.matched_lt hfav.items_ne_nil) with ⟨t, hitem⟩
    rw [hplaced.token_of_ok hitem] at htoken
    cases htoken
  · have hitem := hplaced.token_eq_ok_iff.1 htoken
    have hstep : m.step s = if t.isEnding then .done s else m.backtrack s := by
      unfold step
      rw [hs, htoken]
      rfl
    rcases hending : t.isEnding with _ | _
    · refine .stuck (by simpa [hending] using hstep) rfl hplaced hmoves ?_ rfl
      rintro ⟨-, t', hitem', hending'⟩
      have hsame : t' = t := by
        rw [State.config, hitem] at hitem'
        cases hitem'
        rfl
      rw [hsame, hending] at hending'
      cases hending'
    · exact .done (by simpa [hending] using hstep) ⟨hs, t, hitem, hending⟩

private theorem stepped_leave {call : Call} (hcall : m.isRepetition call.rule = false)
    (htodo : m.Orderly todo) (hplaced : Placed items capacity s)
    (hs : s.todo = todo.push (.leave call false)) : Stepped m items capacity s := by
  have hstep : m.step s = .running ({ s with todo := todo }.leave call false) := by
    simp [step, hs]
  refine .forced hstep (by rw [config_eq hs]; rfl) ⟨htodo, hplaced.of_eq rfl ?_⟩ ?_
  · simp [State.leave]
  · intro s₁ hplaced₁ htrace₁
    refine .inl ⟨{ s₁ with trace := s.trace }, hplaced₁.of_eq rfl ?_, rfl,
      backtrack_leave htrace₁ hcall⟩
    rw [htrace₁]
    simp [State.leave]

private theorem stepped_decision {made : Nat} (hkey : m.isRepetition key = true)
    (htodo : m.Orderly todo) (hplaced : Placed items capacity s)
    (hs : s.todo = todo.push (.leave (m.use key made) true)) : Stepped m items capacity s := by
  have hstep : m.step s = .running ({ s with todo := todo }.leave (m.use key made) true) := by
    simp [step, hs]
  refine .decided hstep (by rw [config_eq hs]; rfl) rfl ⟨htodo, hplaced.of_eq rfl ?_⟩ ?_
  · simp [State.leave]
  · intro s₁ hplaced₁ htrace₁
    refine ⟨State.resume { s₁ with trace := s.trace } (m.use key made) s.depth todo,
      ⟨htodo.again hkey, hplaced₁.of_eq rfl ?_⟩, rfl, backtrack_repetition htrace₁ hkey⟩
    rw [htrace₁]
    simp [State.leave, State.resume]

/-- A step that enters a rule depends on what entering it comes to. -/
private theorem step_enter {call : Call} (hs : s.todo = todo.push (.enter call)) :
    m.step s =
      match State.enter m { s with todo := todo } call with
      | .error f => .failed f
      | .ok (.on s) => .running s
      | .ok (.blocked s) => m.backtrack s := by
  unfold step
  rw [hs]
  rfl

private theorem enter_use {index : Nat} (hr : m.rules.get? key = some r) :
    State.enter m s (m.use key index) =
      match r.body with
      | .token kind unification kept => State.matchToken m s key kind unification kept
      | .concatenation children => State.enterConcatenation m s (m.use key index) children
      | .choice children => State.enterChoice m s (m.use key index) children
      | .repetition bounds child => State.enterRepetition m s (m.use key index) bounds child := by
  simp only [State.enter, rule_use, hr, transitional_of_get? hr]
  rfl

private theorem stepped_concatenation {index : Nat} {children : List RuleKey}
    (hr : m.rules.get? key = some r) (hbody : r.body = .concatenation children)
    (htodo : m.Orderly todo) (hplaced : Placed items capacity s)
    (hs : s.todo = todo.push (.enter (m.use key index))) : Stepped m items capacity s := by
  have hstep := step_enter (m := m) hs
  rw [enter_use hr, hbody] at hstep
  dsimp only [State.enterConcatenation] at hstep
  rcases planAll_eq (m := m) todo children.reverse with
    ⟨hplan, hknown⟩ | ⟨⟨f, hf⟩, child, hchild, hget⟩
  · rw [hplan, List.reverse_reverse] at hstep
    have htodo' : m.Orderly (m.plannedAll todo children) :=
      htodo.plannedAll fun child hchild => hknown child (List.mem_reverse.2 hchild)
    refine .forced hstep ?_ ⟨htodo', hplaced.of_eq rfl (by simp)⟩ ?_
    · rw [config_eq hs, moves_concatenation hr hbody]
      rfl
    · intro s₁ hplaced₁ htrace₁
      refine .inl ⟨{ s₁ with trace := s.trace }, hplaced₁.of_eq rfl (by simp [htrace₁]), rfl,
        backtrack_enter htrace₁ ?_⟩
      show m.isChoice key = false
      rw [isChoice_of_body hr, hbody]
      rfl
  · rw [hf] at hstep
    refine .broken hstep (fun hfav => hfav.closed hr ?_ hget) (token?_of_planAll hf)
    rw [Rule.children, hbody]
    exact List.mem_reverse.1 hchild

private theorem stepped_choice {index : Nat} {children : List RuleKey}
    (hr : m.rules.get? key = some r) (hbody : r.body = .choice children)
    (htodo : m.Orderly todo) (hplaced : Placed items capacity s)
    (hs : s.todo = (todo.push (.leave (m.use key 0) false)).push (.enter (m.use key index))) :
    Stepped m items capacity s := by
  have hstep := step_enter (m := m) hs
  rw [enter_use hr, hbody] at hstep
  dsimp only [State.enterChoice, data_use] at hstep
  have hrepetition : m.isRepetition key = false := by
    rw [isRepetition_of_body hr, hbody]
    rfl
  have hchoice : m.isChoice key = true := by
    rw [isChoice_of_body hr, hbody]
    rfl
  have hleft : m.Orderly (todo.push (.leave (m.use key 0) false)) := htodo.leave hrepetition
  rcases hchild : children[index]? with _ | child
  · rw [hchild] at hstep
    refine .stuck hstep rfl (hplaced.of_eq rfl rfl) ?_ (not_accepts hs) rfl
    rw [config_eq hs, moves_choice_of_none hr hbody hchild]
  · rw [hchild] at hstep
    dsimp only at hstep
    by_cases hknown : m.rules.get? child = none
    · rcases plan_of_unknown hknown (todo.push (.leave (m.use key 0) false)) with ⟨f, hf⟩
      rw [hf] at hstep
      refine .broken hstep (fun hfav => hfav.closed hr ?_ hknown) (token?_of_plan hf)
      rw [Rule.children, hbody]
      exact List.mem_of_getElem? hchild
    · rw [plan_of_get? hknown] at hstep
      have hmoves : m.moves items s.config = _ :=
        (congrArg (m.moves items) (config_eq hs)).trans (moves_choice hr hbody hchild)
      refine .decided hstep hmoves rfl ⟨hleft.planned hknown, hplaced.of_eq rfl (by simp)⟩ ?_
      intro s₁ hplaced₁ htrace₁
      have hevent : s₁.trace = .enter (m.use key index) (m.depthInside key s.depth)
          (todo.push (.leave (m.use key 0) false)) :: s.trace := htrace₁
      have hback := backtrack_choice hevent hchoice
      rw [depthOutside_depthInside] at hback
      have hagain : m.Orderly
          ((todo.push (.leave (m.use key 0) false)).push (.enter (m.use key (index + 1)))) :=
        htodo.enter (by simp [hr]) (.inr hchoice)
      exact ⟨State.resume { s₁ with trace := s.trace } (m.use key index) s.depth
        (todo.push (.leave (m.use key 0) false)),
        ⟨hagain, hplaced₁.of_eq rfl (by simp [htrace₁, State.resume])⟩, rfl, hback⟩

private theorem stepped_repetition {bounds : Bounds} {child : RuleKey}
    (hr : m.rules.get? key = some r) (hbody : r.body = .repetition bounds child)
    (htodo : m.Orderly todo) (hplaced : Placed items capacity s)
    (hs : s.todo = (todo.push (.leave (m.use key 0) false)).push (.enter (m.use key 0))) :
    Stepped m items capacity s := by
  have hstep := step_enter (m := m) hs
  rw [enter_use hr, hbody] at hstep
  simp only [State.enterRepetition, data_use, if_true, planTimes_eq_planAll,
    Stack.drop_push] at hstep
  have hrepetition : m.isRepetition key = true := by
    rw [isRepetition_of_body hr, hbody]
    rfl
  have hleast := leastPasses_eq hr hbody
  rcases planAll_eq (m := m) (todo.push (.leave (m.use key bounds.min) true))
    (List.replicate bounds.min child) with ⟨hplan, hknown⟩ | ⟨⟨f, hf⟩, child', hchild, hget⟩
  · rw [List.reverse_replicate] at hplan
    have hplan' : State.planAll m
        (todo.push (.leave { m.use key 0 with data := bounds.min } true))
        (List.replicate bounds.min child) = .ok (m.passesLeft key child todo 0) := by
      rw [passesLeft, hleast, Nat.sub_zero, Nat.max_zero]
      exact hplan
    rw [hplan'] at hstep
    have hleft : m.Orderly (m.passesLeft key child todo 0) := by
      rw [passesLeft, hleast, Nat.sub_zero]
      exact (htodo.decision hrepetition).plannedAll hknown
    refine .forced hstep ?_ ⟨hleft, hplaced.of_eq rfl (by simp)⟩ ?_
    · rw [config_eq hs, moves_repetition hr hbody]
      rfl
    · intro s₁ hplaced₁ htrace₁
      refine .inl ⟨{ s₁ with trace := s.trace }, hplaced₁.of_eq rfl (by simp [htrace₁]), rfl,
        backtrack_enter htrace₁ ?_⟩
      show m.isChoice key = false
      rw [isChoice_of_body hr, hbody]
      rfl
  · have hf' : State.planAll m (todo.push (.leave { m.use key 0 with data := bounds.min } true))
        (List.replicate bounds.min child) = .error f := hf
    rw [hf'] at hstep
    refine .broken hstep (fun hfav => hfav.closed hr ?_ hget) (token?_of_planAll hf)
    rw [Rule.children, hbody, List.eq_of_mem_replicate hchild]
    exact List.mem_singleton_self child

private theorem enterRepetition_again {bounds : Bounds} {child : RuleKey} {made : Nat} :
    State.enterRepetition m s (m.use key (made + 1)) bounds child =
      if bounds.admits (made + 1) then
        match State.plan m (s.todo.push (.leave (m.use key (made + 1)) true)) child with
        | .error e => .error e
        | .ok todo => .ok (.on { s with todo := todo })
      else .ok (.blocked s) := by
  have hdata : (m.use key (made + 1)).data ≠ 0 := Nat.succ_ne_zero made
  unfold State.enterRepetition
  rw [if_neg hdata]
  rfl

private theorem stepped_again {made : Nat} (hkey : m.isRepetition key = true)
    (htodo : m.Orderly todo) (hplaced : Placed items capacity s)
    (hs : s.todo = todo.push (.enter (m.use key (made + 1)))) : Stepped m items capacity s := by
  obtain ⟨r, hr, hrepetition⟩ :
      ∃ r, m.rules.get? key = some r ∧ r.body.isRepetition = true := by
    rcases hr : m.rules.get? key with _ | r
    · rw [isRepetition, hr] at hkey
      cases hkey
    · exact ⟨r, rfl, (isRepetition_of_body hr).symm.trans hkey⟩
  have hstep := step_enter (m := m) hs
  cases hbody : r.body with
  | token kind unification kept =>
    rw [hbody] at hrepetition
    cases hrepetition
  | concatenation children =>
    rw [hbody] at hrepetition
    cases hrepetition
  | choice children =>
    rw [hbody] at hrepetition
    cases hrepetition
  | repetition bounds child =>
    rw [enter_use hr, hbody] at hstep
    dsimp only at hstep
    rw [enterRepetition_again] at hstep
    have hmoves : m.moves items s.config = _ :=
      (congrArg (m.moves items) (config_eq hs)).trans (moves_again hr hbody)
    by_cases hadmits : bounds.admits (made + 1) = true
    · rw [if_pos hadmits] at hstep hmoves
      by_cases hknown : m.rules.get? child = none
      · rcases plan_of_unknown hknown (todo.push (.leave (m.use key (made + 1)) true)) with ⟨f, hf⟩
        rw [hf] at hstep
        refine .broken hstep (fun hfav => hfav.closed hr ?_ hknown) (token?_of_plan hf)
        rw [Rule.children, hbody]
        exact List.mem_singleton_self child
      · rw [plan_of_get? hknown] at hstep
        exact .forced hstep hmoves
          ⟨(htodo.decision hkey).planned hknown, hplaced.of_eq rfl rfl⟩
          fun s₁ hplaced₁ htrace₁ => .refl hplaced₁ htrace₁
    · rw [if_neg hadmits] at hstep hmoves
      exact .stuck hstep rfl (hplaced.of_eq rfl rfl) hmoves (not_accepts hs) rfl

theorem matchToken_of_blocked {kind : String} {unification : Option Nat} {kept : Bool}
    {t : Token} (htoken : s.token = .ok t)
    (haccepts : accepts kind unification s.depth s.trace t = false) :
    State.matchToken m s key kind unification kept = .ok (.blocked s) := by
  unfold State.matchToken
  rw [htoken]
  dsimp only
  by_cases hkind : t.kind = kind
  · rw [if_neg (not_not_intro hkind)]
    refine if_pos (Classical.not_not.1 fun hunified => ?_)
    rw [accepts_iff.2 ⟨hkind, hunified⟩] at haccepts
    cases haccepts
  · rw [if_pos hkind]

/-- A state in which a token was just matched. -/
private def afterMatch (m : Machine) (s : State) (todo : Todo) (key : RuleKey) (t : Token) :
    State :=
  { s with
    todo := todo
    trace := .token (m.matched key t) :: s.trace
    window := s.window.advance }

private theorem matchToken_of_accepts {kind : String} {unification : Option Nat} {kept : Bool}
    {t : Token} {step : Step} (hr : m.rules.get? key = some r)
    (hbody : r.body = .token kind unification kept) (htoken : s.token = .ok t)
    (haccepts : accepts kind unification s.depth s.trace t = true) :
    State.matchToken m { s with todo := todo.push step } key kind unification kept =
      match (afterMatch m s todo key t).noteProgress with
      | .error f => .error f
      | .ok s' => .ok (.on s') := by
  rcases accepts_iff.1 haccepts with ⟨hkind, hunified⟩
  have htoken' : State.token { s with todo := todo.push step } = .ok t := htoken
  unfold State.matchToken afterMatch
  rw [htoken', matched_eq hr hbody]
  dsimp only
  rw [if_neg (not_not_intro hkind), if_neg hunified, hkind]
  rfl

/-- Noting the progress fails where there is no token, and else changes only the note. -/
private theorem noteProgress_eq (s : State) :
    (∃ f, s.noteProgress = .error f ∧ s.token = .error f) ∨
      ∃ t furthest, s.noteProgress = .ok { s with furthest := furthest } ∧ s.token = .ok t := by
  unfold State.noteProgress
  rcases s.token with f | t
  · exact .inl ⟨f, rfl, rfl⟩
  · refine .inr ⟨t, ?_⟩
    dsimp only
    split
    · exact ⟨some t, rfl, rfl⟩
    · split
      · exact ⟨some t, rfl, rfl⟩
      · exact ⟨s.furthest, rfl, rfl⟩

private theorem placed_afterMatch {t t' : Token} (hplaced : Placed items capacity s)
    (hitem : items[matchedCount s.trace]? = some (.ok t))
    (htoken : (afterMatch m s todo key t).token = .ok t') :
    Placed items capacity (afterMatch m s todo key t) := by
  have hpos := Window.Covers.place_advance_pos hplaced.place_pos
  rcases hplaced.covers_advance hitem with ⟨pulled, hcovers⟩
  have hcurrent : (afterMatch m s todo key t).window.current = some (.ok t') := by
    unfold State.token at htoken
    split at htoken
    · rename_i u hu
      cases htoken
      exact hu
    · cases htoken
    · cases htoken
  have hnext : items[matchedCount s.trace + 1]? = some (.ok t') :=
    (hcovers.current hpos).symm.trans hcurrent
  refine ⟨?_, ⟨pulled, ?_⟩, hpos, ?_⟩
  · show s.window.advance.capacity = capacity
    rw [Window.capacity_advance, hplaced.room]
  · rw [afterMatch, matchedCount_token]
    exact hcovers
  · intro _
    rw [afterMatch, matchedCount_token]
    exact (List.getElem?_eq_some_iff.1 hnext).1

/-- In favourable circumstances another token follows the one matched. -/
private theorem token_afterMatch {kind : String} {unification : Option Nat} {kept : Bool}
    {t : Token} (hfav : m.Favourable items capacity) (hr : m.rules.get? key = some r)
    (hbody : r.body = .token kind unification kept) (hplaced : Placed items capacity s)
    (hitem : items[matchedCount s.trace]? = some (.ok t)) (hkind : t.kind = kind) :
    ∃ t', (afterMatch m s todo key t).token = .ok t' := by
  have hpos := Window.Covers.place_advance_pos hplaced.place_pos
  rcases hplaced.covers_advance hitem with ⟨pulled, hcovers⟩
  have hending : t.isEnding = false := by
    rw [Token.isEnding, hkind, beq_eq_false_iff_ne]
    exact hfav.unasked hr hbody
  rcases hfav.exists_token (hfav.succ_lt hitem hending) with ⟨t', ht'⟩
  have hcurrent : (afterMatch m s todo key t).window.current = some (.ok t') :=
    (hcovers.current hpos).trans ht'
  exact ⟨t', by rw [State.token, hcurrent]⟩

/-- Giving back the token just matched leads to the state before. -/
private theorem undone_afterMatch {t : Token} {s₁ : State} (hplaced : Placed items capacity s₁)
    (htrace : s₁.trace = .token (m.matched key t) :: s.trace) :
    m.Undone items capacity s s₁ := by
  rcases hplaced.previous htrace with ⟨hvalid, hback⟩ | ⟨hinvalid, hroom⟩
  · exact .inl ⟨_, hback, rfl, backtrack_token htrace hvalid⟩
  · exact .inr ⟨backtrack_exhausted htrace hinvalid, fun hfav => Nat.not_lt.2 hfav.roomy hroom⟩

private theorem stepped_token {kind : String} {unification : Option Nat} {kept : Bool}
    {index : Nat} (hr : m.rules.get? key = some r)
    (hbody : r.body = .token kind unification kept) (htodo : m.Orderly todo)
    (hplaced : Placed items capacity s)
    (hs : s.todo = (todo.push (.leave (m.use key 0) false)).push (.enter (m.use key index))) :
    Stepped m items capacity s := by
  have hstep := step_enter (m := m) hs
  rw [enter_use hr, hbody] at hstep
  dsimp only at hstep
  have hmoves : m.moves items s.config = _ :=
    (congrArg (m.moves items) (config_eq hs)).trans (moves_token hr hbody)
  rcases htoken : s.token with f | t
  · have hfails : State.matchToken m { s with todo := todo.push (.leave (m.use key 0) false) } key
        kind unification kept = .error f := by
      have htoken' : State.token { s with todo := todo.push (.leave (m.use key 0) false) } =
          .error f := htoken
      unfold State.matchToken
      rw [htoken']
    rw [hfails] at hstep
    refine .broken hstep ?_ (State.token?_of_token htoken)
    intro hfav
    rcases hfav.exists_token (hplaced.matched_lt hfav.items_ne_nil) with ⟨t, hitem⟩
    rw [hplaced.token_of_ok hitem] at htoken
    cases htoken
  · have hitem := hplaced.token_eq_ok_iff.1 htoken
    rw [hitem] at hmoves
    dsimp only at hmoves
    rcases haccepts : accepts kind unification s.depth s.trace t with _ | _
    · have hblocked : State.matchToken m
          { s with todo := todo.push (.leave (m.use key 0) false) } key kind unification kept = _ :=
        matchToken_of_blocked htoken haccepts
      rw [hblocked] at hstep
      rw [haccepts] at hmoves
      exact .stuck hstep rfl (hplaced.of_eq rfl rfl) hmoves (not_accepts hs) rfl
    · rw [matchToken_of_accepts hr hbody htoken haccepts] at hstep
      rw [haccepts] at hmoves
      rcases noteProgress_eq (afterMatch m s todo key t) with
        ⟨f, hnote, hnone⟩ | ⟨t', furthest, hnote, hnext⟩
      · rw [hnote] at hstep
        refine .broken hstep ?_ (State.token?_of_token hnone)
        intro hfav
        rcases token_afterMatch hfav hr hbody hplaced hitem (accepts_iff.1 haccepts).1 with
          ⟨t', ht'⟩
        rw [ht'] at hnone
        cases hnone
      · rw [hnote] at hstep
        have hafter := placed_afterMatch hplaced hitem hnext
        exact .forced hstep hmoves ⟨htodo, hafter.of_eq rfl rfl⟩
          fun s₁ hplaced₁ htrace₁ => undone_afterMatch hplaced₁ htrace₁

/-- A step makes the first of the moves there are, ends the search, or goes back. -/
theorem stepped (hgood : m.Good items capacity s) : Stepped m items capacity s := by
  rcases hgood with ⟨horderly, hplaced⟩
  generalize hs : s.todo = todo at horderly
  cases horderly with
  | empty => exact stepped_empty hplaced hs
  | leave hcall htodo => exact stepped_leave hcall htodo hplaced hs
  | decision hkey htodo => exact stepped_decision hkey htodo hplaced hs
  | @enter todo key index hknown hindex htodo =>
    rcases Option.ne_none_iff_exists'.1 hknown with ⟨r, hr⟩
    cases hbody : r.body with
    | token kind unification kept => exact stepped_token hr hbody htodo hplaced hs
    | concatenation children =>
      have hrepetition : m.isRepetition key = false := by
        rw [isRepetition_of_body hr, hbody]
        rfl
      exact stepped_concatenation hr hbody (htodo.leave hrepetition) hplaced hs
    | choice children => exact stepped_choice hr hbody htodo hplaced hs
    | repetition bounds child =>
      -- Only a choice is entered with a number, as an alternative is the part of one.
      have hzero : index = 0 := by
        rw [isChoice_of_body hr, hbody] at hindex
        simpa [RuleBody.isChoice] using hindex
      rw [hzero] at hs
      exact stepped_repetition hr hbody htodo hplaced hs
  | again hkey htodo => exact stepped_again hkey htodo hplaced hs

end

end Machine

end Descent
