import Descent.Proofs.Search.Reached

/-!
# How a search fails

Where all references resolve, a search fails on an item that is an error, or it names a token that
was not expected.  There is one exception: a rule may match the last item of a text, and then the
window has nothing to stand on.

Main results:

- `Machine.Overruns` is the exception, and `Machine.step_of_overruns` says what comes of it.
- `Machine.failed_of_step`: how a step may fail.
- `Machine.exists_reached_of_run`: a search that fails has reached a step that fails.
-/

namespace Descent

/-- The failures that are no fault of the rules. -/
inductive Failure.Expected : Failure → Prop
  | lex (e : LexError) : Expected (.lex e)
  | unexpected (t : Token) : Expected (.unexpected t)

/-- What is said where the window has run past the last item. -/
def pastTheEnd : Failure :=
  .internal "token stream ended before EOF"

/-- The token that an item is. -/
def tokenOf : Option (Except LexError Token) → Except Failure Token
  | some (.ok t) => .ok t
  | some (.error e) => .error (.lex e)
  | none => .error pastTheEnd

theorem State.token_eq (s : State) : s.token = tokenOf s.window.current := by
  unfold State.token
  split
  · rename_i h
    rw [h, tokenOf]
  · rename_i h
    rw [h, tokenOf]
  · rename_i h
    rw [h, tokenOf, pastTheEnd]

namespace Machine

/-- A rule matches the last item of a text. -/
structure Overruns (m : Machine) (items : List (Except LexError Token)) (s : State) (t : Token) :
    Prop where
  matched : ∃ (call : Call) (todo : Todo) (r : Rule) (unification : Option Nat) (kept : Bool),
    s.todo = todo.push (.enter call) ∧ m.rules.get? call.rule = some r ∧
    r.body = .token t.kind unification kept ∧
    accepts t.kind unification s.depth s.trace t = true
  last : items.drop (matchedCount s.trace) = [.ok t]

variable {m : Machine} {items : List (Except LexError Token)} {capacity fuel : Nat}
  {s s' s₀ : State} {key : RuleKey} {f : Failure}

/-! ## Tokens -/

/-- An item that is there may only be an error. -/
theorem expected_of_tokenOf {item : Except LexError Token} (h : tokenOf (some item) = .error f) :
    f.Expected := by
  cases item with
  | ok t => cases h
  | error e =>
    cases h
    exact .lex e

theorem expected_of_token (hplaced : Placed items capacity s) (hitems : items ≠ [])
    (h : s.token = .error f) : f.Expected := by
  rw [State.token_eq, hplaced.current,
    List.getElem?_eq_getElem (hplaced.matched_lt hitems)] at h
  exact expected_of_tokenOf h

/-- After the match of a token, the window stands on the next item. -/
theorem token_advance {t : Token} (hplaced : Placed items capacity s)
    (hitem : items[matchedCount s.trace]? = some (.ok t)) (h : s'.window = s.window.advance) :
    s'.token = tokenOf items[matchedCount s.trace + 1]? := by
  rcases hplaced.covers_advance hitem with ⟨pulled, hcovers⟩
  rw [State.token_eq, h, hcovers.current (Window.Covers.place_advance_pos hplaced.place_pos),
    Nat.add_sub_cancel]

private theorem drop_eq_singleton_iff {α : Type} {xs : List α} {n : Nat} {x : α}
    (hx : xs[n]? = some x) : xs.drop n = [x] ↔ xs[n + 1]? = none := by
  have hlt := (List.getElem?_eq_some_iff.1 hx).1
  have hget := (List.getElem?_eq_some_iff.1 hx).2
  rw [List.drop_eq_getElem_cons hlt, hget, List.cons.injEq, List.drop_eq_nil_iff,
    List.getElem?_eq_none_iff]
  exact and_iff_right rfl

theorem noteProgress_error_iff : s.noteProgress = .error f ↔ s.token = .error f := by
  unfold State.noteProgress
  constructor
  · intro h
    split at h
    · rename_i hf
      cases h
      exact hf
    · split at h
      · cases h
      · cases h
  · intro h
    rw [h]

/-- A match fails for want of a token, now or after it. -/
theorem token_of_matchToken {kind : String} {unification : Option Nat} {kept : Bool}
    (h : State.matchToken m s key kind unification kept = .error f) :
    s.token = .error f ∨ ∃ (t : Token) (s' : State), s.token = .ok t ∧ t.kind = kind ∧
      accepts kind unification s.depth s.trace t = true ∧ s'.window = s.window.advance ∧
      s'.token = .error f := by
  unfold State.matchToken at h
  split at h
  · rename_i hf
    cases h
    exact .inl hf
  · rename_i t ht
    split at h
    · cases h
    · rename_i hkind
      split at h
      · cases h
      · rename_i hunified
        dsimp only at h
        split at h
        · rename_i hnote
          cases h
          have hkind := Classical.not_not.1 hkind
          exact .inr ⟨t, _, ht, hkind, accepts_iff.2 ⟨hkind, hunified⟩, rfl,
            noteProgress_error_iff.1 hnote⟩
        · cases h

/-! ## Rules -/

section

variable {call : Call}

private theorem planAll_ne_error {todo : Todo} {keys : List RuleKey}
    (hkeys : ∀ key ∈ keys, m.Knows key) : State.planAll m todo keys ≠ .error f := by
  intro hplan
  rcases planAll_eq (m := m) todo keys with ⟨hok, -⟩ | ⟨-, child, hchild, hnone⟩
  · rw [hplan] at hok
    cases hok
  · exact hkeys child hchild hnone

private theorem enterConcatenation_ne_error {children : List RuleKey}
    (hchildren : ∀ child ∈ children, m.Knows child) :
    State.enterConcatenation m s call children ≠ .error f := by
  intro h
  unfold State.enterConcatenation at h
  dsimp only at h
  split at h
  · rename_i hplan
    exact planAll_ne_error (fun k hk => hchildren k (List.mem_reverse.1 hk)) hplan
  · cases h

private theorem enterChoice_ne_error {children : List RuleKey}
    (hchildren : ∀ child ∈ children, m.Knows child) :
    State.enterChoice m s call children ≠ .error f := by
  intro h
  unfold State.enterChoice at h
  dsimp only at h
  split at h
  · cases h
  · rename_i hchild
    rw [plan_of_get? (hchildren _ (List.mem_of_getElem? hchild))] at h
    cases h

private theorem enterRepetition_ne_error {bounds : Bounds} {child : RuleKey}
    (hchild : m.Knows child) : State.enterRepetition m s call bounds child ≠ .error f := by
  intro h
  unfold State.enterRepetition at h
  dsimp only at h
  split at h
  · rw [planTimes_eq_planAll] at h
    split at h
    · rename_i hplan
      refine planAll_ne_error (fun k hk => ?_) hplan
      rw [List.eq_of_mem_replicate hk]
      exact hchild
    · cases h
  · split at h
    · rw [plan_of_get? hchild] at h
      cases h
    · cases h

/-- Where all references resolve, only the match of a token may fail. -/
theorem matchToken_of_enter (hclosed : m.rules.Closed) (hcall : m.Knows call.rule)
    (h : State.enter m s call = .error f) :
    ∃ r kind unification kept, m.rules.get? call.rule = some r ∧
      r.body = .token kind unification kept ∧
      State.matchToken m s call.rule kind unification kept = .error f := by
  rcases Option.ne_none_iff_exists'.1 hcall with ⟨r, hr⟩
  have hchildren : ∀ child ∈ r.children, m.Knows child := fun child hchild => hclosed hr hchild
  unfold Rule.children at hchildren
  unfold State.enter at h
  rw [hr] at h
  dsimp only at h
  cases hbody : r.body with
  | token kind unification kept =>
    rw [hbody] at h
    exact ⟨r, kind, unification, kept, hr, hbody, h⟩
  | concatenation children =>
    rw [hbody] at h hchildren
    exact absurd h (enterConcatenation_ne_error hchildren)
  | choice children =>
    rw [hbody] at h hchildren
    exact absurd h (enterChoice_ne_error hchildren)
  | repetition bounds child =>
    rw [hbody] at h hchildren
    exact absurd h (enterRepetition_ne_error (hchildren child (List.mem_singleton_self child)))

end

/-! ## Steps -/

/-- Where a search has nowhere to go back to, it names a token. -/
theorem expected_of_backtrack (hplaced : Placed items capacity s) (hitems : items ≠ [])
    (hrecorded : ∀ e ∈ s.trace, m.Recorded e) (hnoted : Noted s)
    (h : m.backtrack s = .failed f) : f.Expected := by
  have hstate := (retreatThrough_state (m := m) s s.trace).1
  have hgiveUp {s' : State} {t : Token} (ht : s'.furthest = some t) :
      (giveUp s').Expected := by
    unfold giveUp
    rw [ht]
    exact .unexpected t
  unfold backtrack State.retreat at h
  cases retreated_of_recorded (m := m) (s := s) hplaced hrecorded with
  | resumed hretreat =>
    rw [hretreat] at h
    cases h
  | lost hretreat hmatched =>
    rw [hretreat] at h hstate
    cases h
    rcases Option.ne_none_iff_exists'.1 (hnoted hmatched) with ⟨t, ht⟩
    exact hgiveUp (hstate.trans ht)
  | @spent s' hretreat hplaced' =>
    rw [hretreat] at h
    cases h
    rcases hfurthest : s'.furthest with _ | t
    · unfold giveUp
      rw [hfurthest]
      rcases htoken : s'.token with e | t
      · exact expected_of_token hplaced' hitems htoken
      · exact .unexpected t
    · exact hgiveUp hfurthest

/-- Where the window has dropped a token that is to be given back, there is a token to be named. -/
theorem furthest_of_exhausted {todo : Todo} (hs : m.Steady items capacity s) (hitems : items ≠ [])
    (h : State.retreat m { s with todo := todo } = .exhausted s')
    (hinvalid : s'.window.isValid = false) : s'.furthest ≠ none := by
  have hplaced : Placed items capacity { s with todo := todo } := hs.good.placed.of_eq rfl rfl
  have hstate := (retreatThrough_state (m := m) { s with todo := todo } s.trace).1
  unfold State.retreat at h
  cases retreated_of_recorded (s := { s with todo := todo }) hplaced hs.recorded with
  | resumed hretreat =>
    rw [hretreat] at h
    cases h
  | lost hretreat hmatched =>
    rw [hretreat] at h hstate
    cases h
    rw [show s'.furthest = s.furthest from hstate]
    exact hs.noted hmatched
  | spent hretreat hplaced' =>
    rw [hretreat] at h
    cases h
    have hcurrent := hplaced'.current
    rw [List.getElem?_eq_getElem (hplaced'.matched_lt hitems)] at hcurrent
    rw [Window.isValid, hcurrent] at hinvalid
    cases hinvalid

/-- A step fails as expected, unless a rule matches the last item of the text. -/
theorem failed_of_step (hclosed : m.rules.Closed) (hs : m.Steady items capacity s)
    (hitems : items ≠ []) (hstep : m.step s = .failed f) :
    f.Expected ∨ f = pastTheEnd ∧ ∃ t, m.Overruns items s t := by
  have hplaced := hs.good.placed
  have hback {todo : Todo} (h : m.backtrack { s with todo := todo } = .failed f) : f.Expected :=
    expected_of_backtrack (s := { s with todo := todo }) (hplaced.of_eq rfl rfl) hitems
      hs.recorded hs.noted h
  unfold step at hstep
  split at hstep
  · cases hstep
  · rename_i call todo hpop
    have htodo : s.todo = todo.push (.enter call) := Stack.eq_push_of_pop? hpop
    have hcall : m.Knows call.rule := by
      have hknown := hs.known
      rw [htodo] at hknown
      exact hknown.pop.2
    split at hstep
    · rename_i henter
      cases hstep
      rcases matchToken_of_enter hclosed hcall henter with
        ⟨r, kind, unification, kept, hr, hbody, hmatch⟩
      rcases token_of_matchToken hmatch with
        hnow | ⟨t, s', htoken, rfl, haccepts, hwindow, hnext⟩
      · exact .inl (expected_of_token hplaced hitems hnow)
      · have hitem := hplaced.token_eq_ok_iff.1 htoken
        have hafter := token_advance hplaced hitem hwindow
        rw [hnext] at hafter
        rcases hlast : items[matchedCount s.trace + 1]? with _ | item
        · rw [hlast] at hafter
          cases hafter
          exact .inr ⟨rfl, t, ⟨call, todo, r, unification, kept, htodo, hr, hbody, haccepts⟩,
            (drop_eq_singleton_iff hitem).2 hlast⟩
        · rw [hlast] at hafter
          exact .inl (expected_of_tokenOf hafter.symm)
    · cases hstep
    · rename_i s₁ henter
      have hsame := enters_of_enter (show Noted { s with todo := todo } from hs.noted) henter
      cases hsame
      exact .inl (hback hstep)
  · split at hstep
    · rename_i htoken
      cases hstep
      exact .inl (expected_of_token hplaced hitems htoken)
    · split at hstep
      · cases hstep
      · exact .inl (hback hstep)

/-- A rule that matches the last item of a text makes the search fail. -/
theorem step_of_overruns {t : Token} (hplaced : Placed items capacity s)
    (h : m.Overruns items s t) : m.step s = .failed pastTheEnd := by
  rcases h.matched with ⟨call, todo, r, unification, kept, htodo, hr, hbody, haccepts⟩
  have hitem : items[matchedCount s.trace]? = some (.ok t) := by
    rw [← List.head?_drop, h.last]
    rfl
  have htoken : State.token { s with todo := todo } = .ok t := hplaced.token_of_ok hitem
  have hnote (s' : State) (hwindow : s'.window = s.window.advance) :
      s'.noteProgress = .error pastTheEnd := by
    rw [noteProgress_error_iff, token_advance hplaced hitem hwindow,
      (drop_eq_singleton_iff hitem).1 h.last]
    rfl
  have hmatch : State.matchToken m { s with todo := todo } call.rule t.kind unification kept =
      .error pastTheEnd := by
    unfold State.matchToken
    rw [htoken]
    dsimp only
    rw [if_neg (not_not_intro rfl), if_neg (accepts_iff.1 haccepts).2, hnote _ rfl]
  unfold step
  rw [htodo, Stack.pop?_push]
  dsimp only
  rw [State.enter, hr]
  dsimp only
  rw [hbody]
  dsimp only
  rw [hmatch]

/-! ## Runs -/

/-- A search that fails has reached a step that fails. -/
theorem exists_reached_of_run (h : m.run fuel s = some (.error f)) :
    ∃ s', m.Reaches s s' ∧ m.step s' = .failed f := by
  induction fuel generalizing s with
  | zero => cases h
  | succ fuel ih =>
    rw [run_succ] at h
    split at h
    · rename_i s₁ hstep
      rcases ih h with ⟨s', hreach, hfailed⟩
      exact ⟨s', .head hstep hreach, hfailed⟩
    · cases h
    · rename_i hstep
      cases h
      exact ⟨s, .refl, hstep⟩

/-- A search that reaches a step that fails does so too. -/
theorem Reaches.halts (h : m.Reaches s s') (hstep : m.step s' = .failed f) :
    m.Halts s (.error f) := by
  induction h using Relation.ReflTransGen.head_induction_on with
  | refl =>
    refine ⟨1, ?_⟩
    rw [run_succ, hstep]
  | head hfirst _ ih =>
    rcases ih with ⟨fuel, hfuel⟩
    refine ⟨fuel + 1, ?_⟩
    rw [run_succ, hfirst]
    exact hfuel

end Machine

end Descent
