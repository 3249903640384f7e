import Descent.Search.State

/-!
# Running a search

A search does one step after the other.  When none is left and the text is at its ending, the
events recorded are a derivation; when a possibility fails, or the text goes on, the search goes
back to its last decision.  There need not be an end: rules that use themselves without matching a
token let it go on for ever.

Main results:

- `Machine.step` does one step.
- `Machine.run` does a bounded number of them, and `Machine.Halts` says how a search ends.
- `Machine.run_mono`: a search that has ended does not change with more steps.
-/

namespace Descent

/-- What a step leads to. -/
inductive Progress where
  | running (s : State)
  | done (s : State)
  | failed (f : Failure)
  deriving Repr

namespace Machine

/-- The failure of a search whose decisions are all used up: the last token reached is not
expected. -/
def giveUp (s : State) : Failure :=
  match s.furthest with
  | some t => .unexpected t
  | none =>
    match s.token with
    | .ok t => .unexpected t
    | .error e => e

/-- Goes back to the last decision, or gives up. -/
def backtrack (m : Machine) (s : State) : Progress :=
  match s.retreat m with
  | .resumed s => .running s
  | .exhausted s => .failed (giveUp s)

/-- Does one step. -/
def step (m : Machine) (s : State) : Progress :=
  match s.todo.pop? with
  | some (.leave c decision, todo) => .running ({ s with todo := todo }.leave c decision)
  | some (.enter c, todo) =>
    match State.enter m { s with todo := todo } c with
    | .error f => .failed f
    | .ok (.on s) => .running s
    | .ok (.blocked s) => m.backtrack s
  | none =>
    match s.token with
    | .error f => .failed f
    | .ok t => if t.isEnding then .done s else m.backtrack s

/-- Does steps until the search ends; nothing comes back if the fuel does not suffice. -/
def run (m : Machine) : (fuel : Nat) → State → Option (Except Failure State)
  | 0, _ => none
  | fuel + 1, s =>
    match m.step s with
    | .running s => m.run fuel s
    | .done s => some (.ok s)
    | .failed f => some (.error f)

/-- The state in which a search for a rule begins. -/
def initial (m : Machine) (items : List (Except LexError Token)) (capacity : Nat) (root : RuleKey) :
    Except Failure State :=
  match State.plan m .empty root with
  | .error f => .error f
  | .ok todo => .ok { State.start items capacity with todo := todo }

/-- A search for a rule over the items of a text; the events of a derivation come back in order. -/
def search (m : Machine) (items : List (Except LexError Token)) (capacity : Nat) (root : RuleKey)
    (fuel : Nat) : Option (Except Failure (List Event)) :=
  match m.initial items capacity root with
  | .error f => some (.error f)
  | .ok s => (m.run fuel s).map fun r => r.map fun s => s.trace.reverse

/-- A search from a state ends in a result. -/
def Halts (m : Machine) (s : State) (r : Except Failure State) : Prop :=
  ∃ fuel, m.run fuel s = some r

@[simp]
theorem run_zero (m : Machine) (s : State) : m.run 0 s = none :=
  rfl

theorem run_succ (m : Machine) (fuel : Nat) (s : State) :
    m.run (fuel + 1) s =
      match m.step s with
      | .running s => m.run fuel s
      | .done s => some (.ok s)
      | .failed f => some (.error f) :=
  rfl

/-- A search that has ended does not change with more steps. -/
theorem run_mono (m : Machine) {fuel more : Nat} {s : State} {r : Except Failure State}
    (h : m.run fuel s = some r) (hle : fuel ≤ more) : m.run more s = some r := by
  induction fuel generalizing s more with
  | zero => cases h
  | succ fuel ih =>
    obtain ⟨more, rfl⟩ : ∃ k, more = k + 1 := ⟨more - 1, by omega⟩
    rw [run_succ] at h ⊢
    split
    · rename_i s' hs
      rw [hs] at h
      exact ih h (by omega)
    · rename_i s' hs
      rw [hs] at h
      exact h
    · rename_i f hs
      rw [hs] at h
      exact h

/-- A search ends in at most one result. -/
theorem Halts.unique {m : Machine} {s : State} {r r' : Except Failure State} (h : m.Halts s r)
    (h' : m.Halts s r') : r = r' := by
  obtain ⟨n, hn⟩ := h
  obtain ⟨k, hk⟩ := h'
  have hn' := m.run_mono hn (Nat.le_max_left n k)
  have hk' := m.run_mono hk (Nat.le_max_right n k)
  rw [hn'] at hk'
  exact Option.some.inj hk'

end Machine

end Descent
