import Descent.Pattern.Basic

/-!
# Matching

A pattern is matched at one position by following all ways through it at once, in order of
preference.  A way is the list of frames still to be passed; at each position every list is
opened at most once, by the most preferred way that reaches it.  Opening goes on until a frame
takes an octet or nothing is left, in which case the pattern has matched and all less preferred
ways are dropped.

Repeating is bounded without counting copies: a frame that may repeat is opened again only after
the position has moved, because the same list at the same position is opened once.

Main results:

- `Node.matchLength?` is the length of the preferred match at a position.
- `Node.matchLength?_le`: a match does not run beyond the end of the text.
-/

namespace Descent.Pattern

/-- What is still to be passed on a way through a pattern. -/
inductive Frame where
  | node (a : Node)
  /-- Pass a pattern that may be repeated any number of times, or go on. -/
  | again (a : Node) (greedy : Bool)
  /-- The end of one of two alternatives; it tells their ends apart. -/
  | join (second : Bool)
  deriving DecidableEq, Repr

/-- The frames still to be passed, the next one first. -/
abbrev Way := List Frame

/-- A way that goes on once `owed` more octets have passed. -/
structure Thread where
  owed : Nat
  way : Way
  deriving DecidableEq, Repr

/-- What a position leads to: the threads for the next one by preference, the ways opened here, and
whether the pattern has matched. -/
structure Front where
  threads : List Thread
  opened : List Way
  matched : Bool
  deriving Repr

/-- Two ways in order of preference: staying in a repetition first if it is greedy. -/
def prefer (greedy : Bool) (stay leave : Way) : List Way :=
  if greedy then [stay, leave] else [leave, stay]

/-- The ways on which a repetition goes on. -/
def repeatWays (a : Node) (min : Nat) (max : Option Nat) (greedy : Bool) (k : Way) : List Way :=
  match min, max with
  | 0, some 0 => [k]
  | 0, some (m + 1) => prefer greedy (.node a :: .node (.repeated a 0 (some m) greedy) :: k) k
  | 0, none => [.again a greedy :: k]
  | 1, none => [.node a :: .again a greedy :: k]
  | n + 1, max => [.node a :: .node (.repeated a n (max.map (· - 1)) greedy) :: k]

/-- What the first frame of a way does at a position. -/
inductive Opening where
  /-- Nothing is left to pass. -/
  | matched
  /-- The ways to go on, by preference. -/
  | ways (next : List Way)
  /-- The frame takes octets. -/
  | taken (t : Thread)

/-- Opens a way between the octets before, nearest first, and those after. -/
def Opening.ofWay (before after : List UInt8) : Way → Opening
  | [] => .matched
  | .join _ :: k => .ways [k]
  | .again a greedy :: k => .ways (prefer greedy (.node a :: .again a greedy :: k) k)
  | .node a :: k =>
    match a with
    | .empty => .ways [k]
    | .look l => .ways (if l.holds before after then [k] else [])
    | .seq a b => .ways [.node a :: .node b :: k]
    | .alt a b => .ways [.node a :: .join false :: k, .node b :: .join true :: k]
    | .repeated a min max greedy => .ways (repeatWays a min max greedy k)
    | .group _ a => .ways [.node a :: k]
    | .char s =>
      match Text.charAfter? after with
      | some (c, width) => if s.mem c.toNat then .taken ⟨width - 1, k⟩ else .ways []
      | none => .ways []
    | .octet s =>
      match after with
      | b :: _ => if s.mem b.toNat then .taken ⟨0, k⟩ else .ways []
      | [] => .ways []

/-- Opens ways by preference, each at most once, until one has nothing left to pass. -/
def openWays (before after : List UInt8) : (fuel : Nat) → List Way → Front → Front
  | _, [], f => f
  | 0, _ :: _, f => f
  | fuel + 1, w :: pending, f =>
    if f.opened.contains w then openWays before after fuel pending f
    else
      let f := { f with opened := w :: f.opened }
      match Opening.ofWay before after w with
      | .matched => { f with matched := true }
      | .ways next => openWays before after fuel (next ++ pending) f
      | .taken t => openWays before after fuel pending { f with threads := f.threads ++ [t] }

/-- Settles the threads that reach a position, by preference; a match drops the rest. -/
def settle (before after : List UInt8) (fuel : Nat) : List Thread → Front → Front
  | [], f => f
  | t :: rest, f =>
    match t.owed with
    | owed + 1 => settle before after fuel rest { f with threads := f.threads ++ [⟨owed, t.way⟩] }
    | 0 =>
      let f := openWays before after fuel [t.way] f
      if f.matched then f else settle before after fuel rest f

/-- Follows threads through the octets after a position.  `length` counts the octets taken, and
`best` is the preferred match so far. -/
def follow (fuel : Nat) (before after : List UInt8) (threads : List Thread) (length : Nat)
    (best : Option Nat) : Option Nat :=
  let f := settle before after fuel threads ⟨[], [], false⟩
  let best := if f.matched then some length else best
  match after with
  | [] => best
  | b :: rest =>
    if f.threads.isEmpty then best else follow fuel (b :: before) rest f.threads (length + 1) best

/-- A bound on the number of different ways that start at a pattern: one for each place in it, and
for a counted repetition for each count. -/
def Node.weight : Node → Nat
  | .empty | .char _ | .octet _ | .look _ => 1
  | .seq a b => a.weight + b.weight + 1
  | .alt a b => a.weight + b.weight + 3
  | .group _ a => a.weight + 1
  | .repeated a min max _ => (Nat.max min (max.getD 0) + 2) * (a.weight + 2)

/-- The number of octets that a pattern matches between the octets before, nearest first, and those
after; of several matches the preferred one counts.  Each way is opened once at a position and
leads to at most two, which bounds the fuel. -/
def Node.matchLength? (a : Node) (before after : List UInt8) : Option Nat :=
  follow (2 * a.weight + 3) before after [⟨0, [.node a]⟩] 0 none

private theorem follow_le (fuel : Nat) (before after : List UInt8) (threads : List Thread)
    (length : Nat) (best : Option Nat) (n : Nat) (hb : ∀ m, best = some m → m ≤ length)
    (h : follow fuel before after threads length best = some n) : n ≤ length + after.length := by
  induction after generalizing before threads length best with
  | nil =>
    unfold follow at h
    dsimp only at h
    simp only [List.length_nil, Nat.add_zero]
    split at h
    · exact Nat.le_of_eq (Option.some.inj h).symm
    · exact hb n h
  | cons b rest ih =>
    unfold follow at h
    have hb' : ∀ m, (if (settle before (b :: rest) fuel threads ⟨[], [], false⟩).matched
        then some length else best) = some m → m ≤ length := by
      intro m hm
      split at hm
      · exact Nat.le_of_eq (Option.some.inj hm).symm
      · exact hb m hm
    simp only [List.length_cons]
    simp only at h
    split at h
    · exact Nat.le_trans (hb' n h) (Nat.le_add_right _ _)
    · have := ih _ _ _ _ (fun m hm => Nat.le_succ_of_le (hb' m hm)) h
      omega

/-- A match does not run beyond the end of the text. -/
theorem Node.matchLength?_le {a : Node} {before after : List UInt8} {n : Nat}
    (h : a.matchLength? before after = some n) : n ≤ after.length := by
  have := follow_le _ _ _ _ _ _ n (by simp) h
  omega

end Descent.Pattern
