/-!
# Bounded windows

A window is a cursor over a sequence that keeps a bounded number of the items it has pulled.
Moving past the newest kept item pulls the next one and drops the oldest when the window is full;
moving back before the oldest leaves the cursor on no item.  Room for all items that it may keep is
taken when a window is made; if there is no such room there is no window.

Main results:

- `Window.ofList` makes a window if it fits into memory, and `Window.fresh` is the window made.
- `Window.rewind`, `Window.advance` and `Window.previous` move the cursor.
- `Window.held_length_le`: a window that keeps no more items than its capacity still does so after
  a move.
-/

namespace Descent

/-- A cursor over pulled items, oldest first, and the items still to come.  Place `0` stands before
the oldest kept item and place `k` on the `k`-th; one place further is past an exhausted source. -/
structure Window (α : Type) where
  capacity : Nat
  source : List α
  held : List α
  place : Nat
  deriving Repr

/-- The number of octets that one stretch of memory may have. -/
def maxOctets : Nat :=
  Nat.pow 2 63 - 1

namespace Window

variable {α : Type}

/-- Whether there is room for the items that a window of a capacity may keep, when each takes
`itemSize` octets; every window keeps at least one. -/
def fits (itemSize capacity : Nat) : Bool :=
  itemSize * max capacity 1 ≤ maxOctets

/-- A window over a sequence, with nothing pulled. -/
def fresh (items : List α) (capacity : Nat) : Window α :=
  ⟨max capacity 1, items, [], 0⟩

/-- A window over a sequence, if there is room for it. -/
def ofList (itemSize : Nat) (items : List α) (capacity : Nat) : Option (Window α) :=
  if fits itemSize capacity then some (fresh items capacity) else none

/-- The item under the cursor. -/
def current (w : Window α) : Option α :=
  match w.place with
  | 0 => none
  | k + 1 => w.held[k]?

/-- Whether the cursor is on an item. -/
def isValid (w : Window α) : Bool :=
  w.current.isSome

/-- The number of items kept. -/
def size (w : Window α) : Nat :=
  w.held.length

/-- Pulls the next item and puts the cursor on it, or past the end if there is none. -/
def pull (w : Window α) : Window α :=
  match w.source with
  | [] => { w with place := w.held.length + 1 }
  | x :: rest =>
    let kept := if w.held.length = w.capacity then w.held.tail else w.held
    { w with source := rest, held := kept ++ [x], place := kept.length + 1 }

/-- Moves on by one item; past an exhausted source the cursor stays. -/
def advance (w : Window α) : Window α :=
  if w.place < w.held.length then { w with place := w.place + 1 }
  else if w.place = w.held.length then w.pull
  else w

/-- Moves back by one item, at most to before the oldest. -/
def previous (w : Window α) : Window α :=
  { w with place := w.place - 1 }

/-- Moves to the oldest kept item, pulling the first one if nothing was pulled. -/
def rewind (w : Window α) : Window α :=
  if w.held.isEmpty then { w with place := 0 }.advance else { w with place := 1 }

@[simp]
theorem capacity_pull (w : Window α) : w.pull.capacity = w.capacity := by
  unfold pull
  split <;> rfl

@[simp]
theorem capacity_advance (w : Window α) : w.advance.capacity = w.capacity := by
  unfold advance
  split
  · rfl
  · split <;> simp

@[simp]
theorem capacity_previous (w : Window α) : w.previous.capacity = w.capacity :=
  rfl

@[simp]
theorem held_previous (w : Window α) : w.previous.held = w.held :=
  rfl

/-- Pulling keeps the number of kept items within the capacity. -/
theorem held_length_pull_le (w : Window α) (hc : 0 < w.capacity)
    (h : w.held.length ≤ w.capacity) : w.pull.held.length ≤ w.capacity := by
  unfold pull
  split
  · exact h
  · by_cases hf : w.held.length = w.capacity
    · simp [hf]
      omega
    · simp [hf]
      omega

/-- A move keeps the number of kept items within the capacity. -/
theorem held_length_le (w : Window α) (hc : 0 < w.capacity) (h : w.held.length ≤ w.capacity) :
    w.advance.held.length ≤ w.capacity := by
  unfold advance
  split
  · exact h
  · split
    · exact held_length_pull_le w hc h
    · exact h

end Window

end Descent
