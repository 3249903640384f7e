/-!
# Stacks

A persistent stack: taking a copy costs nothing, so a search may keep one at every decision.

Main results:

- `Stack.push` and `Stack.pop?` undo each other (`pop?_push`).
- `Stack.render` shows the items from the top down.
-/

namespace Descent

/-- Items from the top down. -/
structure Stack (α : Type) where
  items : List α
  deriving DecidableEq, Repr

namespace Stack

variable {α : Type}

/-- The stack without items. -/
def empty : Stack α :=
  ⟨[]⟩

/-- Puts an item on top. -/
def push (s : Stack α) (x : α) : Stack α :=
  ⟨x :: s.items⟩

/-- The top item and the stack below it. -/
def pop? (s : Stack α) : Option (α × Stack α) :=
  match s.items with
  | [] => none
  | x :: rest => some (x, ⟨rest⟩)

/-- The top item. -/
def peek? (s : Stack α) : Option α :=
  s.items.head?

/-- The stack below the top item; nothing is below an empty one. -/
def drop (s : Stack α) : Stack α :=
  ⟨s.items.tail⟩

/-- The number of items. -/
def size (s : Stack α) : Nat :=
  s.items.length

/-- Whether there is no item. -/
def isEmpty (s : Stack α) : Bool :=
  s.items.isEmpty

/-- The items from the top down. -/
def toList (s : Stack α) : List α :=
  s.items

/-- Shows the items from the top down, in brackets. -/
def render (s : Stack α) (item : α → String) : String :=
  "[" ++ ", ".intercalate (s.items.map item) ++ "]"

@[simp]
theorem pop?_push (s : Stack α) (x : α) : (s.push x).pop? = some (x, s) :=
  rfl

theorem eq_push_of_pop? {s t : Stack α} {x : α} (h : s.pop? = some (x, t)) : s = t.push x := by
  obtain ⟨items⟩ := s
  cases items with
  | nil => cases h
  | cons y rest =>
    cases h
    rfl

@[simp]
theorem drop_push (s : Stack α) (x : α) : (s.push x).drop = s :=
  rfl

@[simp]
theorem toList_push (s : Stack α) (x : α) : (s.push x).toList = x :: s.toList :=
  rfl

@[simp]
theorem size_push (s : Stack α) (x : α) : (s.push x).size = s.size + 1 :=
  rfl

end Stack

end Descent
