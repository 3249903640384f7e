/-!
# One item of lookahead

A sequence read item by item, with the number of items already read and a view of the next one.

Main results:

- `Lookahead.advance` moves on; past the end it does nothing.
- `Lookahead.current_advance`: the item seen ahead becomes the current one.
-/

namespace Descent

/-- The items from the current one on, and how many came before. -/
structure Lookahead (α : Type) where
  remaining : List α
  key : Nat
  deriving Repr

namespace Lookahead

variable {α : Type}

/-- Starts at the first item. -/
def ofList (items : List α) : Lookahead α :=
  ⟨items, 0⟩

/-- The current item; none past the end. -/
def current (l : Lookahead α) : Option α :=
  l.remaining.head?

/-- The item after the current one. -/
def peek (l : Lookahead α) : Option α :=
  l.remaining[1]?

/-- Whether an item follows the current one. -/
def hasNext (l : Lookahead α) : Bool :=
  l.peek.isSome

/-- Moves on to the next item. -/
def advance (l : Lookahead α) : Lookahead α :=
  match l.remaining with
  | [] => l
  | _ :: rest => ⟨rest, l.key + 1⟩

@[simp]
theorem current_advance (l : Lookahead α) : l.advance.current = l.peek := by
  unfold advance current peek
  split <;> simp_all [List.head?_eq_getElem?]

end Lookahead

end Descent
