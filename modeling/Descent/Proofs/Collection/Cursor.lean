import Descent.Proofs.Collection.Window

/-!
# Windows as cursors over the whole sequence

A window knows only the items that it keeps, and the place of its cursor among them.  Here it is compared
with a cursor that stands at a place of the whole sequence and knows how many items were pulled.  Every
move of the window is the move of such a cursor, in whatever order the moves come.

Main results:

- `Cursor.advance`, `Cursor.previous` and `Cursor.rewind` move a place in the whole sequence.
- `Window.Follows.move`: one move of a window is the same move of its cursor.
- `Window.standsAt_moves`: after any moves a window, if there is room for one, stands at the place of its cursor,
  keeps the items pulled last, and has pulled the items in order, each of them once.
-/

namespace Descent

/-! ## Places in the whole sequence -/

/-- A cursor over a whole sequence: how many items were pulled so far, and the place it stands at.  Places
count from zero; before the first item the place is one less. -/
structure Cursor where
  pulled : Nat
  place : Int
  deriving DecidableEq, Repr

namespace Cursor

/-- A cursor stands before the first item as long as nothing was pulled. -/
def start : Cursor :=
  ⟨0, -1⟩

/-- The place of the oldest item that is kept, if at most `capacity` are. -/
def oldest (c : Cursor) (capacity : Nat) : Nat :=
  c.pulled - min c.pulled capacity

/-- Whether the item at the cursor's place is one of those kept. -/
def OnKept (c : Cursor) (capacity : Nat) : Prop :=
  c.oldest capacity ≤ c.place ∧ c.place < c.pulled

/-- Moves on by one place.  On the newest item that was pulled this pulls the next of the `total` items;
if there is none the cursor comes to stand behind the last, and stays there. -/
def advance (total : Nat) (c : Cursor) : Cursor :=
  let pulled := if c.place + 1 = c.pulled then min (c.pulled + 1) total else c.pulled
  ⟨pulled, min (c.place + 1) pulled⟩

/-- Moves back by one place, at most to the one before the oldest item kept. -/
def previous (capacity : Nat) (c : Cursor) : Cursor :=
  ⟨c.pulled, max (c.place - 1) (c.oldest capacity - 1)⟩

/-- Moves to the oldest item kept.  If nothing was pulled this pulls the first item. -/
def rewind (total capacity : Nat) (c : Cursor) : Cursor :=
  let pulled := if c.pulled = 0 then min 1 total else c.pulled
  ⟨pulled, (pulled - min pulled capacity : Nat)⟩

end Cursor

namespace Window

variable {α : Type}

/-! ## Moves -/

/-- The moves of a window. -/
inductive Move where
  | rewind
  | advance
  | previous
  deriving DecidableEq, Repr

/-- Makes a move. -/
def move (w : Window α) : Move → Window α
  | .rewind => w.rewind
  | .advance => w.advance
  | .previous => w.previous

/-- Makes the same move with a cursor over `total` items, of which at most `capacity` are kept. -/
def Move.shift (total capacity : Nat) (c : Cursor) : Move → Cursor
  | .rewind => c.rewind total capacity
  | .advance => c.advance total
  | .previous => c.previous capacity

@[simp]
theorem capacity_move (w : Window α) (m : Move) : (w.move m).capacity = w.capacity := by
  cases m with
  | rewind => exact capacity_rewind w
  | advance => exact capacity_advance w
  | previous => exact capacity_previous w

theorem capacity_moves (w : Window α) (ms : List Move) :
    (ms.foldl move w).capacity = w.capacity := by
  induction ms generalizing w with
  | nil => rfl
  | cons m ms ih => exact (ih _).trans (capacity_move w m)

/-! ## One move -/

/-- A window over `items` follows a cursor if it has pulled as many items and stands at the same place. -/
def Follows (w : Window α) (items : List α) (c : Cursor) : Prop :=
  ∃ reached : Nat, w.Covers items c.pulled reached ∧ c.place = (reached : Int) - 1

namespace Follows

variable {w : Window α} {items : List α} {c : Cursor}

/-- Behind the last item the cursor stays where it is. -/
private theorem advance_eq_self {pulled : Nat} (h : w.Covers items pulled (pulled + 1)) :
    w.advance = w := by
  have hlen := h.length_held
  have hplace := h.place_eq
  unfold Window.advance
  rw [if_neg (by omega), if_neg (by omega)]

protected theorem advance (h : w.Follows items c) : w.advance.Follows items (c.advance items.length) := by
  rcases h with ⟨reached, hcovers, hplace⟩
  have hle := hcovers.pulled_le
  unfold Cursor.advance
  rcases Nat.lt_or_eq_of_le hcovers.reached_le with hr | rfl
  · have hmore := hcovers.advance_eq (Nat.le_of_lt_succ hr)
    have hpulled : (if c.place + 1 = c.pulled then min (c.pulled + 1) items.length else c.pulled) =
        max c.pulled (min (reached + 1) items.length) := by
      split <;> omega
    refine ⟨reached + 1, ?_, ?_⟩
    · rw [hpulled]
      exact hmore
    · dsimp only
      rw [hpulled]
      omega
  · rw [advance_eq_self hcovers, if_neg (by omega)]
    exact ⟨c.pulled + 1, hcovers, by dsimp only; omega⟩

protected theorem previous (h : w.Follows items c) :
    w.previous.Follows items (c.previous w.capacity) := by
  rcases h with ⟨reached, hcovers, hplace⟩
  have hstand := hcovers.place_eq
  unfold Cursor.previous Cursor.oldest
  rcases Nat.eq_zero_or_pos w.place with hzero | hpos
  · have hsame : w.previous = w := by
      unfold Window.previous
      rw [hzero, Nat.zero_sub, ← hzero]
    rw [hsame]
    exact ⟨reached, hcovers, by dsimp only; omega⟩
  · obtain ⟨before, rfl⟩ : ∃ before, reached = before + 1 := ⟨reached - 1, by omega⟩
    exact ⟨before, hcovers.previous hpos, by dsimp only; omega⟩

protected theorem rewind (h : w.Follows items c) :
    w.rewind.Follows items (c.rewind items.length w.capacity) := by
  rcases h with ⟨reached, hcovers, -⟩
  have hcap := hcovers.capacity_pos
  have hlen := hcovers.length_held
  unfold Window.rewind Cursor.rewind
  dsimp only
  by_cases hzero : c.pulled = 0
  · have hempty : w.held = [] := List.length_eq_zero_iff.1 (by omega)
    rw [if_pos hzero, if_pos (by simp [hempty])]
    have hfront : { w with place := 0 }.Covers items 0 0 := by
      refine ⟨hcap, Nat.zero_le _, by simp [hempty], ?_, by simp, by omega, by omega⟩
      rw [← hzero]
      exact hcovers.source_eq
    have hfirst := hfront.advance_eq (Nat.le_refl 0)
    rw [Nat.zero_max] at hfirst
    exact ⟨1, hfirst, by dsimp only; omega⟩
  · have hsome : ¬w.held.isEmpty = true := by
      rw [List.isEmpty_iff, ← List.length_eq_zero_iff]
      omega
    rw [if_neg hzero, if_neg hsome]
    have holdest : { w with place := 1 }.Covers items c.pulled (c.pulled - w.capacity + 1) :=
      ⟨hcap, hcovers.pulled_le, hcovers.held_eq, hcovers.source_eq, rfl, by omega, by omega⟩
    exact ⟨c.pulled - w.capacity + 1, holdest, by dsimp only; omega⟩

/-- One move of a window is the same move of its cursor. -/
protected theorem move (h : w.Follows items c) (m : Move) :
    (w.move m).Follows items (m.shift items.length w.capacity c) := by
  cases m with
  | rewind => exact h.rewind
  | advance => exact h.advance
  | previous => exact h.previous

/-- Any moves of a window are the same moves of its cursor. -/
theorem moves (h : w.Follows items c) (ms : List Move) :
    (ms.foldl move w).Follows items (ms.foldl (Move.shift items.length w.capacity) c) := by
  induction ms generalizing w c with
  | nil => exact h
  | cons m ms ih =>
    have hrest := ih (h.move m)
    rw [capacity_move] at hrest
    exact hrest

end Follows

theorem follows_fresh (items : List α) (capacity : Nat) :
    (fresh items capacity).Follows items .start := by
  refine ⟨0, ⟨?_, Nat.zero_le _, ?_, rfl, ?_, by omega, by omega⟩, rfl⟩
  · show 0 < max capacity 1
    omega
  · simp [fresh, Cursor.start]
  · simp [fresh, Cursor.start]

/-! ## Any moves -/

/-- What a window over `items` that keeps at most `capacity` of them shows of the cursor that it
stands for. -/
structure StandsAt (w : Window α) (items : List α) (capacity : Nat) (c : Cursor) : Prop where
  /-- Items were pulled in order, and each one once. -/
  source_eq : c.pulled ≤ items.length ∧ w.source = items.drop c.pulled
  /-- Those pulled last are kept. -/
  held_eq : w.held = (items.take c.pulled).drop (c.oldest capacity)
  /-- The cursor is at most one place before the items kept. -/
  oldest_le : (c.oldest capacity : Int) - 1 ≤ c.place
  /-- The cursor is at most one place behind the items kept. -/
  place_le : c.place ≤ c.pulled
  /-- The cursor is on an item just if the one at its place is kept. -/
  isValid_iff : w.isValid = true ↔ c.OnKept capacity
  /-- That item is then the one at its place in the sequence. -/
  current_eq : c.OnKept capacity → w.current = items[c.place.toNat]?

theorem Follows.standsAt {w : Window α} {items : List α} {c : Cursor} (h : w.Follows items c) :
    w.StandsAt items w.capacity c := by
  rcases h with ⟨reached, hcovers, hplace⟩
  have hcap := hcovers.capacity_pos
  have hpulled := hcovers.pulled_le
  have hstand := hcovers.place_eq
  have hle := hcovers.reached_le
  have holdest : c.oldest w.capacity = c.pulled - w.capacity := by
    unfold Cursor.oldest
    omega
  have hkept : c.OnKept w.capacity ↔ 0 < w.place ∧ reached ≤ c.pulled := by
    unfold Cursor.OnKept
    omega
  refine ⟨⟨hpulled, hcovers.source_eq⟩, ?_, by omega, ?_, ?_, ?_⟩
  · rw [holdest]
    exact hcovers.held_eq
  · omega
  · rw [hkept]
    constructor
    · intro hvalid
      have hpos : 0 < w.place := by
        refine Nat.pos_of_ne_zero fun hzero => ?_
        rw [Covers.isValid_of_place hzero] at hvalid
        cases hvalid
      unfold isValid at hvalid
      rw [hcovers.current hpos, isSome_getElem?] at hvalid
      refine ⟨hpos, Nat.le_of_lt_succ (Nat.lt_of_le_of_ne hle fun hend => ?_)⟩
      have hall := hcovers.exhausted hend
      omega
    · rintro ⟨hpos, hr⟩
      exact hcovers.isValid hpos (Nat.le_trans hr hpulled)
  · intro hon
    have hindex : c.place.toNat = reached - 1 := by omega
    rw [hindex]
    exact hcovers.current (hkept.1 hon).1

/-- There is no window just if the items that it may keep take more octets than fit into memory.  After any moves,
a window that keeps at most `capacity` items, one at least, stands at the place to which the same moves bring a cursor
over the whole sequence. -/
theorem standsAt_moves (itemSize : Nat) (items : List α) (capacity : Nat) :
    (ofList itemSize items capacity = none ↔ maxOctets < itemSize * max capacity 1) ∧
      ∀ w ∈ ofList itemSize items capacity, ∀ ms : List Move,
        (ms.foldl move w).StandsAt items (max capacity 1)
          (ms.foldl (Move.shift items.length (max capacity 1)) .start) := by
  constructor
  · simp [ofList, fits]
  · intro w hw ms
    obtain rfl : fresh items capacity = w := Option.some.inj (Option.ite_none_right_eq_some.1 hw).2
    have hstands := ((follows_fresh items capacity).moves ms).standsAt
    rw [capacity_moves, capacity_fresh] at hstands
    exact hstands

/-- Two items, each of a machine word, have no window that may keep as many items as memory has octets. -/
theorem no_window_of_maxOctets : ofList 8 [1, 2] maxOctets = none :=
  rfl

/-- The third item pushes the first one out, so the cursor cannot go back to it. -/
example : ([.rewind, .advance, .advance, .previous, .previous].foldl move
    (fresh [10, 20, 30] 2)).current = none := by
  decide

end Window

end Descent
