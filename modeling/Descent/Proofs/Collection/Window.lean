import Descent.Collection.Window

/-!
# Windows over a sequence

A window is described by two numbers: how many items of the sequence were pulled so far, and how
many lie before or under the cursor.  The items that are kept are the last ones pulled, as many as
fit.

Main results:

- `Window.Covers` ties a window to its sequence and the two numbers.
- `Window.Covers.current`: the item under the cursor is the one at its place in the sequence.
- `Window.Covers.advance_eq` and `Window.Covers.previous` say what a move does to the two numbers.
- `Window.index` reads the place of the cursor in the sequence off the window.
-/

namespace Descent

namespace Window

variable {α : Type}

/-- A window over `items` of which `pulled` were pulled; `reached` of them lie before or under the
cursor.  The cursor is past the items pulled only if there are no more. -/
structure Covers (w : Window α) (items : List α) (pulled reached : Nat) : Prop where
  capacity_pos : 0 < w.capacity
  pulled_le : pulled ≤ items.length
  held_eq : w.held = (items.take pulled).drop (pulled - w.capacity)
  source_eq : w.source = items.drop pulled
  place_eq : pulled - w.capacity + w.place = reached
  reached_le : reached ≤ pulled + 1
  exhausted : reached = pulled + 1 → pulled = items.length

namespace Covers

variable {w : Window α} {items : List α} {pulled reached : Nat}

theorem length_held (h : w.Covers items pulled reached) :
    w.held.length = pulled - (pulled - w.capacity) := by
  rw [h.held_eq]
  simp [Nat.min_eq_left h.pulled_le]

/-- The item under the cursor is the one at its place in the sequence. -/
theorem current (h : w.Covers items pulled reached) (hp : 0 < w.place) :
    w.current = items[reached - 1]? := by
  have hplace := h.place_eq
  have hle := h.reached_le
  obtain ⟨k, hk⟩ : ∃ k, w.place = k + 1 := ⟨w.place - 1, by omega⟩
  have hindex : pulled - w.capacity + k = reached - 1 := by omega
  have hcurrent : w.current = w.held[k]? := by
    simp [Window.current, hk]
  rw [hcurrent, h.held_eq, List.getElem?_drop, hindex]
  by_cases hlt : reached - 1 < pulled
  · exact List.getElem?_take_of_lt hlt
  · have hend : pulled = items.length := h.exhausted (by omega)
    rw [List.getElem?_eq_none (by simp; omega), List.getElem?_eq_none (by omega)]

/-- A cursor that is not before the items kept is on one, unless it is past the last. -/
theorem isValid (h : w.Covers items pulled reached) (hp : 0 < w.place)
    (hr : reached ≤ items.length) : w.isValid = true := by
  have hplace := h.place_eq
  unfold Window.isValid
  rw [h.current hp, List.getElem?_eq_getElem (by omega)]
  rfl

/-- A cursor before the items kept is on none. -/
theorem isValid_of_place (hp : w.place = 0) : w.isValid = false := by
  simp [Window.isValid, Window.current, hp]

/-- When there is nothing more to pull, all items were pulled. -/
theorem eq_length_of_source_nil (h : w.Covers items pulled reached) (hs : w.source = []) :
    pulled = items.length := by
  have hdrop := h.source_eq
  rw [hs] at hdrop
  have hle := List.drop_eq_nil_iff.1 hdrop.symm
  have hpulled := h.pulled_le
  omega

/-- What is pulled next is the item after those that were pulled. -/
theorem take_succ_of_source_cons (h : w.Covers items pulled reached) {x : α} {rest : List α}
    (hs : w.source = x :: rest) :
    pulled < items.length ∧ items.take (pulled + 1) = items.take pulled ++ [x] ∧
      rest = items.drop (pulled + 1) := by
  have hdrop : items.drop pulled = x :: rest := by rw [← h.source_eq, hs]
  refine ⟨?_, ?_, ?_⟩
  · apply Nat.lt_of_not_le
    intro hle
    rw [List.drop_eq_nil_iff.2 hle] at hdrop
    cases hdrop
  · rw [List.take_add_one, ← List.head?_drop, hdrop]
    rfl
  · rw [← List.drop_drop, hdrop]
    rfl

private theorem pull (h : w.Covers items pulled reached) (hr : reached = pulled) :
    w.pull.Covers items (min (pulled + 1) items.length) (reached + 1) := by
  have hcap := h.capacity_pos
  have hlen := h.length_held
  have hplace := h.place_eq
  unfold Window.pull
  rcases hs : w.source with _ | ⟨x, rest⟩
  · have hend := h.eq_length_of_source_nil hs
    rw [show min (pulled + 1) items.length = pulled by omega]
    refine ⟨hcap, h.pulled_le, h.held_eq, ?_, ?_, by omega, fun _ => hend⟩
    · rw [← h.source_eq, hs]
    · show pulled - w.capacity + (w.held.length + 1) = reached + 1
      omega
  · rcases h.take_succ_of_source_cons hs with ⟨hlt, htake, hrest⟩
    have htaken : (items.take pulled).length = pulled := by
      simp [Nat.min_eq_left h.pulled_le]
    rw [Nat.min_eq_left hlt]
    refine ⟨hcap, hlt, ?_, hrest, ?_, by omega, by omega⟩
    · show (if w.held.length = w.capacity then w.held.tail else w.held) ++ [x] =
        (items.take (pulled + 1)).drop (pulled + 1 - w.capacity)
      rw [htake, List.drop_append_of_le_length (by omega)]
      congr 1
      split
      · rw [h.held_eq, List.tail_drop]
        congr 1
        omega
      · rw [h.held_eq]
        congr 1
        omega
    · show pulled + 1 - w.capacity +
        ((if w.held.length = w.capacity then w.held.tail else w.held).length + 1) = reached + 1
      split
      · rw [List.length_tail]
        omega
      · omega

/-- Moving on from an item that was pulled reaches one more, and pulls it if there is one and it was
not pulled before. -/
theorem advance_eq (h : w.Covers items pulled reached) (hr : reached ≤ pulled) :
    w.advance.Covers items (max pulled (min (reached + 1) items.length)) (reached + 1) := by
  have hlen := h.length_held
  have hplace := h.place_eq
  have hle := h.pulled_le
  unfold Window.advance
  by_cases hlt : w.place < w.held.length
  · rw [if_pos hlt, show max pulled (min (reached + 1) items.length) = pulled by omega]
    refine ⟨h.capacity_pos, hle, h.held_eq, h.source_eq, ?_, by omega, by omega⟩
    show pulled - w.capacity + (w.place + 1) = reached + 1
    omega
  · have hend : reached = pulled := by omega
    have hmore := h.pull hend
    rw [if_neg hlt, if_pos (by omega), show max pulled (min (reached + 1) items.length) =
      min (pulled + 1) items.length by omega]
    exact hmore

/-- Moving on from an item that was pulled reaches one more. -/
theorem advance (h : w.Covers items pulled reached) (hr : reached ≤ pulled) :
    ∃ more, w.advance.Covers items more (reached + 1) :=
  ⟨_, h.advance_eq hr⟩

/-- A cursor that is not before the items kept is not so after moving on. -/
theorem place_advance_pos (hp : 0 < w.place) : 0 < w.advance.place := by
  unfold Window.advance
  split
  · exact Nat.succ_pos _
  · split
    · unfold Window.pull
      split <;> exact Nat.succ_pos _
    · exact hp

/-- Moving back from an item reaches one less. -/
theorem previous (h : w.Covers items pulled (reached + 1)) (hp : 0 < w.place) :
    w.previous.Covers items pulled reached := by
  have hplace := h.place_eq
  have hle := h.reached_le
  refine ⟨h.capacity_pos, h.pulled_le, h.held_eq, h.source_eq, ?_, by omega, by omega⟩
  show pulled - w.capacity + (w.place - 1) = reached
  omega

/-- A window that keeps as many items as there are has dropped none. -/
theorem place_of_roomy (h : w.Covers items pulled reached) (hroom : items.length ≤ w.capacity) :
    w.place = reached := by
  have hplace := h.place_eq
  have hle := h.pulled_le
  omega

end Covers

/-- The number of items of a sequence before the one under the cursor, given how many there are in all.
Before the first item it is one less than none. -/
def index (w : Window α) (total : Nat) : Int :=
  (total - w.source.length - w.held.length + w.place : Nat) - 1

theorem Covers.index_eq {w : Window α} {items : List α} {pulled reached : Nat}
    (h : w.Covers items pulled reached) : w.index items.length = (reached : Int) - 1 := by
  have hsource : w.source.length = items.length - pulled := by
    rw [h.source_eq, List.length_drop]
  have hheld := h.length_held
  have hplace := h.place_eq
  have hle := h.pulled_le
  unfold index
  omega

/-- A window stands on the first item when it is made ready, and has pulled no other. -/
theorem covers_rewind_fresh_eq (items : List α) (capacity : Nat) :
    (fresh items capacity).rewind.Covers items (min 1 items.length) 1 := by
  have hbase : (fresh items capacity).Covers items 0 0 := by
    refine ⟨?_, Nat.zero_le _, ?_, ?_, ?_, by omega, by omega⟩
    · show 0 < max capacity 1
      omega
    · simp [fresh]
    · simp [fresh]
    · simp [fresh]
  have hfirst := hbase.advance_eq (Nat.le_refl 0)
  rw [Nat.zero_max] at hfirst
  exact hfirst

/-- A window stands on the first item when it is made ready. -/
theorem covers_rewind_fresh (items : List α) (capacity : Nat) :
    ∃ pulled, (fresh items capacity).rewind.Covers items pulled 1 :=
  ⟨_, covers_rewind_fresh_eq items capacity⟩

/-- A window that is made ready does not stand before its items. -/
theorem place_rewind_pos (w : Window α) : 0 < w.rewind.place := by
  unfold rewind
  split
  · rename_i hempty
    rw [List.isEmpty_iff] at hempty
    unfold advance
    rw [if_neg (by simp [hempty]), if_pos (by simp [hempty])]
    unfold pull
    split <;> exact Nat.succ_pos _
  · exact Nat.one_pos

@[simp]
theorem capacity_fresh (items : List α) (capacity : Nat) :
    (fresh items capacity).capacity = max capacity 1 :=
  rfl

@[simp]
theorem capacity_rewind (w : Window α) : w.rewind.capacity = w.capacity := by
  unfold rewind
  split
  · exact capacity_advance _
  · rfl

end Window

end Descent
