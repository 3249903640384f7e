import Descent.Unicode.Property

/-!
# Intervals

A set of code points as a list of intervals.  In normal form the intervals increase and neither
overlap nor touch, so that equal sets have equal lists.

Main results:

- `Interval.normal` brings a list into normal form, and `mem_normal` says that it keeps the members.
- `Interval.complement` and `Interval.meet` work on normal forms.
- `Property.intervals` is the normal form of a property.
-/

namespace Descent.Unicode

/-- The code points from `first` to `last`. -/
structure Interval where
  first : Nat
  last : Nat
  deriving DecidableEq, Repr

namespace Interval

/-- Whether a code point is in one of the intervals. -/
def mem (c : Nat) (l : List Interval) : Bool :=
  l.any fun i => i.first ≤ c && c ≤ i.last

@[simp]
theorem mem_nil (c : Nat) : mem c [] = false :=
  rfl

@[simp]
theorem mem_cons (c : Nat) (i : Interval) (l : List Interval) :
    mem c (i :: l) = (decide (i.first ≤ c) && decide (c ≤ i.last) || mem c l) :=
  rfl

/-! ## Normal forms -/

/-- Puts an interval before the first one that does not start below it. -/
def insert (i : Interval) : List Interval → List Interval
  | [] => [i]
  | j :: rest => if i.first ≤ j.first then i :: j :: rest else j :: insert i rest

/-- Joins intervals that overlap or touch with the one before them. -/
def joinAfter (i : Interval) : List Interval → List Interval
  | [] => [i]
  | j :: rest =>
    if j.first ≤ i.last + 1 then joinAfter ⟨i.first, max i.last j.last⟩ rest
    else i :: joinAfter j rest

/-- Joins the neighbours in an increasing list. -/
def joinAll : List Interval → List Interval
  | [] => []
  | i :: rest => joinAfter i rest

/-- The normal form of a list of intervals; what ends before it starts is left out. -/
def normal (l : List Interval) : List Interval :=
  joinAll ((l.filter fun i => i.first ≤ i.last).foldr insert [])

theorem mem_insert (c : Nat) (i : Interval) (l : List Interval) :
    mem c (insert i l) = mem c (i :: l) := by
  induction l with
  | nil => rfl
  | cons j rest ih =>
    by_cases h : i.first ≤ j.first
    · simp [insert, h]
    · simp only [insert, h, if_false, mem_cons, ih]
      exact Bool.or_left_comm _ _ _

theorem mem_foldr_insert (c : Nat) (l : List Interval) : mem c (l.foldr insert []) = mem c l := by
  induction l with
  | nil => rfl
  | cons i rest ih => simp [mem_insert, ih]

/-- Each interval starts no lower than those before it, and holds something. -/
def Increasing : List Interval → Prop
  | [] => True
  | i :: rest => i.first ≤ i.last ∧ (∀ j ∈ rest, i.first ≤ j.first) ∧ Increasing rest

theorem mem_of_mem_insert {i j : Interval} {l : List Interval} (h : j ∈ insert i l) :
    j = i ∨ j ∈ l := by
  induction l with
  | nil => simpa [insert] using h
  | cons k rest ih =>
    by_cases hk : i.first ≤ k.first
    · simpa [insert, hk] using h
    · simp only [insert, hk, if_false, List.mem_cons] at h
      rcases h with h | h
      · simp [h]
      · rcases ih h with h | h <;> simp [h]

theorem increasing_insert {i : Interval} {l : List Interval} (hi : i.first ≤ i.last)
    (hl : Increasing l) : Increasing (insert i l) := by
  induction l with
  | nil => exact ⟨hi, by simp, trivial⟩
  | cons k rest ih =>
    by_cases hk : i.first ≤ k.first
    · simp only [insert, hk, if_true]
      refine ⟨hi, ?_, hl⟩
      intro j hj
      rcases List.mem_cons.1 hj with rfl | hj
      · exact hk
      · exact Nat.le_trans hk (hl.2.1 j hj)
    · simp only [insert, hk, if_false]
      refine ⟨hl.1, ?_, ih hl.2.2⟩
      intro j hj
      rcases mem_of_mem_insert hj with rfl | hj
      · exact Nat.le_of_lt (Nat.lt_of_not_le hk)
      · exact hl.2.1 j hj

theorem increasing_sort (l : List Interval) :
    Increasing ((l.filter fun i => i.first ≤ i.last).foldr insert []) := by
  induction l with
  | nil => trivial
  | cons i rest ih =>
    by_cases h : i.first ≤ i.last
    · simpa [h] using increasing_insert h ih
    · simpa [h] using ih

theorem mem_joinAfter (c : Nat) (i : Interval) (l : List Interval) (h : Increasing (i :: l)) :
    mem c (joinAfter i l) = mem c (i :: l) := by
  induction l generalizing i with
  | nil => rfl
  | cons j rest ih =>
    obtain ⟨hi, hfirst, hj, hrest, hinc⟩ := h
    by_cases ht : j.first ≤ i.last + 1
    · have hij := hfirst j (by simp)
      rw [joinAfter, if_pos ht, ih]
      · simp only [mem_cons, ← Bool.or_assoc]
        congr 1
        rw [Bool.eq_iff_iff]
        simp only [Bool.and_eq_true, Bool.or_eq_true, decide_eq_true_eq]
        omega
      · refine ⟨?_, ?_, hinc⟩
        · exact Nat.le_trans hi (Nat.le_max_left _ _)
        · exact fun k hk => hfirst k (by simp [hk])
    · rw [joinAfter, if_neg ht, mem_cons, ih j ⟨hj, hrest, hinc⟩]
      rfl

/-- The normal form has the same members. -/
theorem mem_normal (c : Nat) (l : List Interval) : mem c (normal l) = mem c l := by
  have hsort : mem c ((l.filter fun i => i.first ≤ i.last).foldr insert []) = mem c l := by
    rw [mem_foldr_insert]
    induction l with
    | nil => rfl
    | cons i rest ih =>
      by_cases h : i.first ≤ i.last
      · simp [h, ih]
      · simp only [List.filter_cons, h, decide_false, Bool.false_eq_true, if_false, ih, mem_cons]
        rw [Bool.eq_iff_iff]
        simp only [Bool.or_eq_true, Bool.and_eq_true, decide_eq_true_eq]
        constructor
        · exact Or.inr
        · rintro (⟨h1, h2⟩ | h')
          · omega
          · exact h'
  rw [normal, ← hsort]
  have hinc := increasing_sort l
  revert hinc
  generalize (l.filter fun i => i.first ≤ i.last).foldr insert [] = s
  intro hinc
  cases s with
  | nil => rfl
  | cons i rest => exact mem_joinAfter c i rest hinc

/-! ## Operations -/

/-- What lies from `start` up to `top` outside a normal form. -/
def gaps (start top : Nat) : List Interval → List Interval
  | [] => if start ≤ top then [⟨start, top⟩] else []
  | i :: rest =>
    let above := gaps (i.last + 1) top rest
    if start < i.first then ⟨start, i.first - 1⟩ :: above else above

/-- What lies up to `top` outside a normal form. -/
def complement (top : Nat) (l : List Interval) : List Interval :=
  gaps 0 top l

/-- What two normal forms have in common, up to `top`. -/
def meet (top : Nat) (a b : List Interval) : List Interval :=
  complement top (normal (complement top a ++ complement top b))

end Interval

/-! ## Normal forms of properties -/

/-- The intervals of a span: one, or the single steps. -/
def Span.intervals (s : Span) : List Interval :=
  if s.stride == 1 then [⟨s.first, s.last⟩]
  else (List.range ((s.last - s.first) / s.stride + 1)).map fun i =>
    ⟨s.first + i * s.stride, s.first + i * s.stride⟩

/-- The intervals of spans in increasing order.  No code point belongs to a span that comes after one that starts
above it, and from one span on `low` is where the spans so far start. -/
def Span.allIntervals (low : Nat) : List Span → List Interval
  | [] => []
  | s :: rest =>
    let low := max low s.first
    (s.intervals.map fun i => ⟨max low i.first, min i.last s.last⟩) ++ allIntervals low rest

/-- The greatest code point. -/
def lastCodePoint : Nat :=
  0x10FFFF

/-- The normal form of a property. -/
def Property.intervals : Property → List Interval
  | .categories gs => Interval.normal (gs.flatMap fun g => Span.allIntervals 0 g.spans)
  | .unassigned =>
    Interval.complement lastCodePoint
      (Interval.normal (assigned.flatMap fun g => Span.allIntervals 0 g.spans))
  | .spans l => Interval.normal (Span.allIntervals 0 l)
  | .either a b => Interval.normal (a.intervals ++ b.intervals)
  | .except a b =>
    Interval.meet lastCodePoint a.intervals (Interval.complement lastCodePoint b.intervals)

end Descent.Unicode
