import Descent.Pattern.CharSet
import Descent.Proofs.Unicode.Variants

/-!
# Members of sets of characters

The intervals of a set are its members, whatever operations it is written with.

Main results:

- `CharSet.mem_intervals`: the intervals of a set hold its members.
- `CharSet.mem_charIntervals`: the intervals of a set of characters hold those that are members.
-/

namespace Descent.Pattern.CharSet

open Unicode (Interval lastCodePoint)

variable {s : CharSet} {c : Nat}

theorem separated_intervals (s : CharSet) : Interval.Separated s.intervals := by
  cases s with
  | none => exact Interval.separated_nil
  | range first last | union a b | folded a | asciiFolded a => exact Interval.separated_normal _
  | property p => exact p.separated_intervals
  | inter a b => exact Interval.separated_meet _ _
  | compl a => exact Interval.separated_complement (separated_intervals a)

theorem mem_singles (c : Nat) (cs : List Nat) :
    Interval.mem c (cs.map fun d => (⟨d, d⟩ : Interval)) = decide (c ∈ cs) := by
  rw [Bool.eq_iff_iff, Interval.mem_eq_true_iff, decide_eq_true_eq]
  constructor
  · rintro ⟨_, hi, hle, hge⟩
    rcases List.mem_map.1 hi with ⟨d, hd, rfl⟩
    obtain rfl : c = d := Nat.le_antisymm hge hle
    exact hd
  · intro hc
    exact ⟨⟨c, c⟩, List.mem_map_of_mem hc, Nat.le_refl c, Nat.le_refl c⟩

/-! ## Change of case -/

theorem swapCase_le (hc : c ≤ lastCodePoint) : swapCase c ≤ lastCodePoint := by
  have hlast : lastCodePoint = 0x10FFFF := rfl
  unfold swapCase
  split
  · rename_i hupper
    simp only [Bool.and_eq_true, decide_eq_true_eq] at hupper
    omega
  · split
    · omega
    · exact hc

theorem swapCase_of_le (h : 0x80 ≤ c) : swapCase c = c := by
  unfold swapCase
  rw [if_neg, if_neg]
  · simp only [Bool.and_eq_true, decide_eq_true_eq]
    omega
  · simp only [Bool.and_eq_true, decide_eq_true_eq]
    omega

/-- A code point with further variants is among those that fold or are folded to. -/
theorem mem_casePoints {v : Nat} (h : v ∈ Unicode.variants c) (hne : v ≠ c) : v ∈ casePoints := by
  have hrule {d : Nat} {r : Unicode.FoldRule} (hr : r ∈ Unicode.foldRules)
      (hcovers : r.span.covers d = true) :
      d ∈ casePoints ∧ ((d : Int) + r.offset).toNat ∈ casePoints := by
    rcases Unicode.Span.covers_iff.1 hcovers with ⟨hfirst, hlast, -⟩
    have hmem := Unicode.Span.mem_intervals hfirst hlast
    rw [hcovers] at hmem
    rcases Interval.mem_eq_true_iff.1 hmem with ⟨i, hi, hle, hge⟩
    have hstep : i.first + (d - i.first) = d := by omega
    unfold casePoints
    simp only [List.mem_flatMap, List.mem_range]
    constructor
    · refine ⟨r, hr, i, hi, d - i.first, by omega, ?_⟩
      rw [hstep]
      exact List.mem_cons_self
    · refine ⟨r, hr, i, hi, d - i.first, by omega, ?_⟩
      rw [hstep]
      exact List.mem_cons_of_mem _ List.mem_cons_self
  rcases Unicode.fold_cases v with ⟨r, hr, hcovers, -, -⟩ | hv
  · exact (hrule hr hcovers).1
  · -- What folds to itself is what the other one folds to.
    rw [Unicode.mem_variants_iff, hv] at h
    rcases Unicode.fold_cases c with ⟨r, hr, hcovers, heq, -⟩ | hc
    · have hmem := (hrule hr hcovers).2
      rwa [← heq, Int.toNat_natCast, ← h] at hmem
    · exact absurd (h.trans hc) hne

/-! ## All sets -/

/-- The intervals of a set hold its members. -/
theorem mem_intervals (s : CharSet) (hc : c ≤ lastCodePoint) : Interval.mem c s.intervals = s.mem c := by
  induction s generalizing c with
  | none => rfl
  | range first last =>
    rw [intervals, Interval.mem_normal, mem]
    simp
  | property p => exact p.mem_intervals hc
  | union a b iha ihb => rw [intervals, Interval.mem_normal, Interval.mem_append, iha hc, ihb hc, mem]
  | inter a b iha ihb =>
    rw [intervals, Interval.mem_meet (separated_intervals a) (separated_intervals b) hc, iha hc, ihb hc, mem]
  | compl a ih => rw [intervals, Interval.mem_complement (separated_intervals a) hc, ih hc, mem]
  | folded a ih =>
    rw [intervals, Interval.mem_normal, Interval.mem_append, mem_singles, mem, Bool.eq_iff_iff]
    simp only [Bool.or_eq_true, decide_eq_true_eq, List.mem_flatMap, List.mem_filter, List.any_eq_true]
    constructor
    · rintro (hmem | ⟨v, ⟨-, hv⟩, hvariant⟩)
      · exact ⟨c, Unicode.self_mem_variants c, by rwa [← ih hc]⟩
      · rw [Unicode.mem_variants_comm] at hvariant
        exact ⟨v, hvariant, by rwa [← ih (Unicode.le_of_mem_variants hc hvariant)]⟩
    · rintro ⟨v, hvariant, hv⟩
      rw [← ih (Unicode.le_of_mem_variants hc hvariant)] at hv
      by_cases heq : v = c
      · exact .inl (heq ▸ hv)
      · exact .inr ⟨v, ⟨mem_casePoints hvariant heq, hv⟩, Unicode.mem_variants_comm.1 hvariant⟩
  | asciiFolded a ih =>
    rw [intervals, Interval.mem_normal, Interval.mem_append, mem_singles, mem, ih hc]
    by_cases hlow : c < 0x80
    · have hmem : c ∈ (List.range 0x80).filter (fun d => Interval.mem (swapCase d) a.intervals) ↔
          a.mem (swapCase c) = true := by
        rw [List.mem_filter, List.mem_range, ih (swapCase_le hc)]
        exact and_iff_right hlow
      congr 1
      rw [Bool.eq_iff_iff, decide_eq_true_eq, hmem]
    · have hmem : c ∉ (List.range 0x80).filter (fun d => Interval.mem (swapCase d) a.intervals) := by
        simp [hlow]
      rw [swapCase_of_le (Nat.le_of_not_lt hlow)]
      simp [hmem]

/-- The intervals of a set of characters hold the characters that are members. -/
theorem mem_charIntervals (s : CharSet) (ch : Char) :
    Interval.mem ch.toNat s.charIntervals = s.mem ch.toNat := by
  have hvalid : ch.toNat < 0xD800 ∨ 0xDFFF < ch.toNat ∧ ch.toNat < 0x110000 := ch.valid
  have hle : ch.toNat ≤ lastCodePoint := by
    have : lastCodePoint = 0x10FFFF := rfl
    omega
  have hscalar : Interval.Separated [⟨0, 0xD7FF⟩, ⟨0xE000, lastCodePoint⟩] := by
    simp [Interval.separated_cons_iff, Interval.separated_nil, lastCodePoint]
  rw [charIntervals, Interval.mem_meet (separated_intervals s) hscalar hle, mem_intervals s hle]
  have hmem : Interval.mem ch.toNat [⟨0, 0xD7FF⟩, ⟨0xE000, lastCodePoint⟩] = true := by
    simp only [Interval.mem_cons, Interval.mem_nil, Bool.or_false, Bool.or_eq_true, Bool.and_eq_true,
      decide_eq_true_eq]
    omega
  rw [hmem, Bool.and_true]

/-- A set of characters whose intervals end below 0x80 holds no other characters. -/
theorem lt_of_mem_of_all_lt (h : s.charIntervals.all (·.last < 0x80) = true) {ch : Char}
    (hmem : s.mem ch.toNat = true) : ch.toNat < 0x80 := by
  rw [← mem_charIntervals, Interval.mem_eq_true_iff] at hmem
  rcases hmem with ⟨i, hi, -, hle⟩
  have := List.all_eq_true.1 h i hi
  rw [decide_eq_true_eq] at this
  omega

end Descent.Pattern.CharSet
