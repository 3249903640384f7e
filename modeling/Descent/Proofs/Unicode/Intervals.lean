import Descent.Unicode.Interval

/-!
# Members of normal forms

The normal forms of sets have the same members as the sets.  Complements are taken between the intervals of a
list, so that they need the intervals apart from each other and in order.

Main results:

- `Interval.Separated` says that intervals increase and do not touch; `Interval.separated_normal` that those
  of a normal form do.
- `Interval.mem_complement` and `Interval.mem_meet` decide membership.
- `Property.mem_intervals`: the normal form of a property holds the code points that have it.
-/

namespace Descent.Unicode

namespace Interval

variable {c start top : Nat} {i : Interval} {l a b : List Interval}

theorem mem_append (c : Nat) (l m : List Interval) : mem c (l ++ m) = (mem c l || mem c m) :=
  List.any_append

theorem mem_flatMap {α : Type} (c : Nat) (xs : List α) (f : α → List Interval) :
    mem c (xs.flatMap f) = xs.any fun x => mem c (f x) := by
  induction xs with
  | nil => rfl
  | cons x xs ih => rw [List.flatMap_cons, mem_append, ih, List.any_cons]

theorem mem_eq_true_iff : mem c l = true ↔ ∃ i ∈ l, i.first ≤ c ∧ c ≤ i.last := by
  simp [mem]

/-- Intervals hold something and increase, and something lies between each and the next. -/
structure Separated (l : List Interval) : Prop where
  first_le_last : ∀ i ∈ l, i.first ≤ i.last
  pairwise : l.Pairwise fun i j => i.last + 1 < j.first

theorem separated_nil : Separated [] :=
  ⟨by simp, .nil⟩

theorem separated_cons_iff :
    Separated (i :: l) ↔ i.first ≤ i.last ∧ (∀ j ∈ l, i.last + 1 < j.first) ∧ Separated l := by
  constructor
  · intro h
    rcases List.pairwise_cons.1 h.pairwise with ⟨hfirst, hrest⟩
    exact ⟨h.first_le_last i List.mem_cons_self, hfirst,
      fun j hj => h.first_le_last j (List.mem_cons_of_mem _ hj), hrest⟩
  · rintro ⟨hi, hfirst, h⟩
    exact ⟨List.forall_mem_cons.2 ⟨hi, h.first_le_last⟩, List.pairwise_cons.2 ⟨hfirst, h.pairwise⟩⟩

theorem separated_joinAfter (h : Increasing (i :: l)) :
    Separated (joinAfter i l) ∧ ∀ j ∈ joinAfter i l, i.first ≤ j.first := by
  induction l generalizing i with
  | nil =>
    refine ⟨separated_cons_iff.2 ⟨h.1, by simp, separated_nil⟩, ?_⟩
    intro j hj
    rcases List.mem_singleton.1 hj with rfl
    exact Nat.le_refl _
  | cons j rest ih =>
    rcases h with ⟨hi, hfirst, hj, hrest, hinc⟩
    rw [joinAfter]
    by_cases htouch : j.first ≤ i.last + 1
    · rw [if_pos htouch]
      apply ih
      refine ⟨Nat.le_trans hi (Nat.le_max_left _ _), ?_, hinc⟩
      exact fun k hk => hfirst k (List.mem_cons_of_mem _ hk)
    · rw [if_neg htouch]
      rcases ih ⟨hj, hrest, hinc⟩ with ⟨hseparated, habove⟩
      refine ⟨separated_cons_iff.2 ⟨hi, ?_, hseparated⟩, ?_⟩
      · intro k hk
        have hle := habove k hk
        omega
      · intro k hk
        rcases List.mem_cons.1 hk with rfl | hk
        · exact Nat.le_refl _
        · exact Nat.le_trans (hfirst j List.mem_cons_self) (habove k hk)

theorem separated_normal (l : List Interval) : Separated (normal l) := by
  unfold normal
  have hinc := increasing_sort l
  generalize (l.filter fun i => i.first ≤ i.last).foldr insert [] = s at hinc ⊢
  cases s with
  | nil => exact separated_nil
  | cons i rest => exact (separated_joinAfter hinc).1

/-! ## Complements -/

theorem separated_gaps (h : Separated l) (hstart : ∀ j ∈ l, start ≤ j.first) :
    Separated (gaps start top l) ∧ ∀ j ∈ gaps start top l, start ≤ j.first := by
  induction l generalizing start with
  | nil =>
    rw [gaps]
    by_cases hle : start ≤ top
    · simp [hle, separated_cons_iff, separated_nil]
    · simp [hle, separated_nil]
  | cons i rest ih =>
    rcases separated_cons_iff.1 h with ⟨hi, hrest, hseparated⟩
    have hle := hstart i List.mem_cons_self
    have hnext : ∀ j ∈ rest, i.last + 1 ≤ j.first := fun j hj => Nat.le_of_lt (hrest j hj)
    rcases ih hseparated hnext with ⟨habove, hfirst⟩
    rw [gaps]
    by_cases hlt : start < i.first
    · rw [if_pos hlt]
      refine ⟨separated_cons_iff.2 ⟨by dsimp only; omega, ?_, habove⟩, ?_⟩
      · intro j hj
        have := hfirst j hj
        dsimp only
        omega
      · intro j hj
        rcases List.mem_cons.1 hj with rfl | hj
        · exact Nat.le_refl _
        · have := hfirst j hj
          omega
    · rw [if_neg hlt]
      refine ⟨habove, ?_⟩
      intro j hj
      have := hfirst j hj
      omega

theorem mem_gaps (h : Separated l) (hstart : ∀ j ∈ l, start ≤ j.first) (hc : c ≤ top) :
    mem c (gaps start top l) = true ↔ start ≤ c ∧ mem c l = false := by
  induction l generalizing start with
  | nil =>
    rw [gaps]
    by_cases hle : start ≤ top
    · simp [hle, hc]
    · simp only [hle, if_false, mem_nil]
      simp
      omega
  | cons i rest ih =>
    rcases separated_cons_iff.1 h with ⟨hi, hrest, hseparated⟩
    have hle := hstart i List.mem_cons_self
    have habove := ih hseparated (fun j hj => Nat.le_of_lt (hrest j hj))
    -- A code point up to the last one of an interval is in none that comes after it.
    have hlow : c ≤ i.last → mem c rest = false := by
      intro hlast
      rw [Bool.eq_false_iff, ne_eq, mem_eq_true_iff]
      rintro ⟨j, hj, hfirst, -⟩
      have := hrest j hj
      omega
    have hfront : mem c (gaps start top (i :: rest)) = true ↔
        (start ≤ c ∧ c < i.first) ∨ mem c (gaps (i.last + 1) top rest) = true := by
      rw [gaps]
      by_cases hlt : start < i.first
      · rw [if_pos hlt, mem_cons, Bool.or_eq_true, Bool.and_eq_true, decide_eq_true_eq, decide_eq_true_eq]
        apply or_congr_left
        dsimp only
        omega
      · rw [if_neg hlt]
        refine ⟨Or.inr, ?_⟩
        rintro (h | h)
        · omega
        · exact h
    rw [hfront, habove, mem_cons, Bool.or_eq_false_iff, Bool.and_eq_false_iff, decide_eq_false_iff_not,
      decide_eq_false_iff_not]
    constructor
    · rintro (⟨hge, hlt⟩ | ⟨hge, hmem⟩)
      · exact ⟨hge, .inl (by omega), hlow (by omega)⟩
      · exact ⟨by omega, .inr (by omega), hmem⟩
    · rintro ⟨hge, houtside, hmem⟩
      by_cases hlt : c < i.first
      · exact .inl ⟨hge, hlt⟩
      · exact .inr ⟨by omega, hmem⟩

theorem separated_complement (h : Separated l) : Separated (complement top l) :=
  (separated_gaps h fun _ _ => Nat.zero_le _).1

theorem mem_complement (h : Separated l) (hc : c ≤ top) : mem c (complement top l) = !mem c l := by
  have hgaps := mem_gaps h (fun j _ => Nat.zero_le j.first) hc
  rw [complement, Bool.eq_iff_iff, hgaps]
  simp

theorem separated_meet (a b : List Interval) : Separated (meet top a b) :=
  separated_complement (separated_normal _)

theorem mem_meet (ha : Separated a) (hb : Separated b) (hc : c ≤ top) :
    mem c (meet top a b) = (mem c a && mem c b) := by
  rw [meet, mem_complement (separated_normal _) hc, mem_normal, mem_append, mem_complement ha hc,
    mem_complement hb hc, Bool.not_or, Bool.not_not, Bool.not_not]

end Interval

/-! ## Properties -/

namespace Span

variable {c : Nat} {s : Span}

theorem covers_iff : s.covers c = true ↔ s.first ≤ c ∧ c ≤ s.last ∧ (c - s.first) % s.stride = 0 := by
  simp [covers, and_assoc]

/-- Among the code points from the first to the last of a span, its intervals hold its steps. -/
theorem mem_intervals (hfirst : s.first ≤ c) (hlast : c ≤ s.last) :
    Interval.mem c s.intervals = s.covers c := by
  rw [Bool.eq_iff_iff, covers_iff, intervals]
  by_cases hone : s.stride = 1
  · simp [hone, hfirst, hlast, Nat.mod_one]
  · simp only [beq_iff_eq, hone, if_false, Interval.mem_eq_true_iff, List.mem_map, List.mem_range]
    constructor
    · rintro ⟨_, ⟨k, -, rfl⟩, hle, hge⟩
      dsimp only at hle hge
      refine ⟨hfirst, hlast, ?_⟩
      rw [show c - s.first = k * s.stride by omega]
      exact Nat.mul_mod_left _ _
    · rintro ⟨-, -, hmod⟩
      refine ⟨_, ⟨(c - s.first) / s.stride, ?_, rfl⟩, ?_⟩
      · exact Nat.lt_succ_of_le (Nat.div_le_div_right (by omega))
      · have hsteps := Nat.div_add_mod (c - s.first) s.stride
        rw [hmod, Nat.mul_comm] at hsteps
        dsimp only
        omega

theorem mem_allIntervals (c low : Nat) (l : List Span) :
    Interval.mem c (allIntervals low l) = (decide (low ≤ c) && Span.mem c l) := by
  induction l generalizing low with
  | nil => simp [allIntervals]
  | cons s rest ih =>
    have hclip (is : List Interval) :
        Interval.mem c (is.map fun i => ⟨max (max low s.first) i.first, min i.last s.last⟩) =
          (decide (max low s.first ≤ c) && decide (c ≤ s.last) && Interval.mem c is) := by
      induction is with
      | nil => simp
      | cons i is ih =>
        rw [List.map_cons, Interval.mem_cons, ih, Interval.mem_cons, Bool.eq_iff_iff]
        simp only [Bool.or_eq_true, Bool.and_eq_true, decide_eq_true_eq]
        constructor
        · rintro (h | ⟨h, hmem⟩)
          · omega
          · exact ⟨h, .inr hmem⟩
        · rintro ⟨h, hi | hmem⟩
          · omega
          · exact .inr ⟨h, hmem⟩
    rw [allIntervals, Interval.mem_append, ih, hclip]
    by_cases hlt : c < s.first
    · rw [mem_cons_of_lt rest hlt]
      have hlow : ¬ max low s.first ≤ c := by omega
      simp [hlow]
    · have hle := Nat.le_of_not_lt hlt
      rw [mem_cons_of_le rest hle]
      have hlow : max low s.first ≤ c ↔ low ≤ c := by omega
      simp only [hlow]
      by_cases hlast : c ≤ s.last
      · rw [mem_intervals hle hlast]
        cases decide (low ≤ c) <;> simp [hlast]
      · have hcovers : s.covers c = false := by simp [covers, hlast]
        simp [hlast, hcovers]

end Span

namespace Property

variable {c : Nat}

theorem separated_intervals (p : Property) : Interval.Separated p.intervals := by
  cases p with
  | categories gs | spans l | either a b => exact Interval.separated_normal _
  | unassigned => exact Interval.separated_complement (Interval.separated_normal _)
  | except a b => exact Interval.separated_meet _ _

theorem mem_categories (c : Nat) (gs : List Category) :
    Interval.mem c (Interval.normal (gs.flatMap fun g => Span.allIntervals 0 g.spans)) =
      gs.any (·.holds c) := by
  rw [Interval.mem_normal, Interval.mem_flatMap]
  congr 1
  funext g
  rw [Span.mem_allIntervals, Category.holds]
  simp

/-- The normal form of a property holds the code points that have it. -/
theorem mem_intervals (p : Property) (hc : c ≤ lastCodePoint) :
    Interval.mem c p.intervals = p.holds c := by
  induction p with
  | categories gs => exact mem_categories c gs
  | unassigned =>
    rw [intervals, Interval.mem_complement (Interval.separated_normal _) hc, mem_categories, holds]
  | spans l =>
    rw [intervals, Interval.mem_normal, Span.mem_allIntervals, holds]
    simp
  | either a b iha ihb => rw [intervals, Interval.mem_normal, Interval.mem_append, iha, ihb, holds]
  | except a b iha ihb =>
    rw [intervals, Interval.mem_meet a.separated_intervals
      (Interval.separated_complement b.separated_intervals) hc,
      Interval.mem_complement b.separated_intervals hc, iha, ihb, holds]

end Property

end Descent.Unicode
