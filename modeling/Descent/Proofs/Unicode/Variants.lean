import Mathlib.Data.List.Pairwise
import Descent.Proofs.Unicode.Intervals
import Descent.Unicode.Folding

/-!
# Case variants

No code point folds by two rules, and none that another one folds to folds any further.  So code points that fold
alike are the variants of each other.

Main results:

- `Span.apart` is a test that two spans have no step in common.
- `fold_fold`: what folding leads to folds no further.
- `mem_variants_iff`: the variants of a code point are those that fold to the same one.
-/

namespace Descent.Unicode

/-! ## Spans apart -/

namespace Span

variable {c : Nat} {s t : Span}

/-- Whether two spans lie one after the other, or the steps of the first one, which are a single one or have the
stride of the second one, pass those of the second one by. -/
def apart (s t : Span) : Bool :=
  Nat.blt s.last t.first || Nat.blt t.last s.first ||
    (s.first == s.last || s.stride == t.stride) && s.first % t.stride != t.first % t.stride

theorem mod_of_covers (h : s.covers c = true) : c % s.stride = s.first % s.stride := by
  rcases covers_iff.1 h with ⟨hfirst, -, hmod⟩
  have hsteps := Nat.div_add_mod (c - s.first) s.stride
  rw [hmod, Nat.add_zero] at hsteps
  rw [show c = s.first + s.stride * ((c - s.first) / s.stride) by omega, Nat.add_mul_mod_self_left]

theorem not_covers_of_apart (h : s.apart t = true) (hs : s.covers c = true) : t.covers c = false := by
  rw [Bool.eq_false_iff]
  intro ht
  rcases covers_iff.1 hs with ⟨hfirst, hlast, -⟩
  rcases covers_iff.1 ht with ⟨hfirst', hlast', -⟩
  simp only [apart, Bool.or_eq_true, Bool.and_eq_true, Nat.blt_eq, beq_iff_eq, bne_iff_ne] at h
  rcases h with (hlt | hlt) | ⟨hsingle | hstride, hne⟩
  · omega
  · omega
  · apply hne
    rw [← mod_of_covers ht, show s.first = c by omega]
  · apply hne
    rw [← mod_of_covers ht, ← hstride, mod_of_covers hs]

end Span

/-! ## Rules -/

namespace FoldRule

/-- Where a rule takes the code points of its span. -/
def target (r : FoldRule) : Span :=
  ⟨((r.span.first : Int) + r.offset).toNat, ((r.span.last : Int) + r.offset).toNat, r.span.stride⟩

/-- A rule stays among the code points. -/
structure Within (r : FoldRule) : Prop where
  first_pos : 0 < r.span.first
  last_le : r.span.last ≤ lastCodePoint
  first_nonneg : 0 ≤ (r.span.first : Int) + r.offset
  target_le : (r.span.last : Int) + r.offset ≤ lastCodePoint

instance (r : FoldRule) : Decidable r.Within :=
  decidable_of_iff (0 < r.span.first ∧ r.span.last ≤ lastCodePoint ∧ 0 ≤ (r.span.first : Int) + r.offset ∧
      (r.span.last : Int) + r.offset ≤ lastCodePoint)
    ⟨fun h => ⟨h.1, h.2.1, h.2.2.1, h.2.2.2⟩, fun h => ⟨h.1, h.2, h.3, h.4⟩⟩

theorem covers_target {r : FoldRule} {c : Nat} (hr : r.Within) (hc : r.span.covers c = true) :
    r.target.covers ((c : Int) + r.offset).toNat = true := by
  rcases Span.covers_iff.1 hc with ⟨hfirst, hlast, hmod⟩
  have hlow := hr.first_nonneg
  rw [Span.covers_iff]
  dsimp only [target]
  refine ⟨by omega, by omega, ?_⟩
  rw [show ((c : Int) + r.offset).toNat - ((r.span.first : Int) + r.offset).toNat = c - r.span.first by omega]
  exact hmod

end FoldRule

theorem foldRules_within : ∀ r ∈ foldRules, r.Within := by
  decide +kernel

theorem foldRules_apart : foldRules.Pairwise fun r s => r.span.apart s.span = true := by
  decide +kernel

theorem foldRules_target_apart :
    (foldRules.all fun r => foldRules.all fun s => r.target.apart s.span) = true := by
  decide +kernel

/-! ## Folding -/

variable {c v : Nat} {r : FoldRule}

theorem find?_of_covers {rules : List FoldRule} (hapart : rules.Pairwise fun r s => r.span.apart s.span = true)
    (hr : r ∈ rules) (hc : r.span.covers c = true) : rules.find? (·.span.covers c) = some r := by
  induction rules with
  | nil => cases hr
  | cons s rules ih =>
    rcases List.pairwise_cons.1 hapart with ⟨hfirst, hrest⟩
    rcases List.mem_cons.1 hr with rfl | hr
    · exact List.find?_cons_of_pos hc
    · have hs : ¬ s.span.covers c = true := by
        intro hs
        have := Span.not_covers_of_apart (hfirst r hr) hs
        rw [hc] at this
        cases this
      simp only [List.find?_cons, Bool.eq_false_iff.2 hs]
      exact ih hrest hr

theorem fold_of_covers (hr : r ∈ foldRules) (hc : r.span.covers c = true) :
    fold c = ((c : Int) + r.offset).toNat := by
  rw [fold, find?_of_covers foldRules_apart hr hc]

theorem fold_of_not_covers (h : ∀ r ∈ foldRules, ¬ r.span.covers c = true) : fold c = c := by
  rw [fold, List.find?_eq_none.2 h]

/-- A code point folds by one rule, or to itself. -/
theorem fold_cases (c : Nat) :
    (∃ r ∈ foldRules, r.span.covers c = true ∧ ((fold c : Nat) : Int) = (c : Int) + r.offset ∧
      r.target.covers (fold c) = true) ∨ fold c = c := by
  by_cases h : ∃ r ∈ foldRules, r.span.covers c = true
  · rcases h with ⟨r, hr, hc⟩
    have hwithin := foldRules_within r hr
    have hfirst := (Span.covers_iff.1 hc).1
    refine .inl ⟨r, hr, hc, ?_, ?_⟩
    · rw [fold_of_covers hr hc]
      have hlow := hwithin.first_nonneg
      omega
    · rw [fold_of_covers hr hc]
      exact FoldRule.covers_target hwithin hc
  · exact .inr (fold_of_not_covers fun r hr hc => h ⟨r, hr, hc⟩)

/-- What folding leads to folds no further. -/
theorem fold_fold (c : Nat) : fold (fold c) = fold c := by
  rcases fold_cases c with ⟨r, hr, -, -, htarget⟩ | h
  · apply fold_of_not_covers
    intro s hs hcovers
    have hall := List.all_eq_true.1 (List.all_eq_true.1 foldRules_target_apart r hr) s hs
    have := Span.not_covers_of_apart hall htarget
    rw [hcovers] at this
    cases this
  · rw [h, h]

theorem fold_le (h : c ≤ lastCodePoint) : fold c ≤ lastCodePoint := by
  rcases fold_cases c with ⟨r, hr, hc, heq, -⟩ | heq
  · have hwithin := (foldRules_within r hr).target_le
    have hlast := (Span.covers_iff.1 hc).2.1
    omega
  · rwa [heq]

/-! ## Variants -/

/-- The variants of a code point are those that fold to the same one. -/
theorem mem_variants_iff : v ∈ variants c ↔ fold v = fold c := by
  rw [variants, foldedTo, List.mem_cons, List.mem_filterMap]
  constructor
  · rintro (rfl | ⟨r, hr, hv⟩)
    · exact fold_fold c
    · dsimp only at hv
      split at hv
      · rename_i hcovers
        cases hv
        have hfirst := (Span.covers_iff.1 hcovers).1
        have hpos := (foldRules_within r hr).first_pos
        rw [fold_of_covers hr hcovers]
        omega
      · cases hv
  · intro h
    rcases fold_cases v with ⟨r, hr, hcovers, heq, -⟩ | heq
    · refine .inr ⟨r, hr, ?_⟩
      have hsource : (((fold c : Nat) : Int) - r.offset).toNat = v := by omega
      dsimp only
      rw [hsource, if_pos hcovers]
    · exact .inl (by rw [← h, heq])

theorem self_mem_variants (c : Nat) : c ∈ variants c :=
  mem_variants_iff.2 rfl

theorem mem_variants_comm : v ∈ variants c ↔ c ∈ variants v := by
  rw [mem_variants_iff, mem_variants_iff]
  exact eq_comm

theorem le_of_mem_variants (hc : c ≤ lastCodePoint) (h : v ∈ variants c) : v ≤ lastCodePoint := by
  rcases fold_cases v with ⟨r, hr, hcovers, -, -⟩ | heq
  · exact Nat.le_trans (Span.covers_iff.1 hcovers).2.1 (foldRules_within r hr).last_le
  · rw [← heq, mem_variants_iff.1 h]
    exact fold_le hc

end Descent.Unicode
