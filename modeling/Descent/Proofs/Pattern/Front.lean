import Descent.Pattern.Matching

/-!
# Fronts of patterns

A pattern that is a sequence whose first part takes one character matches only where a character of
that kind stands.

Main results:

- `Node.front?` is the set that such a pattern begins with.
- `Node.front_of_matchLength?`: a match begins with a character of that set.
-/

namespace Descent.Pattern

/-- The set that the first character of every match is from, where the pattern shows it. -/
def Node.front? : Node → Option CharSet
  | .seq (.char s) _ => some s
  | _ => none

private theorem openWays_front {s : CharSet} (b : Node) (before : List UInt8)
    {after : List UInt8} (fuel : Nat)
    (hnone : ∀ c width, Text.charAfter? after = some (c, width) → s.mem c.toNat = false) :
    openWays before after (fuel + 3) [[.node (.seq (.char s) b)]] ⟨[], [], false⟩ =
      ⟨[], [[.node (.char s), .node b], [.node (.seq (.char s) b)]], false⟩ := by
  have hchar : Opening.ofWay before after [.node (.char s), .node b] = .ways [] := by
    unfold Opening.ofWay
    dsimp only
    split
    · rename_i c width hc
      rw [hnone c width hc]
      rfl
    · rfl
  have hseq : Opening.ofWay before after [.node (.seq (.char s) b)] =
      .ways [[.node (.char s), .node b]] := rfl
  simp [openWays, hseq, hchar]

/-- A match begins with a character of the set that a pattern shows. -/
theorem Node.front_of_matchLength? {a : Node} {s : CharSet} {before after : List UInt8} {n : Nat}
    (hfront : a.front? = some s) (h : a.matchLength? before after = some n) :
    ∃ c width, Text.charAfter? after = some (c, width) ∧ s.mem c.toNat = true := by
  apply Classical.byContradiction
  intro hnot
  have hnone : ∀ c width, Text.charAfter? after = some (c, width) → s.mem c.toNat = false := by
    intro c width hc
    apply Bool.eq_false_iff.2
    intro hmem
    exact hnot ⟨c, width, hc, hmem⟩
  unfold Node.front? at hfront
  split at hfront
  · rename_i t b
    cases hfront
    unfold matchLength? at h
    have hways := openWays_front b before (2 * (Node.seq (.char s) b).weight) hnone
    unfold follow settle at h
    simp only [hways, settle] at h
    cases after <;> simp at h
  · cases hfront

end Descent.Pattern
