import Descent.Proofs.Pattern.Composition
import Descent.Proofs.Pattern.Leaves
import Descent.Proofs.Pattern.Splice

/-!
# What is read is put together from leaves

Whatever holds of leaves, and of what is put together from patterns for which it holds, holds of all alternatives
that are read.  Leaves that are read where characters have to stay whole keep them so, since flags change neither
this nor what leaves are.

Main results:

- `read?_composes`: such a property holds of the alternatives that are read if it holds of leaves.
- `tidy_of_read?` and `keepsCharacters_of_read?`: so they are tidy, and keep characters whole.
-/

namespace Descent.Pattern

variable {f g : Flags} {cs rest : List Char} {a : Node} {fuel : Nat}

/-! ## Leaves and flags -/

namespace Flags

theorem isLeaf_literal (f : Flags) (c : Char) (isOctet : Bool) : (f.literal c isOctet).isLeaf = true := by
  unfold literal
  dsimp only
  split
  · rfl
  · split
    · rfl
    · split <;> rfl

theorem isLeaf_dot (f : Flags) : f.dot.isLeaf = true := by
  unfold dot
  dsimp only
  split <;> rfl

theorem isLeaf_setLeaf (f : Flags) (s : CharSet) : (f.setLeaf s).isLeaf = true := by
  unfold setLeaf
  split
  · rfl
  · split <;> rfl

/-- No flag decides whether characters stay whole. -/
theorem wholeChars_of_update? {c : Char} {on : Bool} (h : f.update? c on = some g) : g.wholeChars = f.wholeChars := by
  unfold update? at h
  split at h <;> cases h <;> rfl

end Flags

theorem wholeChars_of_readFlags? {on : Bool} {seen letters : List Char}
    (h : readFlags? f on seen cs = some (g, letters, rest)) : g.wholeChars = f.wholeChars := by
  induction cs generalizing f on seen with
  | nil => cases h
  | cons c cs ih =>
    rw [readFlags?] at h
    split at h
    · split at h <;> cases h
      rfl
    · split at h
      · cases h
      · split at h
        · exact ih h
        · rcases Option.bind_eq_some_iff.1 h with ⟨f', hf', h⟩
          rw [ih h, Flags.wholeChars_of_update? hf']

/-- The flags that an opening leaves in force. -/
def Opened.flags : Opened → Flags
  | .directive f | .group _ f => f

theorem wholeChars_of_openGroup? {o : Opened} (h : openGroup? f cs = some (o, rest)) :
    o.flags.wholeChars = f.wholeChars := by
  have hnamed {signs : List Char} (h : openNamed? f signs = some (o, rest)) : o.flags.wholeChars = f.wholeChars := by
    rcases Option.map_eq_some_iff.1 h with ⟨_, -, heq⟩
    cases heq
    rfl
  unfold openGroup? at h
  split at h
  · exact hnamed h
  · exact hnamed h
  · rcases Option.bind_eq_some_iff.1 h with ⟨⟨g, letters, behind⟩, hflags, h⟩
    have hwhole := wholeChars_of_readFlags? hflags
    dsimp only at h
    split at h
    · cases h
      exact hwhole
    · split at h <;> cases h
      exact hwhole
    · cases h
  · cases h
    rfl

theorem wholeChars_of_readElement? {o : Opened} (h : readElement? f cs = some (.opened o, rest)) :
    o.flags.wholeChars = f.wholeChars := by
  unfold readElement? at h
  split at h
  · cases h
  · exact wholeChars_of_openGroup? (eq_of_readSign?_opened h).2

theorem isLeaf_of_leaf? {e : Escape} (h : e.leaf? f = some a) : a.isLeaf = true := by
  unfold Escape.leaf? at h
  split at h
  · cases h
    exact f.isLeaf_literal _ _
  · cases h
    rfl
  · rcases Option.map_eq_some_iff.1 h with ⟨s, -, rfl⟩
    exact f.isLeaf_setLeaf s

/-- A leaf that is read keeps characters whole where they have to stay so. -/
theorem leaf_of_readElement? {depth : Nat} (h : readElement? f cs = some (.leaf a depth, rest)) :
    a.isLeaf = true ∧ (f.wholeChars = true → a.keepsCharacters = true) := by
  have hkept {b : Node} {d : Nat} {behind : List Char} (hb : b.isLeaf = true)
      (h : (if (f.wholeChars && !b.keepsCharacters) = true then none else some (Element.leaf b d, behind)) =
        some (.leaf a depth, rest)) : a.isLeaf = true ∧ (f.wholeChars = true → a.keepsCharacters = true) := by
    split at h
    · cases h
    · rename_i hnot
      cases h
      refine ⟨hb, fun hwhole => ?_⟩
      simpa [hwhole] using hnot
  unfold readElement? at h
  split at h
  · cases h
  · unfold readSign? at h
    dsimp only at h
    split at h
    case h_3 =>
      rcases Option.map_eq_some_iff.1 h with ⟨_, -, heq⟩
      cases heq
    case h_4 =>
      rcases Option.bind_eq_some_iff.1 h with ⟨_, -, h⟩
      exact hkept (f.isLeaf_setLeaf _) h
    case h_8 =>
      rcases Option.map_eq_some_iff.1 h with ⟨_, -, heq⟩
      cases heq
    case h_9 =>
      rcases Option.bind_eq_some_iff.1 h with ⟨_, -, h⟩
      rcases Option.bind_eq_some_iff.1 h with ⟨b, hb, h⟩
      exact hkept (isLeaf_of_leaf? hb) h
    case h_10 => exact hkept f.isLeaf_dot h
    case h_11 | h_12 => exact hkept rfl h
    case h_13 => exact hkept (f.isLeaf_literal _ _) h
    all_goals cases h

/-! ## All that is read -/

section Reading

variable {P : Node → Prop} (hP : Node.Composes P) {whole : Bool}

include hP

theorem Node.Composes.sequenceOf {items : List Item} (h : ∀ i ∈ items, P i.toNested.node) : P (sequenceOf items).node := by
  apply hP.ofSequence
  intro a ha
  rcases List.mem_map.1 ha with ⟨n, hn, rfl⟩
  rcases List.mem_map.1 hn with ⟨i, hi, rfl⟩
  exact h i (List.mem_reverse.1 hi)

theorem Node.Composes.nested {b : Alternatives} (h : ∀ s ∈ b.seqs, P s.node) : P b.nested.node := by
  apply hP.ofAlternatives
  intro a ha
  rcases List.mem_map.1 ha with ⟨s, hs, rfl⟩
  exact h s hs

theorem Node.Composes.grouped {n : Nested} (h : P n.node) (kind : GroupKind) : P (n.grouped kind).node := by
  cases kind with
  | plain => exact h
  | numbered | named => exact hP.group _ h

theorem Node.Composes.repeatLast? {items items' : List Item} {min : Nat} {max : Option Nat}
    (hitems : ∀ i ∈ items, P i.toNested.node) (h : repeatLast? f items min max cs = some (items', rest)) :
    ∀ i ∈ items', P i.toNested.node := by
  unfold Pattern.repeatLast? at h
  split at h
  · cases h
    rcases List.forall_mem_cons.1 hitems with ⟨hlast, hothers⟩
    exact List.forall_mem_cons.2 ⟨hP.ofRepetition hlast _ _ _, hothers⟩
  · cases h

/-- What holds of leaves and passes on to what is put together holds of alternatives that are read. -/
theorem readBranches?_composes (hleaf : ∀ a : Node, a.isLeaf = true → (whole = true → a.keepsCharacters = true) → P a)
    {branches : List Nested} {items : List Item} {b : Alternatives} (hf : f.wholeChars = whole)
    (hbranches : ∀ s ∈ branches, P s.node) (hitems : ∀ i ∈ items, P i.toNested.node)
    (h : readBranches? fuel f branches items cs = some (b, rest)) :
    b.flags.wholeChars = whole ∧ ∀ s ∈ b.seqs, P s.node := by
  induction fuel generalizing f branches items cs b rest with
  | zero => cases h
  | succ fuel ih =>
    rw [readBranches?] at h
    have hfinished : ∀ s ∈ sequenceOf items :: branches, P s.node :=
      List.forall_mem_cons.2 ⟨hP.sequenceOf hitems, hbranches⟩
    split at h
    · cases h
    · cases h
      exact ⟨hf, fun s hs => hfinished s (List.mem_reverse.1 hs)⟩
    · exact ih hf hfinished (by simp) h
    · rename_i g behind he
      have hg : g.wholeChars = whole := hf ▸ wholeChars_of_readElement? he
      refine ih hg hbranches ?_ h
      exact List.forall_mem_cons.2 ⟨hP.empty, hitems⟩
    · rename_i kind g behind he
      have hg : g.wholeChars = whole := hf ▸ wholeChars_of_readElement? he
      split at h
      · rename_i inner later hinner
        have hnested := hP.nested (ih hg (by simp) (by simp) hinner).2
        refine ih hf hbranches ?_ h
        exact List.forall_mem_cons.2 ⟨hP.grouped hnested kind, hitems⟩
      · cases h
    · rename_i leaf depth behind he
      rcases leaf_of_readElement? he with ⟨hone, hkept⟩
      rw [hf] at hkept
      refine ih hf hbranches ?_ h
      exact List.forall_mem_cons.2 ⟨hleaf leaf hone hkept, hitems⟩
    · split at h
      · cases h
      · rename_i hrepeat
        exact ih hf hbranches (hP.repeatLast? hitems hrepeat) h

theorem read?_composes (hleaf : ∀ a : Node, a.isLeaf = true → (f.wholeChars = true → a.keepsCharacters = true) → P a)
    {b : Alternatives} (h : read? f cs = some b) : ∀ s ∈ b.seqs, P s.node :=
  (readBranches?_composes hP hleaf rfl (by simp) (by simp) (readBranches?_of_read? h)).2

end Reading

/-! ## Tidy patterns and whole characters -/

theorem tidy_of_read? {b : Alternatives} (h : read? f cs = some b) : ∀ s ∈ b.seqs, s.node.Tidy := by
  apply read?_composes Node.composes_tidy _ h
  intro a ha _
  cases a with
  | char | octet | look => trivial
  | empty | seq | alt | repeated | group => cases ha

theorem keepsCharacters_of_read? {b : Alternatives} (hf : f.wholeChars = true) (h : read? f cs = some b) :
    ∀ s ∈ b.seqs, s.node.keepsCharacters = true :=
  read?_composes Node.composes_keepsCharacters (fun _ _ hkept => hkept hf) h

end Descent.Pattern
