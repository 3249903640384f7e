import Descent.Pattern.Composition
import Descent.Proofs.Pattern.Members
import Descent.Proofs.Text.Utf8

/-!
# What is put together from patterns

A property of patterns passes on to all that is put together from them if it passes on to the parts of sequences, to
the alternatives of alternatives, and back.  One such property is that a pattern has the form that putting together
gives it; another one is that it keeps characters whole.

Main results:

- `Node.Composes` says that a property passes on, and `Composes.ofSequence`, `Composes.ofAlternatives` and
  `Composes.ofRepetition` are what follows.
- `Node.composes_tidy`: what is put together from tidy patterns is tidy, and `Node.ofParts_parts` that a tidy
  pattern is put together from its parts.
- `Node.composes_keepsCharacters`: what is put together keeps characters whole if the patterns do.
-/

namespace Descent.Pattern

namespace Node

variable {a b p : Node} {as ps : List Node}

theorem parts_of_mem_parts (h : p ∈ a.parts) : p.parts = [p] := by
  induction a with
  | empty => cases h
  | seq a b iha ihb => exact (List.mem_append.1 h).elim iha ihb
  | char | octet | look | alt | repeated | group =>
    obtain rfl := List.mem_singleton.1 h
    rfl

section

variable {P : Node → Prop}

/-- What passes from alternatives to each of the two passes on to every branch. -/
theorem of_mem_branches (halt : ∀ {a b : Node}, P (.alt a b) → P a ∧ P b) (ha : P a)
    (h : b ∈ a.branches) : P b := by
  induction a with
  | alt a c iha ihc => exact (List.mem_append.1 h).elim (iha (halt ha).1) (ihc (halt ha).2)
  | empty | char | octet | look | seq | repeated | group =>
    obtain rfl := List.mem_singleton.1 h
    exact ha

theorem of_branches (hempty : P .empty) (halt : ∀ {a b : Node}, P a → P b → P (.alt a b))
    (h : ∀ a ∈ as, P a) : P (.ofBranches as) := by
  induction as with
  | nil => exact hempty
  | cons a as ih =>
    rcases List.forall_mem_cons.1 h with ⟨ha, has⟩
    cases as with
    | nil => exact ha
    | cons b rest => exact halt ha (ih has)

end

/-- A property of patterns that passes on to what is put together from them. -/
structure Composes (P : Node → Prop) : Prop where
  parts : ∀ {a p : Node}, P a → p ∈ a.parts → P p
  branches : ∀ {a b : Node}, P a → b ∈ a.branches → P b
  ofParts : ∀ {ps : List Node}, (∀ p ∈ ps, p.parts = [p] ∧ P p) → P (.ofParts ps)
  ofBranches : ∀ {as : List Node}, (∀ a ∈ as, P a) → P (.ofBranches as)
  unionOf? : ∀ {as : List Node} {a : Node}, (∀ a ∈ as, P a) → Node.unionOf? as = some a → P a
  repeated : ∀ {a : Node} (min : Nat) (max : Option Nat) (greedy : Bool), P a → P (.repeated a min max greedy)
  group : ∀ {a : Node} (name : Option String), P a → P (.group name a)

namespace Composes

variable {P : Node → Prop} (hP : Composes P)

include hP

theorem empty : P .empty :=
  @hP.ofParts [] (by simp)

theorem ofSequence (h : ∀ a ∈ as, P a) : P (.ofSequence as) := by
  apply hP.ofParts
  intro p hp
  rcases List.mem_flatMap.1 hp with ⟨a, ha, hp⟩
  exact ⟨parts_of_mem_parts hp, hP.parts (h a ha) hp⟩

theorem ofAlternatives (h : ∀ a ∈ as, P a) : P (.ofAlternatives as) := by
  have hbranches : ∀ b ∈ as.flatMap Node.branches, P b := by
    intro b hb
    rcases List.mem_flatMap.1 hb with ⟨a, ha, hb⟩
    exact hP.branches (h a ha) hb
  unfold Node.ofAlternatives
  dsimp only
  split
  · rename_i a heq
    apply hbranches
    rw [heq]
    exact List.mem_singleton_self a
  · rename_i hjoined _
    exact hP.unionOf? hbranches hjoined
  · exact hP.ofBranches hbranches

theorem ofRepetition (ha : P a) (min : Nat) (max : Option Nat) (greedy : Bool) :
    P (.ofRepetition a min max greedy) := by
  unfold Node.ofRepetition
  dsimp only
  split
  · exact hP.empty
  · exact ha
  · split
    · exact hP.repeated _ _ _ ha
    · exact hP.repeated _ _ _ (hP.repeated _ _ _ ha)
  · exact hP.repeated _ _ _ ha

end Composes

/-- What patterns are joined to is one leaf. -/
theorem unionOf?_eq_some (h : unionOf? as = some a) :
    (∃ sets, as.mapM charSet? = some sets ∧ a = char (.ofList sets)) ∨
      ∃ sets, as.mapM octetSet? = some sets ∧ a = octet (.ofList sets) := by
  unfold unionOf? at h
  rcases Option.bind_eq_some_iff.1 h with ⟨a', ha', h⟩
  rcases Option.bind_eq_some_iff.1 h with ⟨-, -, h⟩
  cases h
  rw [Option.orElse_eq_orElse, Option.orElse_eq_or, Option.or_eq_some_iff] at ha'
  rcases ha' with ha' | ⟨-, ha'⟩
  · rcases Option.map_eq_some_iff.1 ha' with ⟨sets, hsets, rfl⟩
    exact .inl ⟨sets, hsets, rfl⟩
  · rcases Option.map_eq_some_iff.1 ha' with ⟨sets, hsets, rfl⟩
    exact .inr ⟨sets, hsets, rfl⟩

/-! ## Tidy patterns -/

/-- The first part of a sequence is none itself, and the rest is not empty, wherever alternatives or sequences stand
outside repetitions and groups. -/
def Tidy : Node → Prop
  | .seq a b => a.parts = [a] ∧ b.parts ≠ [] ∧ a.Tidy ∧ b.Tidy
  | .alt a b => a.Tidy ∧ b.Tidy
  | .empty | .char _ | .octet _ | .look _ | .repeated _ _ _ _ | .group _ _ => True

/-- A tidy pattern is put together from its parts. -/
theorem ofParts_parts (ha : a.Tidy) : ofParts a.parts = a := by
  induction a with
  | seq a b iha ihb =>
    rcases ha with ⟨hone, hmany, -, hb⟩
    rw [parts, hone, List.singleton_append]
    rcases hparts : b.parts with _ | ⟨c, rest⟩
    · exact absurd hparts hmany
    · rw [ofParts, ← hparts, ihb hb]
      simp
  | empty | char | octet | look | alt | repeated | group => rfl

theorem parts_ofParts (h : ∀ p ∈ ps, p.parts = [p]) : (ofParts ps).parts = ps := by
  induction ps with
  | nil => rfl
  | cons p ps ih =>
    rcases List.forall_mem_cons.1 h with ⟨hp, hps⟩
    cases ps with
    | nil => exact hp
    | cons q rest =>
      have hparts : (ofParts (p :: q :: rest)).parts = p.parts ++ (ofParts (q :: rest)).parts := rfl
      rw [hparts, hp, ih hps]
      rfl

theorem tidy_ofParts (h : ∀ p ∈ ps, p.parts = [p] ∧ p.Tidy) : (ofParts ps).Tidy := by
  induction ps with
  | nil => trivial
  | cons p ps ih =>
    rcases List.forall_mem_cons.1 h with ⟨hp, hps⟩
    cases ps with
    | nil => exact hp.2
    | cons q rest =>
      have hrest : (ofParts (q :: rest)).parts ≠ [] := by
        rw [parts_ofParts fun p hp => (hps p hp).1]
        exact List.cons_ne_nil q rest
      exact ⟨hp.1, hrest, hp.2, ih hps⟩

theorem composes_tidy : Composes Tidy where
  parts {a p} ha h := by
    induction a with
    | empty => cases h
    | seq a b iha ihb => exact (List.mem_append.1 h).elim (iha ha.2.2.1) (ihb ha.2.2.2)
    | char | octet | look | alt | repeated | group =>
      obtain rfl := List.mem_singleton.1 h
      exact ha
  branches ha h := of_mem_branches (fun halt => halt) ha h
  ofParts := tidy_ofParts
  ofBranches h := of_branches trivial (fun ha hb => ⟨ha, hb⟩) h
  unionOf? _ h := by
    rcases unionOf?_eq_some h with ⟨sets, -, rfl⟩ | ⟨sets, -, rfl⟩ <;> trivial
  repeated _ _ _ _ := trivial
  group _ _ := trivial

end Node

/-! ## Whole characters -/

theorem CharSet.isAscii_iff {s : CharSet} : s.isAscii = true ↔ ∀ n < 0x80, s.mem (0x80 + n) = false := by
  simp [CharSet.isAscii]

theorem CharSet.isAscii_ofList {sets : List CharSet} (h : ∀ s ∈ sets, s.isAscii = true) :
    (CharSet.ofList sets).isAscii = true := by
  rw [isAscii_iff]
  intro n hn
  rw [mem_ofList, List.any_eq_false]
  intro s hs
  rw [isAscii_iff.1 (h s hs) n hn]
  exact Bool.false_ne_true

theorem CharSet.isAscii_of_all_lt {s : CharSet} (h : s.charIntervals.all (·.last < 0x80) = true) :
    s.isAscii = true := by
  rw [isAscii_iff]
  intro n hn
  have hc : (Char.ofNat (0x80 + n)).toNat = 0x80 + n := Text.toNat_of_isValidChar (.inl (by omega))
  apply Bool.eq_false_iff.2
  intro hmem
  rw [← hc] at hmem
  have hlt := lt_of_mem_of_all_lt h hmem
  omega

namespace Node

variable {a : Node} {as : List Node}

theorem isAscii_of_octetSet? {s : CharSet} (ha : a.keepsCharacters = true) (h : a.octetSet? = some s) :
    s.isAscii = true := by
  cases a with
  | char t =>
    rw [octetSet?] at h
    split at h
    · rename_i hlow
      cases h
      exact CharSet.isAscii_of_all_lt hlow
    · cases h
  | octet t =>
    obtain rfl : t = s := Option.some.inj h
    exact ha
  | empty | look | seq | alt | repeated | group => cases h

theorem isAscii_of_mapM {sets : List CharSet} (has : ∀ a ∈ as, a.keepsCharacters = true)
    (h : as.mapM octetSet? = some sets) : ∀ s ∈ sets, s.isAscii = true := by
  induction as generalizing sets with
  | nil =>
    cases h
    simp
  | cons a as ih =>
    rcases List.forall_mem_cons.1 has with ⟨ha, has⟩
    rw [List.mapM_cons] at h
    rcases Option.bind_eq_some_iff.1 h with ⟨s, hs, h⟩
    rcases Option.bind_eq_some_iff.1 h with ⟨sets', hsets, h⟩
    cases h
    exact List.forall_mem_cons.2 ⟨isAscii_of_octetSet? ha hs, ih has hsets⟩

theorem composes_keepsCharacters : Composes (·.keepsCharacters = true) where
  parts {a p} ha h := by
    induction a with
    | empty => cases h
    | seq a b iha ihb =>
      rw [keepsCharacters, Bool.and_eq_true] at ha
      exact (List.mem_append.1 h).elim (iha ha.1) (ihb ha.2)
    | char | octet | look | alt | repeated | group =>
      obtain rfl := List.mem_singleton.1 h
      exact ha
  branches ha h := of_mem_branches (fun halt => Bool.and_eq_true_iff.1 halt) ha h
  ofParts {ps} h := by
    induction ps with
    | nil => rfl
    | cons p ps ih =>
      rcases List.forall_mem_cons.1 h with ⟨hp, hps⟩
      cases ps with
      | nil => exact hp.2
      | cons q rest => exact Bool.and_eq_true_iff.2 ⟨hp.2, ih hps⟩
  ofBranches h :=
    of_branches (P := (·.keepsCharacters = true)) rfl (fun ha hb => Bool.and_eq_true_iff.2 ⟨ha, hb⟩) h
  unionOf? has h := by
    rcases unionOf?_eq_some h with ⟨sets, -, rfl⟩ | ⟨sets, hsets, rfl⟩
    · rfl
    · exact CharSet.isAscii_ofList (isAscii_of_mapM has hsets)
  repeated _ _ _ h := h
  group _ h := h

end Node

end Descent.Pattern
