import Descent.Proofs.Pattern.Composition
import Descent.Proofs.Pattern.Leaves

/-!
# Alternatives put together

Alternatives are put together in a form of their own: nested ones are flat, and sets are joined.  Neither matters
for what they match.

Main results:

- `Node.matchLength?_ofAlternatives`: alternatives match as the first of them that matches does.
-/

namespace Descent.Pattern.Node

variable {a b p : Node} {as bs : List Node} {before after : List UInt8} {s t : CharSet}

/-- The match of the first of some alternatives that matches. -/
def firstMatch? (before after : List UInt8) (as : List Node) : Option Nat :=
  as.findSome? (·.matchLength? before after)

theorem firstMatch?_cons (a : Node) (as : List Node) :
    firstMatch? before after (a :: as) = (a.matchLength? before after).or (firstMatch? before after as) := by
  unfold firstMatch?
  rw [List.findSome?_cons]
  cases a.matchLength? before after <;> rfl

theorem firstMatch?_append (as bs : List Node) :
    firstMatch? before after (as ++ bs) = (firstMatch? before after as).or (firstMatch? before after bs) :=
  List.findSome?_append

/-! ## Branches -/

/-- A pattern matches as its alternatives do. -/
theorem firstMatch?_branches (a : Node) (before after : List UInt8) :
    firstMatch? before after a.branches = a.matchLength? before after := by
  induction a with
  | alt a b iha ihb => rw [branches, firstMatch?_append, iha, ihb, matchLength?_alt]
  | empty | char | octet | look | seq | repeated | group =>
    rw [branches, firstMatch?_cons]
    · exact Option.or_none
    · simp

theorem firstMatch?_flatMap_branches (as : List Node) :
    firstMatch? before after (as.flatMap branches) = firstMatch? before after as := by
  induction as with
  | nil => rfl
  | cons a as ih => rw [List.flatMap_cons, firstMatch?_append, firstMatch?_branches, ih, firstMatch?_cons]

theorem matchLength?_ofBranches (h : as ≠ []) :
    (ofBranches as).matchLength? before after = firstMatch? before after as := by
  induction as with
  | nil => exact absurd rfl h
  | cons a as ih =>
    rw [firstMatch?_cons]
    cases as with
    | nil => exact Option.or_none.symm
    | cons b rest =>
      have hrest := ih (List.cons_ne_nil b rest)
      rw [← hrest, ← matchLength?_alt]
      rfl

/-! ## Sets that are joined -/

theorem width?_char_union : (char (.union s t)).width? before after =
    ((char s).width? before after).or ((char t).width? before after) := by
  simp only [width?]
  rcases Text.charAfter? after with _ | ⟨c, width⟩
  · rfl
  · simp only [Option.bind_some, CharSet.mem_union, Bool.or_eq_true]
    by_cases h : s.mem c.toNat = true <;> simp [h]

theorem width?_octet_union : (octet (.union s t)).width? before after =
    ((octet s).width? before after).or ((octet t).width? before after) := by
  simp only [width?]
  rcases after with _ | ⟨b, rest⟩
  · rfl
  · simp only [List.head?_cons, Option.bind_some, CharSet.mem_union, Bool.or_eq_true]
    by_cases h : s.mem b.toNat = true <;> simp [h]

theorem width?_char_none : (char .none).width? before after = none := by
  simp [width?, CharSet.mem]

theorem width?_octet_none : (octet .none).width? before after = none := by
  simp [width?, CharSet.mem]

/-- A character of one octet takes what the octet takes. -/
theorem width?_char_eq_octet (hs : ∀ c : Char, s.mem c.toNat = true → c.toNat < 0x80)
    (ht : ∀ b : UInt8, t.mem b.toNat = true → b.toNat < 0x80)
    (hsame : ∀ n < 0x80, s.mem n = t.mem n) (before after : List UInt8) :
    (char s).width? before after = (octet t).width? before after := by
  rcases after with _ | ⟨b, rest⟩
  · rfl
  · simp only [width?, List.head?_cons, Option.bind_some]
    by_cases hb : b.toNat < 0x80
    · have hc : (Char.ofNat b.toNat).toNat = b.toNat := Text.toNat_of_isValidChar (.inl (by omega))
      rw [Text.charAfter?_of_lt hb, Option.bind_some, hc, hsame _ hb]
    · rw [if_neg (fun hmem => hb (ht b hmem)), Option.bind_eq_none_iff]
      rintro ⟨c, width⟩ hc
      rcases Option.map_eq_some_iff.1 hc with ⟨c', hpiece, heq⟩
      obtain ⟨rfl, -⟩ := Prod.mk.inj heq
      have hle := Text.le_toNat_of_firstPiece (Nat.le_of_not_lt hb) hpiece
      exact if_neg fun hmem => absurd (hs _ hmem) (Nat.not_lt.2 hle)

theorem matchLength?_of_charSet? (h : a.charSet? = some s) :
    a.matchLength? before after = (char s).width? before after := by
  cases a with
  | char t =>
    obtain rfl : t = s := Option.some.inj h
    exact matchLength?_leaf rfl before after
  | octet t =>
    rw [charSet?] at h
    split at h
    · rename_i hascii
      cases h
      rw [matchLength?_leaf rfl]
      symm
      apply width?_char_eq_octet
      · intro c hmem
        simp only [CharSet.mem, Bool.and_eq_true, decide_eq_true_eq] at hmem
        omega
      · exact fun b hmem => CharSet.mem_lt_of_isAscii hascii b.toNat_lt hmem
      · intro n hn
        have hrange : (CharSet.range 0x00 0x7F).mem n = true := by
          simp only [CharSet.mem, Bool.and_eq_true, decide_eq_true_eq]
          omega
        rw [CharSet.mem_inter, hrange, Bool.true_and]
    · cases h
  | empty | look | seq | alt | repeated | group => cases h

theorem matchLength?_of_octetSet? (h : a.octetSet? = some s) :
    a.matchLength? before after = (octet s).width? before after := by
  cases a with
  | char t =>
    rw [octetSet?] at h
    split at h
    · rename_i hascii
      cases h
      rw [matchLength?_leaf rfl]
      have hlow (c : Char) : s.mem c.toNat = true → c.toNat < 0x80 := CharSet.lt_of_mem_of_all_lt hascii
      refine width?_char_eq_octet hlow ?_ (fun _ _ => rfl) before after
      intro b hmem
      have hb : (Char.ofNat b.toNat).toNat = b.toNat :=
        Text.toNat_of_isValidChar (.inl (Nat.lt_trans b.toNat_lt (by decide)))
      rw [← hb] at hmem ⊢
      exact hlow _ hmem
    · cases h
  | octet t =>
    obtain rfl : t = s := Option.some.inj h
    exact matchLength?_leaf rfl before after
  | empty | look | seq | alt | repeated | group => cases h

/-- Leaves of one kind match as the leaf of that kind does that takes what either of them takes. -/
theorem firstMatch?_of_mapM {set? : Node → Option CharSet} {leaf : CharSet → Node} {sets : List CharSet}
    (hset : ∀ a s, set? a = some s → a.matchLength? before after = (leaf s).width? before after)
    (hnone : (leaf .none).width? before after = none)
    (hunion : ∀ s t, (leaf (.union s t)).width? before after =
      ((leaf s).width? before after).or ((leaf t).width? before after))
    (h : as.mapM set? = some sets) :
    firstMatch? before after as = (leaf (.ofList sets)).width? before after := by
  induction as generalizing sets with
  | nil =>
    cases h
    exact hnone.symm
  | cons a as ih =>
    rw [List.mapM_cons] at h
    rcases Option.bind_eq_some_iff.1 h with ⟨s, hs, h⟩
    rcases Option.bind_eq_some_iff.1 h with ⟨sets', hsets, h⟩
    cases h
    rw [firstMatch?_cons, hset a s hs, ih hsets]
    exact (hunion s _).symm

/-- Leaves that are joined match as the first of them that matches does. -/
theorem matchLength?_of_unionOf? (h : unionOf? as = some a) :
    a.matchLength? before after = firstMatch? before after as := by
  rcases unionOf?_eq_some h with ⟨sets, hsets, rfl⟩ | ⟨sets, hsets, rfl⟩
  · rw [matchLength?_leaf rfl]
    exact (firstMatch?_of_mapM (fun a s => matchLength?_of_charSet?) width?_char_none
      (fun _ _ => width?_char_union) hsets).symm
  · rw [matchLength?_leaf rfl]
    exact (firstMatch?_of_mapM (fun a s => matchLength?_of_octetSet?) width?_octet_none
      (fun _ _ => width?_octet_union) hsets).symm

/-- Alternatives match as the first of them that matches does. -/
theorem matchLength?_ofAlternatives (as : List Node) (before after : List UInt8) :
    (ofAlternatives as).matchLength? before after = firstMatch? before after as := by
  rw [← firstMatch?_flatMap_branches]
  unfold ofAlternatives
  dsimp only
  split
  · rename_i a heq
    rw [heq, firstMatch?_cons]
    exact Option.or_none.symm
  · rename_i hjoined _
    exact matchLength?_of_unionOf? hjoined
  · rename_i hnone _
    apply matchLength?_ofBranches
    intro hnil
    rw [hnil] at hnone
    cases hnone

end Descent.Pattern.Node
