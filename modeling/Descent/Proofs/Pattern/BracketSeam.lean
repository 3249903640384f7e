import Descent.Proofs.Pattern.Seam

/-!
# Classes before seams

A bracketed class may stand before a bar or a closing parenthesis as well.  It ends at a bracket of its own, and no
name of a class holds either sign, so that what follows the class does not change how it is read.

Main results:

- `stable_readClassRange?`: items and ranges of a class are read the same before a seam.
- `readItems?_append`: so are all items up to the closing bracket, with any more fuel.
- `stable_readBracket?`: so is a whole class.
-/

namespace Descent.Pattern

variable {f : Flags} {cs rest t : List Char}

/-! ## Items and ranges -/

theorem stable_readClassItem? (f : Flags) : Stable f (readClassItem? f) := by
  intro cs x rest h hrest t ht
  rcases cs with _ | ⟨c, cs⟩
  · cases h
  · rw [List.cons_append]
    by_cases hc : c = '\\'
    · subst hc
      exact stable_readEscape? f h hrest ht
    · rw [readClassItem?] at h ⊢
      · cases h
        rfl
      · exact hc
      · exact hc

theorem signAfter_append {inComment : Bool} {c : Char} (h : signAfter f inComment cs = some c) (t : List Char) :
    signAfter f inComment (cs ++ t) = some c := by
  induction cs generalizing inComment with
  | nil => cases h
  | cons d cs ih =>
    rw [List.cons_append]
    rw [signAfter] at h ⊢
    split at h
    · rename_i hblank
      rw [if_pos hblank]
      exact ih h
    · rename_i hblank
      rw [if_neg hblank]
      split at h
      · rename_i hmark
        rw [if_pos hmark]
        exact ih h
      · rename_i hmark
        rw [if_neg hmark]
        exact h

/-- Where blanks alone are left there is no next sign, in a comment or not. -/
theorem skipSpaced_of_signAfter {b : Bool} (hspaced : f.spaced = true) (h : signAfter f true cs = none) :
    Flags.skipSpaced b cs = [] := by
  induction cs generalizing b with
  | nil => rfl
  | cons c cs ih =>
    rw [signAfter] at h
    split at h
    · rename_i hblank
      rw [hspaced, Bool.true_and] at hblank
      rw [Flags.skipSpaced, if_pos hblank]
      split <;> exact ih h
    · simp at h

theorem gap_of_signAfter (h : signAfter f false cs = none) : f.gap cs = [] := by
  by_cases hspaced : f.spaced = true
  · rw [Flags.gap, if_pos hspaced]
    induction cs with
    | nil => rfl
    | cons c cs ih =>
      rw [signAfter, hspaced] at h
      rw [Flags.skipSpaced, if_neg Bool.false_ne_true]
      by_cases hblank : Text.isBlank c = true
      · rw [if_pos (by simp [hblank])] at h
        rw [if_pos hblank]
        exact ih h
      · rw [if_neg (by simp [hblank])] at h
        rw [if_neg hblank]
        by_cases hmark : (c == '#') = true
        · rw [if_pos (by simp [hmark])] at h
          rw [if_pos hmark]
          exact skipSpaced_of_signAfter hspaced h
        · rw [if_neg (by simp [hmark])] at h
          cases h
  · rcases cs with _ | ⟨c, cs⟩
    · exact Flags.gap_nil f
    · rw [signAfter] at h
      simp [hspaced] at h

/-- Where there is a next sign, it is the same before a seam. -/
theorem signAfter_append_of_ne (h : signAfter f false cs ≠ none) (t : List Char) :
    signAfter f false (cs ++ t) = signAfter f false cs := by
  rcases Option.ne_none_iff_exists'.1 h with ⟨c, hc⟩
  rw [hc, signAfter_append hc]

/-- The set of an item that begins no range. -/
def singleSet? (f : Flags) : Escape → Option CharSet
  | .literal c isOctet => (classElement? f c isOctet).map CharSet.single
  | e => e.set? f

/-- The set of a range from one item to another. -/
def rangeSet? (f : Flags) : Escape → Escape → Option CharSet
  | .literal c cOctet, .literal d dOctet =>
    if c ≤ d then
      (classElement? f c cOctet).bind fun low => (classElement? f d dOctet).map fun high => .range low high
    else none
  | _, _ => none

/-- Reads on after an item and a hyphen. -/
def readAfterHyphen? (f : Flags) (first : Escape) (cs : List Char) : Option (CharSet × List Char) :=
  if signAfter f false cs == some ']' || signAfter f false cs == some '-' then
    (singleSet? f first).map (·, '-' :: cs)
  else
    (readClassItem? f (f.gap cs)).bind fun (last, rest) => (rangeSet? f first last).map (·, rest)

/-- Reads on after an item and what may stand between signs. -/
def readAfterItem? (f : Flags) (first : Escape) : List Char → Option (CharSet × List Char)
  | [] => none
  | '-' :: after => readAfterHyphen? f first after
  | rest => (singleSet? f first).map (·, rest)

theorem readClassRange?_eq (f : Flags) (cs : List Char) :
    readClassRange? f cs =
      (readClassItem? f cs).bind fun (first, rest) => readAfterItem? f first (f.gap rest) := by
  rw [readClassRange?]
  rcases readClassItem? f cs with _ | ⟨first, rest⟩
  · rfl
  simp only [Option.bind_eq_bind, Option.bind_some]
  generalize f.gap rest = signs
  split
  · rfl
  · rename_i after
    rw [readAfterItem?, readAfterHyphen?]
    split
    · cases first <;> rfl
    · rcases readClassItem? f (f.gap after) with _ | ⟨last, behind⟩
      · rfl
      · cases first <;> cases last <;> try rfl
        simp only [Option.bind_some, rangeSet?]
        split
        · rename_i c cOctet d dOctet _
          rcases classElement? f c cOctet with _ | low
          · rfl
          · rcases classElement? f d dOctet with _ | high <;> rfl
        · rfl
  · rename_i hnil hhyphen
    rw [readAfterItem?]
    · cases first <;> rfl
    · exact hnil
    · exact hhyphen

theorem stable_readAfterHyphen? (f : Flags) (first : Escape) : Stable f (readAfterHyphen? f first) := by
  intro cs x rest h hrest t ht
  unfold readAfterHyphen? at h ⊢
  split at h
  · rename_i hsign
    have hne : signAfter f false cs ≠ none := by
      intro hnone
      rw [hnone] at hsign
      cases hsign
    rw [signAfter_append_of_ne hne, if_pos hsign]
    rcases Option.map_eq_some_iff.1 h with ⟨s, hs, heq⟩
    cases heq
    rw [hs]
    rfl
  · rename_i hsign
    rcases Option.bind_eq_some_iff.1 h with ⟨⟨last, behind⟩, hlast, h⟩
    rcases Option.map_eq_some_iff.1 h with ⟨s, hs, heq⟩
    cases heq
    have hgap : f.gap cs ≠ [] := by
      intro hnil
      rw [hnil] at hlast
      cases hlast
    rw [signAfter_append_of_ne (fun hnone => hgap (gap_of_signAfter hnone)), if_neg hsign,
      Flags.gap_append (.inl hgap), stable_readClassItem? f hlast hrest ht, Option.bind_some]
    dsimp only
    rw [hs]
    rfl

theorem stable_readAfterItem? (f : Flags) (first : Escape) : Stable f (readAfterItem? f first) := by
  intro cs x rest h hrest t ht
  unfold readAfterItem? at h
  split at h
  · cases h
  · rename_i after
    rw [List.cons_append, readAfterItem?]
    exact stable_readAfterHyphen? f first h hrest ht
  · rename_i hnil hhyphen
    rcases Option.map_eq_some_iff.1 h with ⟨s, hs, heq⟩
    cases heq
    rcases List.exists_cons_of_ne_nil hnil with ⟨c, later, rfl⟩
    rw [List.cons_append, readAfterItem?]
    · rw [hs]
      rfl
    · exact List.cons_ne_nil c _
    · intro after heq
      exact hhyphen later ((List.cons.inj heq).1 ▸ rfl)

theorem stable_readClassRange? (f : Flags) : Stable f (readClassRange? f) := by
  intro cs x rest h hrest t ht
  rw [readClassRange?_eq] at h ⊢
  rcases Option.bind_eq_some_iff.1 h with ⟨⟨first, behind⟩, hfirst, h⟩
  dsimp only at h
  have hgap : f.gap behind ≠ [] := by
    intro hnil
    rw [hnil] at h
    cases h
  have hbehind : behind ≠ [] := by
    rintro rfl
    exact hgap (Flags.gap_nil f)
  rw [stable_readClassItem? f hfirst (.inl hbehind) ht, Option.bind_some]
  dsimp only
  rw [Flags.gap_append (.inl hgap)]
  exact stable_readAfterItem? f first h hrest ht

/-! ## Names of classes -/

/-- No name of a class has a sign that starts a seam. -/
theorem not_mem_of_asciiClass? {name : List Char} {s : CharSet} (h : CharSet.asciiClass? (String.ofList name) = some s) :
    '|' ∉ name ∧ ')' ∉ name := by
  have hname : name = (String.ofList name).toList := by simp
  rw [hname]
  unfold CharSet.asciiClass? at h
  split at h
  case h_15 => cases h
  all_goals
    rename_i heq
    rw [heq]
    decide

theorem Seam.head_ne (ht : Seam t) {c : Char} (hc : c ≠ '|' ∧ c ≠ ')') (rest : List Char) : t ≠ c :: rest := by
  rcases ht with ⟨later, rfl | rfl⟩
  · exact fun heq => hc.1 (List.cons.inj heq).1.symm
  · exact fun heq => hc.2 (List.cons.inj heq).1.symm

/-- Another sign does not come to stand at the front by a seam behind. -/
theorem Seam.append_ne (ht : Seam t) {c : Char} (hc : c ≠ '|' ∧ c ≠ ')') (h : ∀ rest, cs ≠ c :: rest)
    (rest : List Char) : cs ++ t ≠ c :: rest := by
  rcases cs with _ | ⟨d, cs⟩
  · exact ht.head_ne hc rest
  · exact fun heq => h cs ((List.cons.inj heq).1 ▸ rfl)

/-- The name of a class is the same before a seam, and a name that is not closed there is none of a class. -/
theorem readClassName?_append (ht : Seam t) (cs : List Char) :
    readClassName? (cs ++ t) = (readClassName? cs).map fun (s, rest) => (s, rest ++ t) := by
  unfold readClassName?
  dsimp only
  rcases hdrop : cs.drop (cs.takeWhile (· != ':')).length with _ | ⟨c, more⟩
  · -- The name goes on behind the seam.
    have htake : cs.takeWhile (· != ':') = cs := by
      have hlength := congrArg List.length hdrop
      have hfront := List.takeWhile_prefix (l := cs) (fun c => c != ':')
      rw [List.length_drop, List.length_nil] at hlength
      exact hfront.eq_of_length (Nat.le_antisymm hfront.length_le (Nat.sub_eq_zero_iff_le.1 hlength))
    have hname : (cs ++ t).takeWhile (· != ':') = cs ++ t.takeWhile (· != ':') := by
      rw [List.takeWhile_append, htake, if_pos rfl]
    have hnone : CharSet.asciiClass? (String.ofList ((cs ++ t).takeWhile (· != ':'))) = none := by
      apply Option.eq_none_iff_forall_ne_some.2
      intro s hs
      rcases not_mem_of_asciiClass? hs with ⟨hbar, hclose⟩
      rw [hname] at hbar hclose
      rcases ht with ⟨later, rfl | rfl⟩
      · simp at hbar
      · simp at hclose
    rw [hnone]
    split <;> rfl
  · rcases takeWhile_append_of_drop hdrop t with ⟨htake, hdrop'⟩
    rw [htake, hdrop']
    rcases more with _ | ⟨d, more⟩
    · rcases ht with ⟨later, rfl | rfl⟩
      all_goals
        simp only [List.nil_append]
        split
        · simp_all
        · rfl
    · rw [List.cons_append]
      split
      · rename_i heq
        cases heq
        simp [Option.map_map, Function.comp_def]
      · rename_i hnot
        split
        · rename_i heq
          cases heq
          exact (hnot _ rfl).elim
        · rfl

theorem readAsciiClass?_colon (h : ∀ rest, cs ≠ '^' :: rest) :
    readAsciiClass? (':' :: cs) = (readClassName? cs).map fun (s, rest) => (s, false, rest) := by
  rw [readAsciiClass?]
  intro rest heq
  exact h rest heq

theorem readAsciiClass?_of_ne {c : Char} (hc : c ≠ ':') (cs : List Char) : readAsciiClass? (c :: cs) = none := by
  rw [readAsciiClass?]
  · exact fun _ heq => hc (List.cons.inj heq).1
  · exact fun _ heq => hc (List.cons.inj heq).1

theorem readAsciiClass?_append (ht : Seam t) (cs : List Char) :
    readAsciiClass? (cs ++ t) =
      (readAsciiClass? cs).map fun (s, negated, rest) => (s, negated, rest ++ t) := by
  rcases cs with _ | ⟨c, cs⟩
  · rcases ht with ⟨later, rfl | rfl⟩ <;> rfl
  · rw [List.cons_append]
    by_cases hc : c = ':'
    · subst hc
      by_cases hnegated : ∃ rest, cs = '^' :: rest
      · rcases hnegated with ⟨rest, rfl⟩
        simp only [List.cons_append, readAsciiClass?, readClassName?_append ht, Option.map_map,
          Function.comp_def]
      · have hcs (rest : List Char) : cs ≠ '^' :: rest := fun heq => hnegated ⟨rest, heq⟩
        rw [readAsciiClass?_colon hcs, readAsciiClass?_colon (ht.append_ne (by decide) hcs),
          readClassName?_append ht]
        simp only [Option.map_map, Function.comp_def]
    · rw [readAsciiClass?_of_ne hc, readAsciiClass?_of_ne hc]
      rfl

/-! ## Whole classes -/

theorem openItems_append {items : ClassItems} (h : openItems f cs = (items, rest)) (hrest : rest ≠ [])
    (t : List Char) : openItems f (cs ++ t) = (items, rest ++ t) := by
  unfold openItems at h ⊢
  split at h
  · rename_i behind hrun
    cases h
    rw [Flags.takeRun_append hrun (.inl (by simp))]
    rfl
  · rename_i hyphens behind hnot hrun
    cases h
    rw [Flags.takeRun_append hrun (.inl hrest)]
    rcases List.exists_cons_of_ne_nil hrest with ⟨c, later, rfl⟩
    split
    · rename_i heq
      obtain ⟨rfl, hcons⟩ := Prod.mk.inj heq
      obtain ⟨rfl, -⟩ := List.cons.inj hcons
      exact (hnot _ rfl rfl).elim
    · rename_i heq
      cases heq
      rfl

theorem openItems_nil (f : Flags) : openItems f [] = (.literal '-' 0, []) :=
  rfl

theorem openBracket_append {negated : Bool} {items : ClassItems} (h : openBracket f cs = (negated, items, rest))
    (hrest : rest ≠ []) (t : List Char) : openBracket f (cs ++ t) = (negated, items, rest ++ t) := by
  unfold openBracket at h ⊢
  have hne : f.gap cs ≠ [] := by
    intro hnil
    rw [hnil] at h
    cases h
    exact hrest rfl
  rw [Flags.gap_append (.inl hne)]
  generalize f.gap cs = signs at h hne
  split at h
  · rename_i inner
    obtain ⟨rfl, hitems⟩ := Prod.mk.inj h
    have hinner : f.gap inner ≠ [] := by
      intro hnil
      rw [hnil, openItems_nil] at hitems
      cases hitems
      exact hrest rfl
    simp only [List.cons_append, Flags.gap_append (.inl hinner), openItems_append hitems hrest]
  · rename_i hcircumflex
    obtain ⟨rfl, hitems⟩ := Prod.mk.inj h
    rcases List.exists_cons_of_ne_nil hne with ⟨c, inner, rfl⟩
    have happend := openItems_append hitems hrest t
    rw [List.cons_append] at happend ⊢
    split
    · rename_i heq
      obtain ⟨rfl, -⟩ := List.cons.inj heq
      exact (hcircumflex _ rfl).elim
    · rw [happend]

theorem readItems?_nil (f : Flags) (fuel : Nat) (before : Option (SetOp × ClassPart)) (items : ClassItems) :
    readItems? f fuel before items [] = none := by
  rcases fuel with _ | fuel
  · rfl
  · rw [readItems?, Flags.gap_nil]

/-- Signs that begin an item: neither a bracket, nor a sign that is written twice for an operation. -/
structure BeginsItem (cs : List Char) : Prop where
  ne_nil : cs ≠ []
  ne_close : ∀ rest, cs ≠ ']' :: rest
  ne_open : ∀ rest, cs ≠ '[' :: rest
  ne_twice : ∀ c ∈ ['&', '-', '~'], ∀ rest, cs ≠ c :: c :: rest

/-- A sign that is written twice for an operation is not written once before a seam. -/
theorem BeginsItem.append (h : BeginsItem cs) (ht : Seam t) : BeginsItem (cs ++ t) := by
  rcases List.exists_cons_of_ne_nil h.ne_nil with ⟨c, inner, rfl⟩
  rw [List.cons_append]
  refine ⟨List.cons_ne_nil c _, ?_, ?_, ?_⟩
  · intro rest heq
    exact h.ne_close inner ((List.cons.inj heq).1 ▸ rfl)
  · intro rest heq
    exact h.ne_open inner ((List.cons.inj heq).1 ▸ rfl)
  · intro d hd rest heq
    obtain ⟨rfl, hinner⟩ := List.cons.inj heq
    have hseam : c ≠ '|' ∧ c ≠ ')' := by
      simp only [List.mem_cons, List.not_mem_nil, or_false] at hd
      rcases hd with rfl | rfl | rfl <;> decide
    exact ht.append_ne hseam (fun rest heq => h.ne_twice c hd rest (heq ▸ rfl)) _ hinner

theorem readItems?_item {fuel : Nat} {before : Option (SetOp × ClassPart)} {items : ClassItems}
    (h : BeginsItem (f.gap cs)) :
    readItems? f (fuel + 1) before items cs =
      (readClassRange? f (f.gap cs)).bind fun (s, rest) => readItems? f fuel before (items.add ⟨s, 0⟩) rest := by
  rw [readItems?]
  generalize f.gap cs = signs at h
  dsimp only
  split
  · exact absurd rfl h.ne_nil
  · exact absurd rfl (h.ne_close _)
  · exact absurd rfl (h.ne_open _)
  · exact absurd rfl (h.ne_twice '&' (by simp) _)
  · exact absurd rfl (h.ne_twice '-' (by simp) _)
  · exact absurd rfl (h.ne_twice '~' (by simp) _)
  · rfl

/-- Items up to a closing bracket are the same before a seam, with any more fuel. -/
theorem readItems?_append {fuel : Nat} {before : Option (SetOp × ClassPart)} {items : ClassItems} {p : ClassPart}
    (h : readItems? f fuel before items cs = some (p, rest)) (hrest : rest ≠ [] ∨ f.spaced = false) (ht : Seam t)
    (more : Nat) : readItems? f (fuel + more) before items (cs ++ t) = some (p, rest ++ t) := by
  induction fuel generalizing before items cs p rest with
  | zero => cases h
  | succ fuel ih =>
    rw [Nat.add_right_comm]
    by_cases hitem : BeginsItem (f.gap cs)
    · rw [readItems?_item hitem] at h
      rcases Option.bind_eq_some_iff.1 h with ⟨⟨s, behind⟩, hrange, h⟩
      dsimp only at h
      have hbehind : behind ≠ [] := by
        rintro rfl
        rw [readItems?_nil] at h
        cases h
      have hgap := Flags.gap_append (.inl hitem.ne_nil) t
      rw [readItems?_item (hgap ▸ hitem.append ht), hgap,
        stable_readClassRange? f hrange (.inl hbehind) ht]
      exact ih h hrest
    · rw [readItems?] at h ⊢
      have hne : f.gap cs ≠ [] := by
        intro hnil
        rw [hnil] at h
        cases h
      rw [Flags.gap_append (.inl hne)]
      generalize f.gap cs = signs at h hne hitem
      dsimp only at h ⊢
      split at h
      case h_1 => exact absurd rfl hne
      case h_2 =>
        cases h
        rfl
      case h_3 inner =>
        simp only [List.cons_append, readAsciiClass?_append ht]
        rcases hclass : readAsciiClass? inner with _ | ⟨s, negated, behind⟩
        · rw [hclass] at h
          rcases hopen : openBracket f inner with ⟨negated, first, behind⟩
          rw [hopen] at h
          rcases Option.bind_eq_some_iff.1 h with ⟨⟨q, later⟩, hitems, h⟩
          rcases Option.bind_eq_some_iff.1 h with ⟨s, hs, h⟩
          have hlater : later ≠ [] := by
            rintro rfl
            rw [readItems?_nil] at h
            cases h
          have hbehind : behind ≠ [] := by
            rintro rfl
            rw [readItems?_nil] at hitems
            cases hitems
          have hinner := ih hitems (.inl hlater)
          simp only [Option.map_none, openBracket_append hopen hbehind, hinner, hs, Option.bind_eq_bind,
            Option.bind_some]
          exact ih h hrest
        · rw [hclass] at h
          rcases Option.bind_eq_some_iff.1 h with ⟨s', hs', h⟩
          simp only [Option.map_some, hs', Option.bind_eq_bind, Option.bind_some]
          exact ih h hrest
      case h_4 => exact ih h hrest
      case h_5 => exact ih h hrest
      case h_6 => exact ih h hrest
      case h_7 hclose hopen hand hhyphen htilde =>
        refine absurd ⟨hne, hclose, hopen, ?_⟩ hitem
        simp only [List.mem_cons, List.not_mem_nil, or_false]
        rintro c (rfl | rfl | rfl)
        · exact hand
        · exact hhyphen
        · exact htilde

theorem stable_readBracket? (f : Flags) : Stable f (readBracket? f) := by
  intro cs x rest h hrest t ht
  unfold readBracket? at h ⊢
  rcases hopen : openBracket f cs with ⟨negated, first, behind⟩
  rw [hopen] at h
  rcases Option.bind_eq_some_iff.1 h with ⟨⟨p, later⟩, hitems, h⟩
  rcases Option.bind_eq_some_iff.1 h with ⟨s, hs, heq⟩
  cases heq
  have hbehind : behind ≠ [] := by
    rintro rfl
    rw [readItems?_nil] at hitems
    cases hitems
  have hitems' := readItems?_append hitems hrest ht t.length
  have hlength : (cs ++ t).length + 1 = cs.length + 1 + t.length := by
    rw [List.length_append]
    omega
  rw [openBracket_append hopen hbehind, hlength]
  dsimp only
  rw [hitems']
  simp only [Option.bind_eq_bind, Option.bind_some, hs]
  rfl

end Descent.Pattern
