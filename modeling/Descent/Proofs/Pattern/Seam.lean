import Mathlib.Data.Option.Basic
import Descent.Pattern.Reader

/-!
# Seams

A written pattern may stand before a bar or a closing parenthesis.  What is read of it does not depend on what
follows there, since neither sign continues an escape, a count or the beginning of a group.  Only where blanks and
comments are left out a comment may run on behind the pattern, so that a reader that comes to the end has to know
that this is not so.

Main results:

- `Seam` says that a text starts with a bar or a closing parenthesis.
- `Flags.gap_append`, `Flags.takeRun_append`: moves between signs are the same before a seam.
- `Stable` says so of a reader: of escapes in `stable_readEscape?`, of openings of groups in `stable_openGroup?`,
  and of counts in `readCount?_append`.
-/

namespace Descent.Pattern

variable {f : Flags} {c : Char} {cs rest t run : List Char} {p : Char → Bool}

/-- A text starts with a bar or a closing parenthesis. -/
def Seam (t : List Char) : Prop :=
  ∃ rest, t = '|' :: rest ∨ t = ')' :: rest

/-- A reader reads the same before a seam, if it stops before the end or no comment can run on. -/
def Stable {α : Type} (f : Flags) (read? : List Char → Option (α × List Char)) : Prop :=
  ∀ ⦃cs x rest⦄, read? cs = some (x, rest) → (rest ≠ [] ∨ f.spaced = false) →
    ∀ ⦃t⦄, Seam t → read? (cs ++ t) = some (x, rest ++ t)

namespace Flags

/-! ## Moves between signs -/

theorem skipSpaced_append {inComment : Bool} (h : skipSpaced inComment cs ≠ []) (t : List Char) :
    skipSpaced inComment (cs ++ t) = skipSpaced inComment cs ++ t := by
  induction cs generalizing inComment with
  | nil => exact absurd rfl h
  | cons c cs ih =>
    rw [List.cons_append]
    simp only [skipSpaced] at h ⊢
    split
    · rename_i hcomment
      rw [if_pos hcomment] at h
      exact ih h
    · rename_i hcomment
      rw [if_neg hcomment] at h
      split
      · rename_i hblank
        rw [if_pos hblank] at h
        exact ih h
      · rename_i hblank
        rw [if_neg hblank] at h
        split
        · rename_i hmark
          rw [if_pos hmark] at h
          exact ih h
        · rfl

@[simp]
theorem gap_nil (f : Flags) : f.gap [] = [] := by
  unfold gap
  split <;> rfl

/-- A move to the next sign is the same before more signs, if there is a next sign or no comment can run on. -/
theorem gap_append (h : f.gap cs ≠ [] ∨ f.spaced = false) (t : List Char) : f.gap (cs ++ t) = f.gap cs ++ t := by
  by_cases hspaced : f.spaced = true
  · have hne : f.gap cs ≠ [] := h.resolve_right (by simp [hspaced])
    unfold gap at hne ⊢
    rw [if_pos hspaced] at hne ⊢
    rw [if_pos hspaced]
    exact skipSpaced_append hne t
  · have hnot : f.spaced = false := Bool.not_eq_true _ ▸ hspaced
    rw [gap_of_not_spaced hnot, gap_of_not_spaced hnot]

/-- Where a move leads to the end without blanks being left out there is nothing to read. -/
theorem eq_nil_of_gap (h : f.gap cs = []) (hspaced : f.spaced = false) : cs = [] := by
  rwa [gap_of_not_spaced hspaced] at h

theorem length_skipSpaced_le (inComment : Bool) (cs : List Char) :
    (skipSpaced inComment cs).length ≤ cs.length := by
  induction cs generalizing inComment with
  | nil => exact Nat.le_refl 0
  | cons c cs ih =>
    rw [skipSpaced]
    have hle (b : Bool) : (skipSpaced b cs).length ≤ (c :: cs).length := Nat.le_succ_of_le (ih b)
    split
    · exact hle _
    · split
      · exact hle _
      · split
        · exact hle _
        · exact Nat.le_refl _

theorem length_gap_le (f : Flags) (cs : List Char) : (f.gap cs).length ≤ cs.length := by
  unfold gap
  split
  · exact length_skipSpaced_le false cs
  · exact Nat.le_refl _

theorem readRun_nil (f : Flags) (p : Char → Bool) (n : Nat) : f.readRun p n [] = ([], []) := by
  cases n <;> rfl

theorem readRun_cons (f : Flags) (p : Char → Bool) (n : Nat) (c : Char) (cs : List Char) :
    f.readRun p (n + 1) (c :: cs) =
      if p c then (c :: (f.readRun p n (f.gap cs)).1, (f.readRun p n (f.gap cs)).2) else ([], c :: cs) :=
  rfl

/-- A run does not go on behind a sign that ends it. -/
theorem readRun_stop (hstop : ∀ c ∈ t.head?, p c = false) (n : Nat) : f.readRun p n t = ([], t) := by
  rcases t with _ | ⟨c, t⟩
  · exact readRun_nil f p n
  · rcases n with _ | n
    · rfl
    · rw [readRun_cons, hstop c rfl]
      rfl

/-- A run of signs is the same before more signs, if it stops before the end or the first of them ends it. -/
theorem readRun_append {m n : Nat} (h : f.readRun p m cs = (run, rest)) (hm : cs.length ≤ m) (hn : cs.length ≤ n)
    (hstop : rest ≠ [] ∨ f.spaced = false ∧ ∀ c ∈ t.head?, p c = false) :
    f.readRun p n (cs ++ t) = (run, rest ++ t) := by
  induction m generalizing cs n run with
  | zero =>
    obtain rfl := List.eq_nil_of_length_eq_zero (Nat.le_zero.1 hm)
    cases h
    exact readRun_stop (hstop.resolve_left (by simp)).2 n
  | succ m ih =>
    rcases cs with _ | ⟨c, cs⟩
    · cases h
      exact readRun_stop (hstop.resolve_left (by simp)).2 n
    · obtain ⟨n, rfl⟩ : ∃ k, n = k + 1 := ⟨n - 1, by rw [List.length_cons] at hn; omega⟩
      rw [readRun_cons] at h
      rw [List.cons_append, readRun_cons]
      split at h
      · rename_i hc
        obtain ⟨hrun, hrest⟩ := Prod.mk.inj h
        have hgap : f.gap cs ≠ [] ∨ f.spaced = false := by
          by_cases hnil : f.gap cs = []
          · rw [hnil, readRun_nil] at hrest
            exact .inr (hstop.resolve_left (fun hne => hne hrest.symm)).1
          · exact .inl hnil
        have hlength := length_gap_le f cs
        rw [List.length_cons] at hm hn
        have hlater := ih (Prod.ext rfl hrest) (by omega : (f.gap cs).length ≤ m) (by omega : _ ≤ n)
        rw [if_pos hc, gap_append hgap, hlater, ← hrun]
      · rename_i hc
        cases h
        rw [if_neg hc]
        rfl

theorem takeRun_append (h : f.takeRun p cs = (run, rest))
    (hstop : rest ≠ [] ∨ f.spaced = false ∧ ∀ c ∈ t.head?, p c = false) :
    f.takeRun p (cs ++ t) = (run, rest ++ t) :=
  readRun_append h (Nat.le_refl _) (by rw [List.length_append]; omega) hstop

@[simp]
theorem takeRun_nil (f : Flags) (p : Char → Bool) : f.takeRun p [] = ([], []) :=
  rfl

/-- Where signs are left behind a run there was a sign to begin with. -/
theorem gap_ne_nil_of_takeRun (h : f.takeRun p (f.gap cs) = (run, rest)) (hrest : rest ≠ []) : f.gap cs ≠ [] := by
  intro hnil
  rw [hnil, takeRun_nil] at h
  cases h
  exact hrest rfl

end Flags

/-! ## Escapes -/

theorem stable_readHexDigits? (f : Flags) (n value : Nat) : Stable f (readHexDigits? f n value) := by
  induction n generalizing value with
  | zero =>
    intro cs x rest h _ t _
    cases h
    rfl
  | succ n ih =>
    intro cs x rest h hrest t ht
    rcases cs with _ | ⟨c, cs⟩
    · cases h
    · rw [readHexDigits?, Option.bind_eq_some_iff] at h
      rcases h with ⟨d, hd, h⟩
      have hgap : f.gap cs ≠ [] ∨ f.spaced = false := by
        by_cases hnil : f.gap cs = []
        · rw [hnil] at h
          rcases n with _ | n
          · cases h
            exact .inr (hrest.resolve_left (by simp))
          · cases h
        · exact .inl hnil
      rw [List.cons_append, readHexDigits?, hd, Option.bind_some, Flags.gap_append hgap]
      exact ih _ h hrest ht

/-- A run behind a move is the same before more signs if it stops before the end. -/
theorem Flags.takeRun_gap_append (h : f.takeRun p (f.gap cs) = (run, c :: rest)) (t : List Char) :
    f.takeRun p (f.gap (cs ++ t)) = (run, c :: (rest ++ t)) := by
  rw [gap_append (.inl (gap_ne_nil_of_takeRun h (by simp)))]
  exact takeRun_append h (.inl (by simp))

theorem stable_readCode? (f : Flags) (n : Nat) : Stable f (readCode? f (n + 1)) := by
  intro cs x rest h hrest t ht
  unfold readCode? at h ⊢
  split at h
  · rename_i inner hgap
    rw [Flags.gap_append (.inl (by simp [hgap])), hgap]
    split at h
    · rename_i digits c behind hrun
      rcases Option.bind_eq_some_iff.1 h with ⟨code, hcode, heq⟩
      cases heq
      simp only [List.cons_append, Flags.takeRun_gap_append hrun, hcode]
      rfl
    · cases h
  · rename_i hnot
    rcases Option.bind_eq_some_iff.1 h with ⟨⟨value, behind⟩, hdigits, h⟩
    rcases Option.bind_eq_some_iff.1 h with ⟨code, hcode, heq⟩
    cases heq
    have hne : f.gap cs ≠ [] := by
      intro hnil
      rw [hnil] at hdigits
      cases hdigits
    have hdigits' := stable_readHexDigits? f _ _ hdigits hrest ht
    rw [Flags.gap_append (.inl hne)]
    split
    · rename_i inner heq
      rcases List.exists_cons_of_ne_nil hne with ⟨c, later, hgap⟩
      rw [hgap] at heq
      obtain ⟨rfl, -⟩ := List.cons.inj heq
      exact absurd hgap (hnot later)
    · rw [hdigits']
      simp only [Option.bind_eq_bind, Option.bind_some, hcode]
      rfl

theorem stable_readProperty? (f : Flags) (negated : Bool) : Stable f (readProperty? f negated) := by
  intro cs x rest h _ t _
  unfold readProperty? at h ⊢
  split at h
  · cases h
  · rename_i inner hgap
    rw [Flags.gap_append (.inl (by simp [hgap])), hgap]
    split at h
    · cases h
    · rename_i name c behind hrun
      rcases Option.map_eq_some_iff.1 h with ⟨q, hq, heq⟩
      cases heq
      simp only [List.cons_append, Flags.takeRun_gap_append hrun, hq]
      rfl
  · rename_i c inner hbrace hgap
    rw [Flags.gap_append (.inl (by simp [hgap])), hgap, List.cons_append]
    split at h
    · cases h
    · rename_i hescape
      rcases Option.map_eq_some_iff.1 h with ⟨q, hq, heq⟩
      cases heq
      split
      · contradiction
      · rename_i heq
        obtain ⟨rfl, -⟩ := List.cons.inj heq
        exact (hbrace rfl).elim
      · rename_i heq
        cases heq
        rw [if_neg hescape, hq]
        rfl

theorem Seam.ne_brace (h : Seam t) (rest : List Char) : t ≠ '\x7b' :: rest := by
  rcases h with ⟨later, rfl | rfl⟩ <;> simp

theorem stable_readBoundary? (f : Flags) : Stable f (readBoundary? f) := by
  intro cs x rest h _ t ht
  unfold readBoundary? at h ⊢
  dsimp only at h ⊢
  split at h
  · rename_i inner
    rw [List.cons_append]
    split at h
    · rename_i behind hrun
      split at h
      · cases h
      · rename_i hmore
        cases h
        rcases behind with _ | ⟨c, behind⟩
        · exact absurd rfl hmore
        · simp only [Flags.takeRun_gap_append hrun]
          rfl
    · rename_i name behind hname hrun
      simp only [Flags.takeRun_gap_append hrun]
      split at h <;> cases h <;> rfl
    · cases h
  · rename_i hbrace
    cases h
    split
    · rename_i inner heq
      rcases cs with _ | ⟨c, cs⟩
      · exact absurd heq (ht.ne_brace inner)
      · obtain ⟨rfl, -⟩ := List.cons.inj heq
        exact absurd rfl (hbrace cs)
    · rfl

theorem stable_readEscape? (f : Flags) : Stable f (readEscape? f) := by
  intro cs x rest h hrest t ht
  rcases cs with _ | ⟨c, cs⟩
  · cases h
  · rw [List.cons_append]
    unfold readEscape? at h ⊢
    dsimp only at h ⊢
    split at h
    case h_1 => exact stable_readCode? f 1 h hrest ht
    case h_2 => exact stable_readCode? f 3 h hrest ht
    case h_3 => exact stable_readCode? f 7 h hrest ht
    case h_4 => exact stable_readProperty? f false h hrest ht
    case h_5 => exact stable_readProperty? f true h hrest ht
    case h_20 => exact stable_readBoundary? f h hrest ht
    case h_24 =>
      split at h
      · rename_i hc
        cases h
        simp [hc]
      · cases h
    all_goals
      cases h
      rfl

/-! ## Counts -/

theorem trimStart_append (h : Text.trimStart cs ≠ []) (t : List Char) :
    Text.trimStart (cs ++ t) = Text.trimStart cs ++ t := by
  rw [Text.trimStart, List.dropWhile_append, if_neg]
  · rfl
  · rwa [List.isEmpty_iff]

theorem readNumber_nil (f : Flags) : readNumber f [] = (none, []) := by
  unfold readNumber
  simp [Text.trimStart, Text.natOfDigits?]

theorem readNumber_append {n : Option Nat} (h : readNumber f cs = (n, rest)) (hrest : rest ≠ [])
    (t : List Char) : readNumber f (cs ++ t) = (n, rest ++ t) := by
  unfold readNumber at h ⊢
  rcases hrun : f.takeRun Char.isDigit (Text.trimStart cs) with ⟨digits, behind⟩
  rw [hrun] at h
  cases h
  have htrim : Text.trimStart behind ≠ [] := by
    intro hnil
    rw [hnil, Flags.gap_nil] at hrest
    exact hrest rfl
  have hbehind : behind ≠ [] := by
    rintro rfl
    exact htrim rfl
  have hfirst : Text.trimStart cs ≠ [] := by
    intro hnil
    rw [hnil, Flags.takeRun_nil] at hrun
    cases hrun
    exact hbehind rfl
  rw [trimStart_append hfirst, Flags.takeRun_append hrun (.inl hbehind)]
  dsimp only
  rw [trimStart_append htrim, Flags.gap_append (.inl hrest)]

theorem readCount?_append {min : Nat} {max : Option Nat} (h : readCount? f cs = some (min, max, rest))
    (t : List Char) : readCount? f (cs ++ t) = some (min, max, rest ++ t) := by
  unfold readCount? at h ⊢
  rcases hfirst : readNumber f (f.gap cs) with ⟨first, behind⟩
  have happend (hbehind : behind ≠ []) : readNumber f (f.gap (cs ++ t)) = (first, behind ++ t) := by
    have hne : f.gap cs ≠ [] := by
      intro hnil
      rw [hnil, readNumber_nil] at hfirst
      cases hfirst
      exact hbehind rfl
    rw [Flags.gap_append (.inl hne)]
    exact readNumber_append hfirst hbehind t
  rw [hfirst] at h
  rcases Option.bind_eq_some_iff.1 h with ⟨low, hlow, hmin⟩
  rcases Option.bind_eq_some_iff.1 hmin with ⟨⟨⟩, hguard, hmax⟩
  split at hmax
  · cases hmax
    rw [happend (by simp), hlow]
    simp only [Option.bind_eq_bind, Option.bind_some, hguard]
    rfl
  · rename_i inner
    rw [happend (by simp), hlow]
    simp only [Option.bind_eq_bind, Option.bind_some, hguard, List.cons_append]
    split at hmax
    · rename_i hgap
      cases hmax
      rw [Flags.gap_append (.inl (by simp [hgap])), hgap]
      rfl
    · rename_i hbrace
      rcases hsecond : readNumber f (f.gap inner) with ⟨second, later⟩
      rw [hsecond] at hmax
      rcases Option.bind_eq_some_iff.1 hmax with ⟨high, hhigh, hmore⟩
      rcases Option.bind_eq_some_iff.1 hmore with ⟨⟨⟩, hguard', hend⟩
      split at hend
      · cases hend
        have hinner : f.gap inner ≠ [] := by
          intro hnil
          rw [hnil, readNumber_nil] at hsecond
          cases hsecond
        rw [Flags.gap_append (.inl hinner)]
        split
        · rename_i heq
          rcases List.exists_cons_of_ne_nil hinner with ⟨c, others, hcons⟩
          rw [hcons] at heq
          obtain ⟨rfl, -⟩ := List.cons.inj heq
          exact absurd hcons (hbrace others)
        · rw [readNumber_append hsecond (by simp), hhigh]
          simp only [Option.bind_some, hguard']
          rfl
      · cases hend
  · cases hmax

/-! ## Openings of groups -/

theorem takeWhile_append_of_drop {c : Char} (h : cs.drop (cs.takeWhile p).length = c :: rest) (t : List Char) :
    (cs ++ t).takeWhile p = cs.takeWhile p ∧
      (cs ++ t).drop (cs.takeWhile p).length = c :: (rest ++ t) := by
  have hlength : (cs.takeWhile p).length < cs.length := by
    have hne := congrArg List.length h
    rw [List.length_drop, List.length_cons] at hne
    omega
  constructor
  · rw [List.takeWhile_append, if_neg (by omega)]
  · rw [List.drop_append_of_le_length (by omega), h]
    rfl

theorem readGroupName?_append {name : String} (h : readGroupName? cs = some (name, rest)) (t : List Char) :
    readGroupName? (cs ++ t) = some (name, rest ++ t) := by
  unfold readGroupName? at h ⊢
  dsimp only at h ⊢
  split at h
  · rename_i c others d behind hname hdrop
    rcases takeWhile_append_of_drop hdrop t with ⟨htake, hdrop'⟩
    rw [htake, hname]
    rw [hname] at hdrop'
    rw [hdrop']
    dsimp only
    split at h
    · rename_i hvalid
      cases h
      rw [if_pos hvalid, hname]
    · cases h
  · cases h

theorem readFlags?_append {on : Bool} {seen letters : List Char} {g : Flags}
    (h : readFlags? f on seen cs = some (g, letters, rest)) (t : List Char) :
    readFlags? f on seen (cs ++ t) = some (g, letters, rest ++ t) ∧ rest ≠ [] := by
  induction cs generalizing f on seen with
  | nil => cases h
  | cons c cs ih =>
    rw [List.cons_append]
    rw [readFlags?] at h ⊢
    split at h
    · rename_i hend
      rw [if_pos hend]
      split at h
      · cases h
      · rename_i hlast
        cases h
        rw [if_neg hlast]
        exact ⟨rfl, by simp⟩
    · rename_i hend
      rw [if_neg hend]
      split at h
      · cases h
      · rename_i hseen
        rw [if_neg hseen]
        split at h
        · rename_i hhyphen
          rw [if_pos hhyphen]
          exact ih h
        · rename_i hhyphen
          rw [if_neg hhyphen]
          rcases Option.bind_eq_some_iff.1 h with ⟨g', hg', h⟩
          rw [hg']
          exact ih h

theorem openNamed?_append {o : Opened} (h : openNamed? f cs = some (o, rest)) (t : List Char) :
    openNamed? f (cs ++ t) = some (o, rest ++ t) := by
  rcases Option.map_eq_some_iff.1 h with ⟨⟨name, behind⟩, hname, heq⟩
  cases heq
  rw [openNamed?, readGroupName?_append hname]
  rfl

theorem openFlagged?_append {o : Opened} (h : openFlagged? f cs = some (o, rest)) (t : List Char) :
    openFlagged? f (cs ++ t) = some (o, rest ++ t) := by
  rcases Option.bind_eq_some_iff.1 h with ⟨⟨g, letters, behind⟩, hflags, hend⟩
  rcases readFlags?_append hflags t with ⟨hflags', hbehind⟩
  rw [openFlagged?, hflags']
  rcases behind with _ | ⟨c, behind⟩
  · exact absurd rfl hbehind
  · by_cases hcolon : c = ':'
    · subst hcolon
      cases hend
      rfl
    · simp_all

theorem openGroup?_append {o : Opened} (h : openGroup? f cs = some (o, rest)) (hne : f.gap cs ≠ [])
    (t : List Char) : openGroup? f (cs ++ t) = some (o, rest ++ t) := by
  unfold openGroup? at h ⊢
  rw [Flags.gap_append (.inl hne)]
  generalize f.gap cs = signs at h hne
  split at h
  case h_1 => exact openNamed?_append h t
  case h_2 => exact openNamed?_append h t
  case h_3 inner hless hletter =>
    have happend := openFlagged?_append h t
    rcases inner with _ | ⟨c, inner⟩
    · cases h
    · simp only [List.cons_append] at happend ⊢
      split
      · rename_i heq
        obtain ⟨rfl, -⟩ := List.cons.inj (List.cons.inj heq).2
        exact (hless _ rfl).elim
      · rename_i heq
        obtain ⟨rfl, -⟩ := List.cons.inj (List.cons.inj heq).2
        cases h
      · rename_i heq
        obtain rfl := (List.cons.inj heq).2
        exact happend
      · rename_i hquestion
        exact (hquestion _ rfl).elim
  case h_4 hquestion =>
    cases h
    rcases List.exists_cons_of_ne_nil hne with ⟨c, inner, rfl⟩
    have hc : c ≠ '?' := fun heq => hquestion inner (heq ▸ rfl)
    rw [List.cons_append]
    split
    · rename_i heq
      exact absurd (List.cons.inj heq).1 hc
    · rename_i heq
      exact absurd (List.cons.inj heq).1 hc
    · rename_i heq
      exact absurd (List.cons.inj heq).1 hc
    · rfl

/-- Where no sign follows a parenthesis it opens a group. -/
theorem openGroup?_of_gap (h : f.gap cs = []) : openGroup? f cs = some (.group .numbered f, []) := by
  rw [openGroup?, h]

theorem stable_openGroup? (f : Flags) : Stable f (openGroup? f) := by
  intro cs x rest h hrest t ht
  by_cases hnil : f.gap cs = []
  · rw [openGroup?_of_gap hnil] at h
    cases h
    have hspaced := hrest.resolve_left (by simp)
    obtain rfl := Flags.eq_nil_of_gap hnil hspaced
    rw [List.nil_append, openGroup?, Flags.gap_of_not_spaced hspaced]
    rcases ht with ⟨later, rfl | rfl⟩ <;> rfl
  · exact openGroup?_append h hnil t

end Descent.Pattern
