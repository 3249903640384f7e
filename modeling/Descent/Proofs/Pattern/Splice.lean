import Descent.Proofs.Pattern.BracketSeam

/-!
# Written patterns side by side

Written patterns are joined by a bar and put in a group, and what was joined may be joined again.  The alternatives
of the whole are then those of the patterns one after the other, the second one read with the flags that hold at the
end of the first, if no comment can run on behind either of them.

Main results:

- `readBranches?_append`: what is read up to a closing parenthesis does not depend on what is written behind it.
- `goesOn_of_readBranches?`: reading goes on at a seam with what was read before it.
- `read?_joined`: two patterns in a group read as the alternatives of both.
-/

namespace Descent.Pattern

variable {f g : Flags} {cs rest t : List Char} {a b : Alternatives} {branches : List Nested} {items : List Item}
  {fuel : Nat}

/-! ## Elements -/

theorem readSign?_append {c : Char} {e : Element} (h : readSign? f c cs = some (e, rest))
    (hrest : rest ≠ [] ∨ f.spaced = false) (ht : Seam t) : readSign? f c (cs ++ t) = some (e, rest ++ t) := by
  unfold readSign? at h ⊢
  dsimp only at h ⊢
  split at h
  case h_3 =>
    rcases Option.map_eq_some_iff.1 h with ⟨⟨o, behind⟩, ho, heq⟩
    cases heq
    rw [stable_openGroup? f ho hrest ht]
    rfl
  case h_4 =>
    rcases Option.bind_eq_some_iff.1 h with ⟨⟨p, behind⟩, hp, h⟩
    split at h
    · cases h
    · rename_i hkept
      cases h
      rw [stable_readBracket? f hp hrest ht]
      simp only [Option.bind_eq_bind, Option.bind_some, if_neg hkept]
  case h_8 =>
    rcases Option.map_eq_some_iff.1 h with ⟨⟨min, max, behind⟩, hcount, heq⟩
    cases heq
    rw [readCount?_append hcount]
    simp only [Option.map_some, Flags.gap_append hrest]
  case h_9 =>
    rcases Option.bind_eq_some_iff.1 h with ⟨⟨e, behind⟩, he, h⟩
    rcases Option.bind_eq_some_iff.1 h with ⟨a, ha, h⟩
    split at h
    · cases h
    · rename_i hkept
      cases h
      rw [stable_readEscape? f he hrest ht]
      simp only [Option.bind_eq_bind, Option.bind_some, ha, if_neg hkept]
  case h_10 | h_11 | h_12 | h_13 =>
    split at h
    · cases h
    · rename_i hkept
      cases h
      simp only [if_neg hkept]
  all_goals
    cases h
    rfl

theorem readElement?_append {e : Element} (h : readElement? f cs = some (e, rest)) (hne : f.gap cs ≠ [])
    (hrest : rest ≠ [] ∨ f.spaced = false) (ht : Seam t) :
    readElement? f (cs ++ t) = some (e, rest ++ t) := by
  unfold readElement? at h ⊢
  rw [Flags.gap_append (.inl hne)]
  rcases List.exists_cons_of_ne_nil hne with ⟨c, inner, hgap⟩
  rw [hgap] at h ⊢
  exact readSign?_append h hrest ht

theorem readElement?_of_gap (h : f.gap cs = []) : readElement? f cs = some (.close, []) := by
  rw [readElement?, h]

theorem gap_ne_nil_of_readElement? {e : Element} (h : readElement? f cs = some (e, rest)) (he : e ≠ .close) :
    f.gap cs ≠ [] := by
  intro hnil
  rw [readElement?_of_gap hnil] at h
  cases h
  exact he rfl

/-- Alternatives end at the end of the text or at a closing parenthesis. -/
theorem eq_gap_of_readElement?_close (h : readElement? f cs = some (.close, rest)) :
    rest = f.gap cs ∧ (rest = [] ∨ ∃ later, rest = ')' :: later) := by
  unfold readElement? at h
  split at h
  · rename_i hgap
    cases h
    exact ⟨hgap.symm, .inl rfl⟩
  · rename_i c inner hgap
    rw [hgap]
    unfold readSign? at h
    dsimp only at h
    split at h
    case h_1 =>
      cases h
      exact ⟨rfl, .inr ⟨_, rfl⟩⟩
    case h_3 =>
      rcases Option.map_eq_some_iff.1 h with ⟨_, -, heq⟩
      cases heq
    case h_4 =>
      rcases Option.bind_eq_some_iff.1 h with ⟨_, -, h⟩
      split at h <;> cases h
    case h_8 =>
      rcases Option.map_eq_some_iff.1 h with ⟨_, -, heq⟩
      cases heq
    case h_9 =>
      rcases Option.bind_eq_some_iff.1 h with ⟨_, -, h⟩
      rcases Option.bind_eq_some_iff.1 h with ⟨_, -, h⟩
      split at h <;> cases h
    case h_10 | h_11 | h_12 | h_13 => split at h <;> cases h
    all_goals cases h

/-- Only a parenthesis opens a group or changes flags. -/
theorem eq_of_readSign?_opened {c : Char} {o : Opened} (h : readSign? f c cs = some (.opened o, rest)) :
    c = '(' ∧ openGroup? f cs = some (o, rest) := by
  unfold readSign? at h
  dsimp only at h
  split at h
  case h_3 =>
    rcases Option.map_eq_some_iff.1 h with ⟨⟨o', behind⟩, ho, heq⟩
    cases heq
    exact ⟨rfl, ho⟩
  case h_4 =>
    rcases Option.bind_eq_some_iff.1 h with ⟨_, -, h⟩
    split at h <;> cases h
  case h_8 =>
    rcases Option.map_eq_some_iff.1 h with ⟨_, -, heq⟩
    cases heq
  case h_9 =>
    rcases Option.bind_eq_some_iff.1 h with ⟨_, -, h⟩
    rcases Option.bind_eq_some_iff.1 h with ⟨_, -, h⟩
    split at h <;> cases h
  case h_10 | h_11 | h_12 | h_13 => split at h <;> cases h
  all_goals cases h

/-- Flags that change do so whatever is written behind. -/
theorem readElement?_append_of_directive (h : readElement? f cs = some (.opened (.directive g), rest))
    (t : List Char) : readElement? f (cs ++ t) = some (.opened (.directive g), rest ++ t) := by
  have hne := gap_ne_nil_of_readElement? h (by simp)
  unfold readElement? at h ⊢
  rw [Flags.gap_append (.inl hne)]
  rcases List.exists_cons_of_ne_nil hne with ⟨c, inner, hgap⟩
  rw [hgap] at h ⊢
  rcases eq_of_readSign?_opened h with ⟨rfl, hopen⟩
  have hinner : f.gap inner ≠ [] := by
    intro hnil
    rw [openGroup?_of_gap hnil] at hopen
    cases hopen
  simp only [List.cons_append, readSign?, openGroup?_append hopen hinner]
  rfl

/-- A closing parenthesis ends the alternatives. -/
theorem readElement?_close (f : Flags) (cs : List Char) :
    readElement? f (')' :: cs) = some (.close, ')' :: cs) := by
  have hgap : f.gap (')' :: cs) = ')' :: cs := by
    unfold Flags.gap
    split
    · rfl
    · rfl
  rw [readElement?, hgap]
  rfl

theorem repeatLast?_nil {min : Nat} {max : Option Nat} {items' : List Item}
    (h : repeatLast? f items min max [] = some (items', rest)) : rest = [] := by
  unfold repeatLast? at h
  split at h <;> cases h
  rfl

theorem repeatLast?_append {min : Nat} {max : Option Nat} {items' : List Item}
    (h : repeatLast? f items min max cs = some (items', rest)) (ht : Seam t) :
    repeatLast? f items min max (cs ++ t) = some (items', rest ++ t) := by
  unfold repeatLast? at h ⊢
  split at h
  · cases h
    rcases cs with _ | ⟨c, cs⟩
    · rcases ht with ⟨later, rfl | rfl⟩ <;> rfl
    · simp only [List.cons_append, List.head?_cons, List.tail_cons]
      by_cases hc : (some c == some '?') = true
      · simp only [hc, if_true]
      · simp only [hc, if_neg Bool.false_ne_true, List.cons_append]
  · cases h

/-! ## Alternatives -/

/-- At the end of a text the alternatives end. -/
theorem readBranches?_end (fuel : Nat) (f : Flags) (branches : List Nested) (items : List Item) :
    readBranches? (fuel + 1) f branches items [] =
      some (⟨f, (sequenceOf items :: branches).reverse⟩, []) := by
  rw [readBranches?, readElement?_of_gap (Flags.gap_nil f)]

theorem readBranches?_nil (h : readBranches? fuel f branches items [] = some (a, rest)) : a.flags = f ∧ rest = [] := by
  rcases fuel with _ | fuel
  · cases h
  · rw [readBranches?_end] at h
    cases h
    exact ⟨rfl, rfl⟩

theorem readBranches?_close (fuel : Nat) (f : Flags) (branches : List Nested) (items : List Item) (cs : List Char) :
    readBranches? (fuel + 1) f branches items (')' :: cs) =
      some (⟨f, (sequenceOf items :: branches).reverse⟩, ')' :: cs) := by
  rw [readBranches?, readElement?_close]

/-- More fuel does not change what is read. -/
theorem readBranches?_mono {r : Alternatives × List Char} (h : readBranches? fuel f branches items cs = some r)
    (more : Nat) : readBranches? (fuel + more) f branches items cs = some r := by
  induction fuel generalizing f branches items cs r with
  | zero => cases h
  | succ fuel ih =>
    rw [Nat.add_right_comm]
    rw [readBranches?] at h ⊢
    split at h
    · cases h
    · exact h
    · exact ih h
    · exact ih h
    · split at h
      · rename_i hinner
        rw [ih hinner]
        exact ih h
      · cases h
    · exact ih h
    · split at h
      · cases h
      · exact ih h

/-- What was read up to a place is read again before a seam there, and reading goes on behind it. -/
def GoesOn (t : List Char) (fuel : Nat) (f : Flags) (branches : List Nested) (items : List Item)
    (cs : List Char) (a : Alternatives) (rest : List Char) : Prop :=
  ∃ branches' items', a.seqs = (sequenceOf items' :: branches').reverse ∧ ∀ more r,
    readBranches? (more + 1) a.flags branches' items' (rest ++ t) = some r →
      readBranches? (fuel + more) f branches items (cs ++ t) = some r

/-- Reading goes on if it does after the first element. -/
theorem GoesOn.step {branches₁ : List Nested} {items₁ : List Item} {behind : List Char}
    (h : GoesOn t fuel g branches₁ items₁ behind a rest)
    (hstep : ∀ more r, readBranches? (fuel + more) g branches₁ items₁ (behind ++ t) = some r →
      readBranches? (fuel + more + 1) f branches items (cs ++ t) = some r) :
    GoesOn t (fuel + 1) f branches items cs a rest := by
  rcases h with ⟨branches', items', hseqs, hlater⟩
  refine ⟨branches', items', hseqs, fun more r hr => ?_⟩
  rw [Nat.add_right_comm]
  exact hstep more r (hlater more r hr)

/-- Alternatives that end here go on with what stands behind the seam. -/
theorem goesOn_of_close {behind : List Char} (he : readElement? f cs = some (.close, behind))
    (hrest : behind ≠ [] ∨ f.spaced = false) (ht : Seam t) :
    GoesOn t (fuel + 1) f branches items cs ⟨f, (sequenceOf items :: branches).reverse⟩ behind := by
  refine ⟨branches, items, rfl, fun more r hr => ?_⟩
  rcases eq_gap_of_readElement?_close he with ⟨hgap, rfl | ⟨later, rfl⟩⟩
  · obtain rfl := Flags.eq_nil_of_gap hgap.symm (hrest.resolve_left (by simp))
    have hmono := readBranches?_mono hr fuel
    rwa [show more + 1 + fuel = fuel + 1 + more by omega] at hmono
  · have he' := readElement?_append he (by simp [← hgap]) (.inl (by simp)) ht
    rw [List.cons_append, readBranches?_close] at hr
    rw [Nat.add_right_comm, readBranches?, he']
    exact hr

/-- Reading goes on at a seam with what was read before it. -/
theorem goesOn_of_readBranches? (h : readBranches? fuel f branches items cs = some (a, rest))
    (hrest : rest ≠ [] ∨ a.flags.spaced = false) (ht : Seam t) :
    GoesOn t fuel f branches items cs a rest := by
  induction fuel generalizing f branches items cs a rest with
  | zero => cases h
  | succ fuel ih =>
    rw [readBranches?] at h
    -- What stands next is the same before the seam, since nothing more is read at the end of the text.
    have hnext {e : Element} {behind : List Char} (he : readElement? f cs = some (e, behind)) (hne : e ≠ .close)
        (hbehind : behind = [] → a.flags = f ∧ rest = []) : readElement? f (cs ++ t) = some (e, behind ++ t) := by
      apply readElement?_append he (gap_ne_nil_of_readElement? he hne) _ ht
      by_cases hnil : behind = []
      · rcases hbehind hnil with ⟨hflags, hend⟩
        rw [← hflags]
        exact .inr (hrest.resolve_left (not_not_intro hend))
      · exact .inl hnil
    split at h
    · cases h
    · rename_i behind he
      cases h
      exact goesOn_of_close he hrest ht
    · rename_i behind he
      have he' := hnext he (by simp) (fun hnil => readBranches?_nil (hnil ▸ h))
      refine (ih h hrest).step fun more r hr => ?_
      rw [readBranches?, he']
      exact hr
    · rename_i g behind he
      refine (ih h hrest).step fun more r hr => ?_
      rw [readBranches?, readElement?_append_of_directive he]
      exact hr
    · rename_i kind g behind he
      split at h
      · rename_i b later hinner
        have he' := hnext he (by simp) (fun hnil => by
          have hend := (readBranches?_nil (hnil ▸ hinner)).2
          cases hend)
        rcases ih hinner (.inl (by simp)) with ⟨_, _, hseqs', hinner'⟩
        refine (ih h hrest).step fun more r hr => ?_
        have hgroup := hinner' more (b, ')' :: (later ++ t)) (by
          rw [List.cons_append, readBranches?_close, ← hseqs'])
        rw [readBranches?, he']
        dsimp only
        rw [hgroup]
        exact hr
      · cases h
    · rename_i leaf depth behind he
      have he' := hnext he (by simp) (fun hnil => readBranches?_nil (hnil ▸ h))
      refine (ih h hrest).step fun more r hr => ?_
      rw [readBranches?, he']
      exact hr
    · rename_i min max behind he
      split at h
      · cases h
      · rename_i repeated later hrepeat
        have he' := hnext he (by simp) (fun hnil => by
          rw [hnil] at hrepeat
          exact readBranches?_nil (repeatLast?_nil hrepeat ▸ h))
        refine (ih h hrest).step fun more r hr => ?_
        rw [readBranches?, he']
        dsimp only
        rw [repeatLast?_append hrepeat ht]
        exact hr

/-- Alternatives that were finished before come before those that are read. -/
theorem readBranches?_frame (h : readBranches? fuel f branches items cs = some (a, rest)) (before : List Nested) :
    readBranches? fuel f (branches ++ before) items cs = some (⟨a.flags, before.reverse ++ a.seqs⟩, rest) := by
  induction fuel generalizing f branches items cs a rest with
  | zero => cases h
  | succ fuel ih =>
    rw [readBranches?] at h ⊢
    split at h
    · cases h
    · cases h
      simp
    · rw [← List.cons_append]
      exact ih h
    · exact ih h
    · split at h
      · exact ih h
      · cases h
    · exact ih h
    · split at h
      · cases h
      · exact ih h

/-! ## Joined patterns -/

/-- The alternatives of two patterns, one after the other. -/
def Alternatives.beside (a b : Alternatives) : Alternatives :=
  ⟨b.flags, a.seqs ++ b.seqs⟩

/-- The alternatives of two patterns as those of a group, which leaves the flags around it. -/
def Alternatives.joined (a : Alternatives) (f : Flags) (b : Alternatives) : Alternatives :=
  ⟨f, [sequenceOf [.nested ((a.beside b).nested.grouped .plain)]]⟩

/-- Two patterns in a group, with a bar between them. -/
def joinedChars (first second : List Char) : List Char :=
  "(?:".toList ++ (first ++ '|' :: (second ++ [')']))

theorem readBranches?_of_read? (h : read? f cs = some a) :
    readBranches? (cs.length + 1) f [] [] cs = some (a, []) := by
  unfold read? at h
  split at h
  · rename_i heq
    cases h
    exact heq
  · cases h

theorem readElement?_plain (hf : f.spaced = false) (cs : List Char) :
    readElement? f ('(' :: '?' :: ':' :: cs) = some (.opened (.group .plain f), cs) := by
  have hopen : openGroup? f ('?' :: ':' :: cs) = some (.group .plain f, cs) := by
    rw [openGroup?, Flags.gap_of_not_spaced hf]
    rfl
  rw [readElement?, Flags.gap_of_not_spaced hf]
  simp only [readSign?, hopen]
  rfl

theorem readElement?_bar (hf : f.spaced = false) (cs : List Char) :
    readElement? f ('|' :: cs) = some (.bar, cs) := by
  rw [readElement?, Flags.gap_of_not_spaced hf]
  rfl

/-- Alternatives go on behind a bar, up to a closing parenthesis. -/
theorem readBranches?_beside {first second : List Char} (ha : read? f first = some a)
    (hb : read? a.flags second = some b) (haspaced : a.flags.spaced = false)
    (hbspaced : b.flags.spaced = false) (later : List Char) :
    readBranches? (first.length + second.length + 2) f [] [] (first ++ '|' :: (second ++ ')' :: later)) =
      some (a.beside b, ')' :: later) := by
  rcases goesOn_of_readBranches? (readBranches?_of_read? ha) (.inr haspaced)
    ⟨second ++ ')' :: later, .inl rfl⟩ with ⟨branches, items, hseqs, hfirst⟩
  have hframe := readBranches?_frame (readBranches?_of_read? hb) (sequenceOf items :: branches)
  rcases goesOn_of_readBranches? hframe (.inr hbspaced) ⟨later, .inr rfl⟩ with ⟨branches', items', hseqs', hsecond⟩
  rw [show first.length + second.length + 2 = first.length + 1 + (second.length + 1) by omega]
  apply hfirst
  rw [List.nil_append, readBranches?, readElement?_bar haspaced]
  apply hsecond 0
  rw [List.nil_append, readBranches?_close, ← hseqs', ← hseqs]
  rfl

/-- Two patterns in a group read as the alternatives of both. -/
theorem read?_joined {first second : List Char} (hf : f.spaced = false) (ha : read? f first = some a)
    (hb : read? a.flags second = some b) (haspaced : a.flags.spaced = false) (hbspaced : b.flags.spaced = false) :
    read? f (joinedChars first second) = some (a.joined f b) := by
  have hinner := readBranches?_mono (readBranches?_beside ha hb haspaced hbspaced []) 3
  have hlength : (joinedChars first second).length + 1 = first.length + second.length + 2 + 3 + 1 := by
    simp [joinedChars]
    omega
  have hread : readBranches? ((joinedChars first second).length + 1) f [] [] (joinedChars first second) =
      some (a.joined f b, []) := by
    have hsigns : joinedChars first second = '(' :: '?' :: ':' :: (first ++ '|' :: (second ++ [')'])) := rfl
    rw [hlength, hsigns, readBranches?, readElement?_plain hf]
    dsimp only
    rw [hinner]
    exact readBranches?_end _ f [] _
  rw [read?, hread]

end Descent.Pattern
