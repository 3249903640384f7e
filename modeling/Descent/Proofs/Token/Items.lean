import Descent.Token.Scanner

/-!
# Items of a text

Every token that a scanner comes up with is the ending, or was cut off where a lexeme of the active
namespace matches.

Main results:

- `Lexicon.Cuts` says that a token was cut off by a lexeme.
- `Scanner.exists_match_of_scanOne`: what cutting off takes.
- `Lexicon.cuts_of_mem_items`: every token of a text but the ending was.
-/

namespace Descent

/-- A lexeme matches at some place of some text, and the token is what it cuts off. -/
def Lexicon.Cuts (lx : Lexicon) (t : Token) : Prop :=
  ∃ (s : Scanner) (l : Lexeme) (n : Nat), s.lexicon = lx ∧
    l ∈ (lx.lexemes? s.space).getD [] ∧
    l.matchLength? s.before s.after = some (n + 1) ∧ t = s.tokenOf l (n + 1)

namespace Scanner

theorem mem_of_firstMatch? {before after : List UInt8} {ls : List Lexeme} {l : Lexeme} {n : Nat}
    (h : firstMatch? before after ls = some (l, n)) :
    l ∈ ls ∧ l.matchLength? before after = some n := by
  induction ls with
  | nil => cases h
  | cons first rest ih =>
    unfold firstMatch? at h
    split at h
    · rename_i k hk
      cases h
      exact ⟨List.mem_cons_self, hk⟩
    · rcases ih h with ⟨hmem, hlength⟩
      exact ⟨List.mem_cons_of_mem _ hmem, hlength⟩

/-- What cutting off takes: the first lexeme that matches, a match of an octet at least, an offset
within bounds and a namespace to go on in. -/
theorem exists_match_of_scanOne {s s' : Scanner} {t : Token} (h : s.scanOne = .ok (t, s')) :
    ∃ l n s'', firstMatch? s.before s.after ((s.lexicon.lexemes? s.space).getD []) =
        some (l, n + 1) ∧ ¬maxOffset < s.offset ∧ s.follow l = .ok s'' ∧
      t = s.tokenOf l (n + 1) ∧ s' = s''.skip (n + 1) := by
  unfold scanOne at h
  split at h
  · cases h
  · rename_i l n hmatch
    split at h
    · cases h
    · rename_i hoffset
      split at h
      · cases h
      · rename_i s'' hfollow
        cases h
        exact ⟨l, n, s'', hmatch, hoffset, hfollow, rfl, rfl⟩
  · split at h <;> cases h

/-- A token that is cut off, and the scanner after it. -/
theorem cuts_of_scanOne {s s' : Scanner} {t : Token} (h : s.scanOne = .ok (t, s')) :
    s.lexicon.Cuts t ∧ s'.lexicon = s.lexicon := by
  rcases exists_match_of_scanOne h with ⟨l, n, s'', hmatch, -, hfollow, rfl, rfl⟩
  rcases mem_of_firstMatch? hmatch with ⟨hmem, hlength⟩
  exact ⟨⟨s, l, n, rfl, hmem, hlength, rfl⟩, (follow_after hfollow).2.2⟩

theorem ending_of_endingItem {s : Scanner} {t : Token} (h : s.endingItem = .ok t) :
    ∃ offset, t = .ending offset := by
  unfold endingItem at h
  split at h
  · cases h
  · cases h
    exact ⟨_, rfl⟩

/-- The next token is the ending, or was cut off. -/
theorem cuts_of_nextKept {fuel : Nat} {s s' : Scanner} {item : Except LexError Token}
    (h : s.nextKept fuel = (item, s')) :
    (∀ t, item = .ok t → (∃ offset, t = .ending offset) ∨ s.lexicon.Cuts t) ∧
      s'.lexicon = s.lexicon := by
  induction fuel generalizing s with
  | zero =>
    cases h
    exact ⟨fun t ht => .inl (ending_of_endingItem ht), rfl⟩
  | succ fuel ih =>
    unfold nextKept at h
    split at h
    · cases h
      exact ⟨fun t ht => .inl (ending_of_endingItem ht), rfl⟩
    · split at h
      · cases h
        refine ⟨?_, rfl⟩
        intro t ht
        cases ht
      · rename_i t s'' hscan
        rcases cuts_of_scanOne hscan with ⟨hcut, hlexicon⟩
        split at h
        · cases h
          refine ⟨?_, hlexicon⟩
          intro u hu
          cases hu
          exact .inr hcut
        · rw [← hlexicon]
          exact ih h

end Scanner

namespace Lexicon

theorem cuts_of_mem_stepsFrom {fuel : Nat} {s : Scanner} {step : ScanStep} {t : Token}
    (hstep : step ∈ stepsFrom fuel s) (ht : step.item = .ok t) :
    (∃ offset, t = .ending offset) ∨ s.lexicon.Cuts t := by
  induction fuel generalizing s with
  | zero => cases hstep
  | succ fuel ih =>
    unfold stepsFrom at hstep
    split at hstep
    · cases hstep
    · rename_i item s' hnext
      have hkept : s.nextKept (s.after.length + 1) = (item, s') := by
        unfold Scanner.next? at hnext
        split at hnext
        · cases hnext
        · exact Option.some.inj hnext
      rcases Scanner.cuts_of_nextKept hkept with ⟨hitem, hlexicon⟩
      rcases List.mem_cons.1 hstep with rfl | hstep
      · exact hitem t ht
      · rw [← hlexicon]
        exact ih hstep

/-- Every token of a text is the ending, or was cut off by a lexeme. -/
theorem cuts_of_mem_items {lx : Lexicon} {text : List UInt8} {t : Token}
    (h : .ok t ∈ lx.items text) : (∃ offset, t = .ending offset) ∨ lx.Cuts t := by
  rcases List.mem_map.1 h with ⟨step, hstep, ht⟩
  exact cuts_of_mem_stepsFrom hstep ht

end Lexicon

end Descent
