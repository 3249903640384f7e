import Descent.Grammar.Pragma
import Descent.Text.Blank

/-!
# Numbers of tokens to go back

A pragma written as a numeral is a whole number as long as it fits 64 signed bits.  A greater numeral is
kept as text, which stands for no number, so the number of tokens that a parse may go back is then zero.

Main results:

- `PragmaValue.toInt_of_digits`: the number that a numeral stands for.
- `Pragmas.lookahead_le_iff`: of two numerals the greater one never lets a parse go back by less just if it
  fits, or if the smaller one does not fit either or is zero.
- `Pragmas.lookahead_beyond_integers`: with a numeral that does not fit a parse may not go back at all.
-/

namespace Descent

/-! ## Numerals -/

namespace Text

variable {c : Char} {cs : List Char}

theorem isBlank_of_isDigit (h : c.isDigit = true) : isBlank c = false := by
  have hdigits : ∀ n, n < 58 → 48 ≤ n → Unicode.isWhitespace n = false := by decide
  rw [Char.isDigit_iff_toNat] at h
  exact hdigits c.toNat (Nat.lt_succ_of_le h.2) h.1

theorem trim_of_digits (h : ∀ c ∈ cs, c.isDigit = true) : trim cs = cs := by
  have hfront : ∀ ds : List Char, (∀ c ∈ ds, c.isDigit = true) → ds.dropWhile isBlank = ds := by
    rintro (_ | ⟨d, ds⟩) hds
    · rfl
    · exact List.dropWhile_cons_of_neg (by simp [isBlank_of_isDigit (hds d List.mem_cons_self)])
  unfold trim trimEnd trimStart
  rw [hfront cs h, hfront cs.reverse (fun c hc => h c (List.mem_reverse.1 hc)), List.reverse_reverse]

theorem natOfDigits?_of_digits (hne : cs ≠ []) (h : ∀ c ∈ cs, c.isDigit = true) :
    natOfDigits? cs = some (digitsValue cs) := by
  unfold natOfDigits?
  rw [if_pos (by simp [hne]; exact h)]

/-- A numeral without sign is read if it fits. -/
theorem integer?_of_digits (hne : cs ≠ []) (h : ∀ c ∈ cs, c.isDigit = true) :
    integer? cs = if digitsValue cs ≤ maxInteger then some (digitsValue cs : Int) else none := by
  have hvalue := natOfDigits?_of_digits hne h
  unfold integer?
  split
  · exact absurd (h '-' List.mem_cons_self) (by decide)
  · exact absurd (h '+' List.mem_cons_self) (by decide)
  · rw [hvalue, Option.bind_some]

end Text

open Text

/-! ## Values -/

namespace PragmaValue

/-- The number that a numeral stands for: its own value, or zero if that does not fit. -/
theorem toInt_of_digits {s : String} (hne : s ≠ "") (h : ∀ c ∈ s.toList, c.isDigit = true) :
    (ofString s).toInt =
      if digitsValue s.toList ≤ maxInteger then (digitsValue s.toList : Int) else 0 := by
  have hnil : s.toList ≠ [] := fun hnil => hne (String.toList_eq_nil_iff.1 hnil)
  have htrue : s ≠ "true" := by
    rintro rfl
    exact absurd (h 't' (by decide)) (by decide)
  have hfalse : s ≠ "false" := by
    rintro rfl
    exact absurd (h 'f' (by decide)) (by decide)
  unfold ofString ofChars
  dsimp only
  rw [String.ofList_toList, if_neg htrue, if_neg hfalse, natOfDigits?_of_digits hnil h]
  dsimp only
  split
  · rfl
  · rename_i hgreat
    rw [toInt, trim_of_digits h, integer?_of_digits hnil h, if_neg hgreat, Option.getD_none]

end PragmaValue

namespace Pragmas

theorem lookahead_insert (ps : Pragmas) (v : PragmaValue) :
    lookahead (ps.insert lookaheadName v) = v.toInt.toNat := by
  rw [lookahead, OrderedMap.get?_insert_self]

/-- The number of tokens that a parse may go back by a numeral: its value, or none if that does not fit. -/
theorem lookahead_of_digits (ps : Pragmas) {s : String} (hne : s ≠ "")
    (h : ∀ c ∈ s.toList, c.isDigit = true) :
    lookahead (ps.insert lookaheadName (.ofString s)) =
      if digitsValue s.toList ≤ maxInteger then digitsValue s.toList else 0 := by
  rw [lookahead_insert, PragmaValue.toInt_of_digits hne h]
  split
  · exact Int.toNat_natCast _
  · rfl

/-- Of two numerals the greater one lets a parse go back by at least as many tokens just if it fits 64
signed bits, or if the smaller one is zero or does not fit either. -/
theorem lookahead_le_iff (ps : Pragmas) {s t : String} (hs : s ≠ "") (ht : t ≠ "")
    (hsdigits : ∀ c ∈ s.toList, c.isDigit = true) (htdigits : ∀ c ∈ t.toList, c.isDigit = true)
    (hle : digitsValue s.toList ≤ digitsValue t.toList) :
    lookahead (ps.insert lookaheadName (.ofString s)) ≤
        lookahead (ps.insert lookaheadName (.ofString t)) ↔
      digitsValue t.toList ≤ maxInteger ∨ digitsValue s.toList = 0 ∨
        maxInteger < digitsValue s.toList := by
  rw [lookahead_of_digits ps hs hsdigits, lookahead_of_digits ps ht htdigits]
  split <;> split <;> omega

/-- The greatest numeral that fits lets a parse go back by at least sixteen tokens, and the next one does
not. -/
theorem lookahead_le_iff_greatest :
    lookahead ((OrderedMap.empty : Pragmas).insert lookaheadName (.ofString "0016")) ≤
        lookahead ((OrderedMap.empty : Pragmas).insert lookaheadName
          (.ofString "9223372036854775807")) ∧
      ¬lookahead ((OrderedMap.empty : Pragmas).insert lookaheadName (.ofString "0016")) ≤
        lookahead ((OrderedMap.empty : Pragmas).insert lookaheadName
          (.ofString "9223372036854775808")) := by
  have hsixteen : ∀ c ∈ "0016".toList, c.isDigit = true :=
    List.all_eq_true.1 (by decide +kernel)
  have hgreatest : ∀ c ∈ "9223372036854775807".toList, c.isDigit = true :=
    List.all_eq_true.1 (by decide +kernel)
  have hnext : ∀ c ∈ "9223372036854775808".toList, c.isDigit = true :=
    List.all_eq_true.1 (by decide +kernel)
  have hfits := lookahead_le_iff .empty (by decide) (by decide) hsixteen hgreatest (by decide +kernel)
  have hbeyond := lookahead_le_iff .empty (by decide) (by decide) hsixteen hnext (by decide +kernel)
  exact ⟨hfits.2 (by decide +kernel), mt hbeyond.1 (by decide +kernel)⟩

/-- With a numeral that does not fit, a parse may go back by less than with the numeral 1. -/
theorem lookahead_beyond_integers :
    lookahead ((OrderedMap.empty : Pragmas).insert lookaheadName (.ofString "1")) = 1 ∧
      lookahead ((OrderedMap.empty : Pragmas).insert lookaheadName
        (.ofString "9223372036854775808")) = 0 := by
  decide +kernel

end Pragmas

end Descent
