import Descent.Unicode.Property

/-!
# Blanks

Trimming cuts white space of any script from the ends of a line.

Main results:

- `trim`, `trimStart` and `trimEnd` cut blanks from both ends, the front and the back.
- `trimStart_eq_nil_iff`: nothing is left of a line exactly when it is all blank.
-/

namespace Descent.Text

/-- Whether a character is white space. -/
def isBlank (c : Char) : Bool :=
  Unicode.isWhitespace c.toNat

/-- Cuts blanks from the front. -/
def trimStart (cs : List Char) : List Char :=
  cs.dropWhile isBlank

/-- Cuts blanks from the back. -/
def trimEnd (cs : List Char) : List Char :=
  (cs.reverse.dropWhile isBlank).reverse

/-- Cuts blanks from both ends. -/
def trim (cs : List Char) : List Char :=
  trimEnd (trimStart cs)

theorem trimStart_eq_nil_iff (cs : List Char) : trimStart cs = [] ↔ ∀ c ∈ cs, isBlank c := by
  induction cs with
  | nil => simp [trimStart]
  | cons c cs ih => by_cases h : isBlank c <;> simp_all [trimStart]

/-- Whether a character separates the words of an instruction: a space or a tab. -/
def isGap (c : Char) : Bool :=
  c == ' ' || c == '\t'

end Descent.Text
