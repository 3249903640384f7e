import Descent.Unicode.Letter
import Descent.Unicode.Mark
import Descent.Unicode.Number
import Descent.Unicode.Punctuation
import Descent.Unicode.Symbol
import Descent.Unicode.Format

/-!
# General categories

Every code point has one of thirty general categories.  The names of most begin with the letter of
a group: letters, marks, numbers, punctuation, symbols, separators and controls.

Main results:

- `Category.holds` decides whether a code point has a category.
- `assigned` lists the tabulated categories; a code point in none of them is unassigned.
-/

namespace Descent.Unicode

/-- A tabulated general category; a code point in none of them is unassigned. -/
inductive Category where
  | uppercaseLetter | lowercaseLetter | titlecaseLetter | modifierLetter | otherLetter
  | nonspacingMark | spacingMark | enclosingMark
  | decimalNumber | letterNumber | otherNumber
  | connectorPunctuation | dashPunctuation | openPunctuation | closePunctuation
  | initialPunctuation | finalPunctuation | otherPunctuation
  | mathSymbol | currencySymbol | modifierSymbol | otherSymbol
  | spaceSeparator | lineSeparator | paragraphSeparator
  | control | format | surrogate | privateUse
  deriving DecidableEq, Repr

/-- The code points of a category. -/
def Category.spans : Category → List Span
  | .uppercaseLetter => Unicode.uppercaseLetter
  | .lowercaseLetter => Unicode.lowercaseLetter
  | .titlecaseLetter => Unicode.titlecaseLetter
  | .modifierLetter => Unicode.modifierLetter
  | .otherLetter => Unicode.otherLetter
  | .nonspacingMark => Unicode.nonspacingMark
  | .spacingMark => Unicode.spacingMark
  | .enclosingMark => Unicode.enclosingMark
  | .decimalNumber => Unicode.decimalNumber
  | .letterNumber => Unicode.letterNumber
  | .otherNumber => Unicode.otherNumber
  | .connectorPunctuation => Unicode.connectorPunctuation
  | .dashPunctuation => Unicode.dashPunctuation
  | .openPunctuation => Unicode.openPunctuation
  | .closePunctuation => Unicode.closePunctuation
  | .initialPunctuation => Unicode.initialPunctuation
  | .finalPunctuation => Unicode.finalPunctuation
  | .otherPunctuation => Unicode.otherPunctuation
  | .mathSymbol => Unicode.mathSymbol
  | .currencySymbol => Unicode.currencySymbol
  | .modifierSymbol => Unicode.modifierSymbol
  | .otherSymbol => Unicode.otherSymbol
  | .spaceSeparator => Unicode.spaceSeparator
  | .lineSeparator => Unicode.lineSeparator
  | .paragraphSeparator => Unicode.paragraphSeparator
  | .control => Unicode.control
  | .format => Unicode.format
  | .surrogate => Unicode.surrogate
  | .privateUse => Unicode.privateUse

/-- Whether a code point has the category. -/
def Category.holds (g : Category) (c : Nat) : Bool :=
  Span.mem c g.spans

/-! ## Groups -/

/-- The letters with case. -/
def casedLetters : List Category :=
  [.uppercaseLetter, .lowercaseLetter, .titlecaseLetter]

/-- All letters. -/
def letters : List Category :=
  casedLetters ++ [.modifierLetter, .otherLetter]

/-- All combining marks. -/
def marks : List Category :=
  [.nonspacingMark, .spacingMark, .enclosingMark]

/-- All numbers. -/
def numbers : List Category :=
  [.decimalNumber, .letterNumber, .otherNumber]

/-- All punctuation. -/
def punctuation : List Category :=
  [.connectorPunctuation, .dashPunctuation, .openPunctuation, .closePunctuation,
    .initialPunctuation, .finalPunctuation, .otherPunctuation]

/-- All symbols. -/
def symbols : List Category :=
  [.mathSymbol, .currencySymbol, .modifierSymbol, .otherSymbol]

/-- All separators. -/
def separators : List Category :=
  [.spaceSeparator, .lineSeparator, .paragraphSeparator]

/-- The assigned characters that are none of the above. -/
def controls : List Category :=
  [.control, .format, .surrogate, .privateUse]

/-- Every assigned category. -/
def assigned : List Category :=
  letters ++ marks ++ numbers ++ punctuation ++ symbols ++ separators ++ controls

end Descent.Unicode
