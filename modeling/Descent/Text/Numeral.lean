import Descent.Text.Blank

/-!
# Numerals

Decimal numerals and the integers that fit a fixed width.

Main results:

- `natOfDigits?` reads a non-empty run of ASCII digits.
- `integer?` reads a numeral with an optional sign, within 64 signed bits.
-/

namespace Descent.Text

/-- The value of a run of digits, most significant first. -/
def digitsValue (cs : List Char) : Nat :=
  cs.foldl (fun n c => 10 * n + (c.toNat - '0'.toNat)) 0

/-- Reads a non-empty run of ASCII digits. -/
def natOfDigits? (cs : List Char) : Option Nat :=
  if !cs.isEmpty && cs.all Char.isDigit then some (digitsValue cs) else none

/-- The greatest unsigned 64-bit number. -/
def maxWord : Nat :=
  Nat.pow 2 64 - 1

/-- The greatest signed 64-bit number. -/
def maxInteger : Nat :=
  Nat.pow 2 63 - 1

/-- Reads a run of ASCII digits whose value fits 64 unsigned bits. -/
def word? (cs : List Char) : Option Nat :=
  (natOfDigits? cs).filter (· ≤ maxWord)

/-- Reads digits after an optional sign, if the value fits 64 signed bits. -/
def integer? (cs : List Char) : Option Int :=
  match cs with
  | '-' :: ds => (natOfDigits? ds).bind fun n =>
    if n ≤ maxInteger + 1 then some (-(n : Int)) else none
  | '+' :: ds => (natOfDigits? ds).bind fun n => if n ≤ maxInteger then some (n : Int) else none
  | ds => (natOfDigits? ds).bind fun n => if n ≤ maxInteger then some (n : Int) else none

end Descent.Text
