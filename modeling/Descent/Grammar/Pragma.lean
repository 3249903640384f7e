import Descent.Collection.OrderedMap
import Descent.Text.Numeral

/-!
# Pragmas

Pragmas are named settings of a grammar.  A value is a truth value or a whole number if it is
written like one, and plain text otherwise.

Main results:

- `PragmaValue.ofChars` reads a value and `PragmaValue.render` shows it.
- `Pragmas.lookahead` is the number of tokens a parse may go back.
- `Pragmas.unicode` tells whether lexemes match characters or octets.
-/

namespace Descent

/-- The value of a pragma. -/
inductive PragmaValue where
  | bool (b : Bool)
  | int (i : Int)
  | text (s : String)
  deriving DecidableEq, Repr

namespace PragmaValue

/-- Reads a value: a truth value, a whole number of digits alone that fits 64 signed bits, or
text. -/
def ofChars (cs : List Char) : PragmaValue :=
  let s := String.ofList cs
  if s = "true" then .bool true
  else if s = "false" then .bool false
  else
    match Text.natOfDigits? cs with
    | some n => if n ≤ Text.maxInteger then .int n else .text s
    | none => .text s

/-- Reads a value. -/
def ofString (s : String) : PragmaValue :=
  ofChars s.toList

/-- The number a value stands for; text that is no number stands for zero. -/
def toInt : PragmaValue → Int
  | bool b => if b then 1 else 0
  | int i => i
  | text s => (Text.integer? (Text.trim s.toList)).getD 0

/-- Shows a value as it is written. -/
def render : PragmaValue → String
  | bool b => if b then "true" else "false"
  | int i => toString i
  | text s => s

end PragmaValue

/-- The pragmas of a grammar by name, in order of first appearance. -/
abbrev Pragmas := OrderedMap String PragmaValue

namespace Pragmas

/-- The pragma for the number of tokens a parse may go back. -/
def lookaheadName : String :=
  "parser.lookahead"

/-- The pragma that tells whether lexemes match characters. -/
def unicodeName : String :=
  "lexer.unicode"

/-- The number of tokens a parse may go back unless a pragma says otherwise. -/
def defaultLookahead : Nat :=
  1024

/-- The number of tokens a parse may go back; a negative number counts as zero. -/
def lookahead (ps : Pragmas) : Nat :=
  match ps.get? lookaheadName with
  | none => defaultLookahead
  | some v => v.toInt.toNat

/-- Whether lexemes match characters: unless the pragma is set to anything but true. -/
def unicode (ps : Pragmas) : Bool :=
  match ps.get? unicodeName with
  | none => true
  | some v => v = .bool true

@[simp]
theorem lookahead_empty : lookahead .empty = defaultLookahead :=
  rfl

@[simp]
theorem unicode_empty : unicode .empty = true :=
  rfl

end Pragmas

end Descent
