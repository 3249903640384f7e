import Descent.Text.Utf8

/-!
# Lines and columns

Diagnostics want the line and column of an octet offset, and the line itself with a caret under
the offending character.  Offsets may lie inside a character and beyond the end; the latter count
as the end.

Main results:

- `LineIndex.position` gives the line and column of an offset, in characters or octets.
- `LineIndex.excerpt` shows a line above a caret.
- `LineIndex.length_starts`: there is one line more than there are newlines.
-/

namespace Descent.Text

/-- A line and a column, both counted from zero. -/
structure Position where
  line : Nat
  column : Nat
  deriving DecidableEq, Repr

/-- Positions are ordered by line, then by column. -/
def Position.order (p q : Position) : Ordering :=
  (compare p.line q.line).then (compare p.column q.column)

/-- What columns count. -/
inductive ColumnUnit where
  | chars
  | octets
  deriving DecidableEq, Repr

/-- A text with the offset at which each of its lines starts. -/
structure LineIndex where
  text : List UInt8
  starts : List Nat

/-- The octet that ends a line. -/
def newline : UInt8 :=
  0x0A

/-- The octet that may stand before it. -/
def carriageReturn : UInt8 :=
  0x0D

/-- The offsets after each newline, of octets that start at `offset`. -/
def startsAfter (offset : Nat) : List UInt8 → List Nat
  | [] => []
  | b :: rest =>
    if b = newline then (offset + 1) :: startsAfter (offset + 1) rest
    else startsAfter (offset + 1) rest

/-- The octets from offset `first` up to offset `last`. -/
def slice (bs : List UInt8) (first last : Nat) : List UInt8 :=
  (bs.take last).drop first

theorem length_slice (bs : List UInt8) (first last : Nat) :
    (slice bs first last).length = min last bs.length - first := by
  simp [slice]

namespace LineIndex

/-- Indexes a text. -/
def ofOctets (text : List UInt8) : LineIndex :=
  ⟨text, 0 :: startsAfter 0 text⟩

/-- Indexes a text. -/
def ofString (text : String) : LineIndex :=
  ofOctets (octets text.toList)

theorem length_startsAfter (offset : Nat) (bs : List UInt8) :
    (startsAfter offset bs).length = bs.count newline := by
  induction bs generalizing offset with
  | nil => rfl
  | cons b rest ih =>
    by_cases h : b = newline <;> simp [startsAfter, h, ih]

/-- There is one line more than there are newlines. -/
theorem length_starts (text : List UInt8) :
    (ofOctets text).starts.length = text.count newline + 1 := by
  simp [ofOctets, length_startsAfter]

/-- The number of lines. -/
def lineCount (ix : LineIndex) : Nat :=
  ix.starts.length

/-- An offset beyond the end counts as the end. -/
def clamp (ix : LineIndex) (offset : Nat) : Nat :=
  min offset ix.text.length

/-- The line of a clamped offset: the last that does not start after it. -/
def lineOf (ix : LineIndex) (offset : Nat) : Nat :=
  (ix.starts.takeWhile (· ≤ offset)).length - 1

/-- The offset at which a line starts. -/
def startOf (ix : LineIndex) (line : Nat) : Nat :=
  ix.starts.getD line 0

/-- The number of characters between two offsets; one that the cut breaks counts as one. -/
def charsBetween (ix : LineIndex) (first last : Nat) : Nat :=
  (decode (slice ix.text first last)).length

/-- The line and column of an offset. -/
def position (ix : LineIndex) (offset : Nat) (unit : ColumnUnit) : Position :=
  let offset := ix.clamp offset
  let line := ix.lineOf offset
  let start := ix.startOf line
  match unit with
  | .octets => ⟨line, offset - start⟩
  | .chars => ⟨line, ix.charsBetween start offset⟩

/-- Removes one carriage return from the end. -/
def stripReturn (bs : List UInt8) : List UInt8 :=
  if bs.getLast? = some carriageReturn then bs.dropLast else bs

/-- A line without its terminator; a line that does not exist is empty. -/
def lineOctets (ix : LineIndex) (line : Nat) : List UInt8 :=
  match ix.starts[line]? with
  | none => []
  | some start =>
    let stop := match ix.starts[line + 1]? with
      | some next => next - 1
      | none => ix.text.length
    stripReturn (slice ix.text start stop)

/-- A line without its terminator, as text. -/
def lineText (ix : LineIndex) (line : Nat) : String :=
  String.ofList (decode (ix.lineOctets line))

/-- The line that holds an offset, and below it a caret at the offset's column. -/
def excerpt (ix : LineIndex) (offset : Nat) : String :=
  let offset := ix.clamp offset
  let line := ix.lineOf offset
  let indent := ix.charsBetween (ix.startOf line) offset
  ix.lineText line ++ "\n" ++ String.ofList (List.replicate indent ' ') ++ "↑"

/-- The character at an offset, as text; empty at the end. -/
def charAt (ix : LineIndex) (offset : Nat) : String :=
  String.ofList ((decode ((ix.text.drop (ix.clamp offset)).take 4)).take 1)

end LineIndex

end Descent.Text
