/-!
# Spans of code points

A property of characters is tabulated as a list of spans in increasing order.  A span may step
over code points, so that the many runs in which upper and lower case alternate stay short.

Long tables are written as lines of text: spans apart by blanks, each a code point or two around a hyphen, and
the stride after a slash if it is not one, all in upper-case hexadecimal digits.

Main results:

- `Span.listOfText` reads a line of a written table.
- `mem_cons_of_lt`: a code point below the first span is in no span.
- `mem_cons_of_le`: from the first span on, membership is that span or the rest.
-/

namespace Descent.Unicode

/-- The code points `first`, `first + stride`, … up to `last`. -/
structure Span where
  first : Nat
  last : Nat
  stride : Nat
  deriving DecidableEq, Repr

/-- Whether a code point is one of the span's steps. -/
def Span.covers (s : Span) (c : Nat) : Bool :=
  s.first ≤ c && c ≤ s.last && (c - s.first) % s.stride == 0

/-- Membership in a list of spans in increasing order; the search ends at the first span that
starts after the code point. -/
def Span.mem (c : Nat) : List Span → Bool
  | [] => false
  | s :: rest => if c < s.first then false else s.covers c || Span.mem c rest

@[simp]
theorem Span.mem_nil (c : Nat) : Span.mem c [] = false :=
  rfl

theorem Span.mem_cons_of_lt {c : Nat} {s : Span} (rest : List Span) (h : c < s.first) :
    Span.mem c (s :: rest) = false := by
  simp [Span.mem, h]

theorem Span.mem_cons_of_le {c : Nat} {s : Span} (rest : List Span) (h : s.first ≤ c) :
    Span.mem c (s :: rest) = (s.covers c || Span.mem c rest) := by
  simp [Span.mem, Nat.not_lt.2 h]

/-! ## Written tables -/

/-- The value of an upper-case hexadecimal digit. -/
def digitValue (c : Char) : Nat :=
  if c.isDigit then c.toNat - '0'.toNat else c.toNat - 'A'.toNat + 10

/-- A span that is being read: the numbers before the present one, the last one first, and the
present one. -/
structure SpanDraft where
  numbers : List Nat
  current : Option Nat
  deriving DecidableEq, Repr

/-- The span of a finished draft. -/
def SpanDraft.span? (d : SpanDraft) : Option Span :=
  match d.numbers, d.current with
  | [], some n => some ⟨n, n, 1⟩
  | [first], some last => some ⟨first, last, 1⟩
  | last :: first :: _, some stride => some ⟨first, last, stride⟩
  | _, none => none

/-- Reads written spans after a draft. -/
def readSpans (d : SpanDraft) : List Char → List Span
  | [] => d.span?.toList
  | c :: rest =>
    if c == ' ' then d.span?.toList ++ readSpans ⟨[], none⟩ rest
    else if c == '-' || c == '/' then readSpans ⟨d.current.getD 0 :: d.numbers, none⟩ rest
    else readSpans { d with current := some (16 * d.current.getD 0 + digitValue c) } rest

/-- The spans of a line of a written table. -/
def Span.listOfText (text : String) : List Span :=
  readSpans ⟨[], none⟩ text.toList

theorem Span.listOfText_sample :
    Span.listOfText "41-5A 100-12E/2 1F600" =
      [⟨0x41, 0x5A, 1⟩, ⟨0x100, 0x12E, 2⟩, ⟨0x1F600, 0x1F600, 1⟩] := by
  decide +kernel

end Descent.Unicode
