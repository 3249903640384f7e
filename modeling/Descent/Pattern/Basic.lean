import Descent.Pattern.CharSet
import Descent.Text.Utf8

/-!
# Patterns

A pattern says which stretches of a text it matches.  Its leaves take one character or one octet,
or look at the surroundings of a position without taking anything.

Main results:

- `Node` is the abstract form of a pattern.
- `Look.holds` decides an assertion at a position, given the octets on both sides.
- `Node.keepsCharacters` decides whether a pattern can end only where a character ends.
-/

namespace Descent.Pattern

/-- An assertion about a position. -/
inductive Look where
  | textStart
  | textEnd
  | lineStart
  | lineEnd
  /-- The start of a line that a carriage return may end as well. -/
  | anyLineStart
  /-- The end of a line that a carriage return may end as well. -/
  | anyLineEnd
  /-- Exactly one side is a character of a word. -/
  | wordBoundary (unicode : Bool)
  /-- Both sides are characters of words, or neither. -/
  | noWordBoundary (unicode : Bool)
  | wordStart (unicode : Bool)
  | wordEnd (unicode : Bool)
  /-- The side before is no character of a word. -/
  | wordStartHalf (unicode : Bool)
  /-- The side after is no character of a word. -/
  | wordEndHalf (unicode : Bool)
  deriving DecidableEq, Repr

/-- The abstract form of a pattern. -/
inductive Node where
  /-- Takes nothing. -/
  | empty
  /-- Takes one character of a set. -/
  | char (s : CharSet)
  /-- Takes one octet of a set. -/
  | octet (s : CharSet)
  /-- Takes nothing, where the assertion holds. -/
  | look (l : Look)
  | seq (a b : Node)
  /-- Tries the first pattern, then the second. -/
  | alt (a b : Node)
  /-- Takes the pattern at least `min` and at most `max` times: as often as possible if greedy, as
  seldom as possible if not. -/
  | repeated (a : Node) (min : Nat) (max : Option Nat) (greedy : Bool)
  /-- A part that is told apart from every other part, with a name or without. -/
  | group (name : Option String) (a : Node)
  deriving DecidableEq, Repr

/-! ## Assertions -/

/-- What stands on one side of a position, as far as words are concerned. -/
inductive Side where
  /-- The text ends here. -/
  | edge
  /-- The octets on this side are no character. -/
  | broken
  | word
  | other
  deriving DecidableEq, Repr

private def sideOf (isWord : Bool) : Side :=
  if isWord then .word else .other

/-- The side before a position; `before` lists the octets from the nearest one on. -/
def sideBefore (unicode : Bool) (before : List UInt8) : Side :=
  match before with
  | [] => .edge
  | b :: _ =>
    if unicode then
      match Text.charBefore? before with
      | some c => sideOf (Unicode.isWord c.toNat)
      | none => .broken
    else sideOf (CharSet.asciiWord.mem b.toNat)

/-- The side after a position. -/
def sideAfter (unicode : Bool) (after : List UInt8) : Side :=
  match after with
  | [] => .edge
  | b :: _ =>
    if unicode then
      match Text.charAfter? after with
      | some (c, _) => sideOf (Unicode.isWord c.toNat)
      | none => .broken
    else sideOf (CharSet.asciiWord.mem b.toNat)

/-- Whether an assertion holds between the octets before, nearest first, and those after.
Assertions that deny a word do not hold beside octets that are no character. -/
def Look.holds (before after : List UInt8) : Look → Bool
  | .textStart => before.isEmpty
  | .textEnd => after.isEmpty
  | .lineStart => before.isEmpty || before.head? == some 0x0A
  | .lineEnd => after.isEmpty || after.head? == some 0x0A
  | .anyLineStart => before.isEmpty || before.head? == some 0x0A ||
      (before.head? == some 0x0D && after.head? != some 0x0A)
  | .anyLineEnd => after.isEmpty || after.head? == some 0x0D ||
      (after.head? == some 0x0A && before.head? != some 0x0D)
  | .wordBoundary u => (sideBefore u before == .word) != (sideAfter u after == .word)
  | .noWordBoundary u =>
    sideBefore u before != .broken && sideAfter u after != .broken &&
      (sideBefore u before == .word) == (sideAfter u after == .word)
  | .wordStart u => sideBefore u before != .word && sideAfter u after == .word
  | .wordEnd u => sideBefore u before == .word && sideAfter u after != .word
  | .wordStartHalf u => sideBefore u before != .broken && sideBefore u before != .word
  | .wordEndHalf u => sideAfter u after != .broken && sideAfter u after != .word

/-! ## Properties of patterns -/

/-- Whether a pattern, started where a character starts, can end only where one ends. -/
def Node.keepsCharacters : Node → Bool
  | .octet s => s.isAscii
  | .seq a b | .alt a b => a.keepsCharacters && b.keepsCharacters
  | .repeated a _ _ _ | .group _ a => a.keepsCharacters
  | .empty | .char _ | .look _ => true

/-- A number of octets that every match of a pattern takes at least, as far as its form shows.  A set
without members gives none, and neither does a pattern with such a part. -/
def Node.leastTaken? : Node → Option Nat
  | .empty | .look _ => some 0
  | .char s => if s.holdsChar then some 1 else none
  | .octet s => if s.octetIntervals.isEmpty then none else some 1
  | .seq a b => do return (← a.leastTaken?) + (← b.leastTaken?)
  | .alt a b => do return Nat.min (← a.leastTaken?) (← b.leastTaken?)
  | .repeated a min _ _ => a.leastTaken?.map (min * ·)
  | .group _ a => a.leastTaken?

/-- Whether every match of a pattern takes at least one octet, as far as its form shows. -/
def Node.takesOctets (a : Node) : Bool :=
  a.leastTaken?.any (0 < ·)

/-- Whether no match of a pattern takes an octet, as far as its form shows. -/
def Node.takesNothing : Node → Bool
  | .empty | .look _ => true
  | .char _ | .octet _ => false
  | .seq a b | .alt a b => a.takesNothing && b.takesNothing
  | .repeated a _ max _ => max == some 0 || a.takesNothing
  | .group _ a => a.takesNothing

end Descent.Pattern
