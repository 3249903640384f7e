import Descent.Pattern.Basic
import Descent.Text.Blank

/-!
# Flags

Flags change what the signs of a written pattern mean.  They can be set for a group, or from a
place on to the end of the group around it.

Main results:

- `Flags.update?` sets or clears the flag with a given letter.
- `Flags.literal`, `Flags.dot` and the `Look` builders turn signs into leaves.
-/

namespace Descent.Pattern

/-- How the signs of a written pattern are read. -/
structure Flags where
  /-- Letters match in either case. -/
  ignoreCase : Bool
  /-- The anchors match at every line. -/
  multiLine : Bool
  /-- A dot matches a line end too. -/
  dotAll : Bool
  /-- Repetitions prefer fewer passes unless marked. -/
  swapGreed : Bool
  /-- Classes mean characters of all scripts, not octets. -/
  unicode : Bool
  /-- A carriage return ends lines too. -/
  anyLine : Bool
  /-- Blanks and comments between the signs are left out. -/
  spaced : Bool
  /-- No part of the pattern may take part of a character. -/
  wholeChars : Bool
  deriving DecidableEq, Repr

namespace Flags

/-- The flags at the start of a pattern over characters, or over octets. -/
def initial (unicode : Bool) : Flags :=
  ⟨false, false, false, false, unicode, false, false, unicode⟩

/-- Sets or clears the flag with a given letter. -/
def update? (f : Flags) (letter : Char) (on : Bool) : Option Flags :=
  match letter with
  | 'i' => some { f with ignoreCase := on }
  | 'm' => some { f with multiLine := on }
  | 's' => some { f with dotAll := on }
  | 'U' => some { f with swapGreed := on }
  | 'u' => some { f with unicode := on }
  | 'R' => some { f with anyLine := on }
  | 'x' => some { f with spaced := on }
  | _ => none

/-- Leaves out blanks, and comments from a number sign to the end of the line. -/
def skipSpaced (inComment : Bool) : List Char → List Char
  | [] => []
  | c :: rest =>
    if inComment then skipSpaced (c != '\n') rest
    else if Text.isBlank c then skipSpaced false rest
    else if c == '#' then skipSpaced true rest
    else c :: rest

/-- Moves to the next sign. -/
def gap (f : Flags) (cs : List Char) : List Char :=
  if f.spaced then skipSpaced false cs else cs

theorem gap_of_not_spaced {f : Flags} (h : f.spaced = false) (cs : List Char) : f.gap cs = cs := by
  simp [gap, h]

/-- Reads signs as long as they pass a test, each followed by a move to the next sign. -/
def readRun (f : Flags) (p : Char → Bool) : (fuel : Nat) → List Char → List Char × List Char
  | fuel + 1, c :: rest =>
    if p c then
      let (run, rest) := readRun f p fuel (f.gap rest)
      (c :: run, rest)
    else ([], c :: rest)
  | _, cs => ([], cs)

/-- Reads all signs from here on that pass a test. -/
def takeRun (f : Flags) (p : Char → Bool) (cs : List Char) : List Char × List Char :=
  f.readRun p cs.length cs

/-! ## Leaves -/

/-- The leaf for a character that stands for itself; `isOctet` tells that it was written as the
number of an octet. -/
def literal (f : Flags) (c : Char) (isOctet : Bool) : Node :=
  let s := CharSet.single c.toNat
  if f.unicode then .char (if f.ignoreCase then .folded s else s)
  else if isOctet && 0x80 ≤ c.toNat then .octet s
  else if f.ignoreCase && CharSet.asciiLetter.mem c.toNat then .octet (.asciiFolded s)
  else .char s

/-- The leaf for a dot. -/
def dot (f : Flags) : Node :=
  let s :=
    if f.dotAll then CharSet.all
    else if f.anyLine then .compl (.union (.single 0x0A) (.single 0x0D))
    else .compl (.single 0x0A)
  if f.unicode then .char s else .octet s

/-- The leaf for a set of the kind the flags ask for.  A single octet that is a character is one. -/
def setLeaf (f : Flags) (s : CharSet) : Node :=
  if f.unicode then .char s
  else if s.isAscii && s.isOneOctet then .char (.inter (.range 0x00 0x7F) s)
  else .octet s

/-- The assertion of a circumflex. -/
def lineStart (f : Flags) : Look :=
  if !f.multiLine then .textStart else if f.anyLine then .anyLineStart else .lineStart

/-- The assertion of a dollar sign. -/
def lineEnd (f : Flags) : Look :=
  if !f.multiLine then .textEnd else if f.anyLine then .anyLineEnd else .lineEnd

/-! ## Sets -/

/-- Adds the case variants of a set if case does not count. -/
def foldSet (f : Flags) (s : CharSet) : CharSet :=
  if f.ignoreCase then (if f.unicode then .folded s else .asciiFolded s) else s

/-- A set of octets is refused where characters have to stay whole and it could break one. -/
def whole? (f : Flags) (s : CharSet) : Option CharSet :=
  if !f.unicode && f.wholeChars && !s.isAscii then none else some s

/-- A finished class: its case variants are added before it is complemented. -/
def closeSet? (f : Flags) (negated : Bool) (s : CharSet) : Option CharSet :=
  let s := f.foldSet s
  f.whole? (if negated then .compl s else s)

end Flags

end Descent.Pattern
