import Descent.Pattern.Escape

/-!
# Bracketed classes

A class in brackets joins characters, ranges, escapes and further classes.  Classes may be met,
subtracted or compared; these operations bind to the left and less tightly than joining.

A class knows how deep it nests: a class in brackets, an operation, and items side by side are a
level each.

Main results:

- `readBracket?` reads a class from after its opening bracket.
-/

namespace Descent.Pattern

/-- An operation between two classes. -/
inductive SetOp where
  | inter
  | diff
  | symmDiff
  deriving DecidableEq, Repr

/-- A part of a class and how deep it nests. -/
structure ClassPart where
  set : CharSet
  depth : Nat
  deriving DecidableEq, Repr

/-- The items of a class side by side: what they hold, how many they are, and how deep the deepest
of them nests. -/
structure ClassItems where
  set : CharSet
  count : Nat
  depth : Nat
  deriving DecidableEq, Repr

/-- Adds an item. -/
def ClassItems.add (items : ClassItems) (p : ClassPart) : ClassItems :=
  ⟨.union items.set p.set, items.count + 1, max items.depth p.depth⟩

/-- The items as one part; several are a level of their own. -/
def ClassItems.part (items : ClassItems) : ClassPart :=
  ⟨items.set, if items.count < 2 then items.depth else items.depth + 1⟩

/-- No items. -/
def ClassItems.none : ClassItems :=
  ⟨.none, 0, 0⟩

/-- A literal item some number of times. -/
def ClassItems.literal (c : Char) (count : Nat) : ClassItems :=
  if count == 0 then .none else ⟨.single c.toNat, count, 0⟩

/-- Applies an operation; case variants are added to both sides first. -/
def SetOp.apply (f : Flags) (op : SetOp) (a b : CharSet) : CharSet :=
  let a := f.foldSet a
  let b := f.foldSet b
  match op with
  | .inter => .inter a b
  | .diff => .diff a b
  | .symmDiff => .symmDiff a b

/-- The class so far: what was read before the last operation, and what after it. -/
def combine (f : Flags) (before : Option (SetOp × ClassPart)) (items : ClassItems) : ClassPart :=
  let right := items.part
  match before with
  | none => right
  | some (op, left) => ⟨op.apply f left.set right.set, max left.depth right.depth + 1⟩

/-- The element that a character in a class stands for.  A class of octets takes ASCII characters
and octets by number. -/
def classElement? (f : Flags) (c : Char) (isOctet : Bool) : Option Nat :=
  if f.unicode || c.toNat < 0x80 then some c.toNat
  else if isOctet && !f.wholeChars then some c.toNat
  else none

/-- Reads one item of a class: an escape, or a character that stands for itself. -/
def readClassItem? (f : Flags) : List Char → Option (Escape × List Char)
  | [] => none
  | '\\' :: rest => readEscape? f rest
  | c :: rest => some (.literal c false, rest)

/-- The sign after a hyphen: blanks are passed over, and the mark that opens a comment, but not what
is written in the comment. -/
def signAfter (f : Flags) (inComment : Bool) : List Char → Option Char
  | [] => none
  | c :: rest =>
    if f.spaced && Text.isBlank c then signAfter f inComment rest
    else if f.spaced && !inComment && c == '#' then signAfter f true rest
    else some c

/-- Reads an item, or a range if a hyphen and another item follow. -/
def readClassRange? (f : Flags) (cs : List Char) : Option (CharSet × List Char) := do
  let (first, rest) ← readClassItem? f cs
  let single : Option CharSet :=
    match first with
    | .literal c isOctet => (classElement? f c isOctet).map CharSet.single
    | e => e.set? f
  match f.gap rest with
  | [] => none
  | '-' :: after =>
    if signAfter f false after == some ']' || signAfter f false after == some '-' then
      single.map (·, '-' :: after)
    else
      let (last, rest) ← readClassItem? f (f.gap after)
      match first, last with
      | .literal c cOctet, .literal d dOctet =>
        if c ≤ d then
          let low ← classElement? f c cOctet
          let high ← classElement? f d dOctet
          return (.range low high, rest)
        else none
      | _, _ => none
  | rest => single.map (·, rest)

/-- Reads the name of an ASCII class up to a colon and a bracket. -/
def readClassName? (cs : List Char) : Option (CharSet × List Char) :=
  let name := cs.takeWhile (· != ':')
  match cs.drop name.length with
  | ':' :: ']' :: rest => (CharSet.asciiClass? (String.ofList name)).map (·, rest)
  | _ => none

/-- Reads the rest of a named ASCII class after its bracket: a colon, perhaps a circumflex, and the
name. -/
def readAsciiClass? (cs : List Char) : Option (CharSet × Bool × List Char) :=
  match cs with
  | ':' :: '^' :: rest => (readClassName? rest).map fun (s, rest) => (s, true, rest)
  | ':' :: rest => (readClassName? rest).map fun (s, rest) => (s, false, rest)
  | _ => none

/-- Reads what may stand only before the items of a class: hyphens, and a closing bracket that stands
for itself. -/
def openItems (f : Flags) (cs : List Char) : ClassItems × List Char :=
  match f.takeRun (· == '-') cs with
  | ([], ']' :: rest) => (.literal ']' 1, rest)
  | (hyphens, rest) => (.literal '-' hyphens.length, rest)

/-- Reads the front of a class: perhaps a circumflex, and what may stand before the items. -/
def openBracket (f : Flags) (cs : List Char) : Bool × ClassItems × List Char :=
  match f.gap cs with
  | '^' :: rest => (true, openItems f (f.gap rest))
  | cs => (false, openItems f cs)

/-- Reads the items of a class up to its closing bracket. -/
def readItems? (f : Flags) : (fuel : Nat) → (before : Option (SetOp × ClassPart)) →
    (items : ClassItems) → List Char → Option (ClassPart × List Char)
  | 0, _, _, _ => none
  | fuel + 1, before, items, cs =>
    let operate (op : SetOp) (rest : List Char) : Option (ClassPart × List Char) :=
      readItems? f fuel (some (op, combine f before items)) .none rest
    match f.gap cs with
    | [] => none
    | ']' :: rest => some (combine f before items, rest)
    | '[' :: rest =>
      match readAsciiClass? rest with
      | some (s, negated, rest) => do
        let s ← f.closeSet? negated s
        readItems? f fuel before (items.add ⟨s, 0⟩) rest
      | none => do
        let (negated, first, rest) := openBracket f rest
        let (p, rest) ← readItems? f fuel none first rest
        let s ← f.closeSet? negated p.set
        readItems? f fuel before (items.add ⟨s, p.depth + 1⟩) rest
    | '&' :: '&' :: rest => operate .inter rest
    | '-' :: '-' :: rest => operate .diff rest
    | '~' :: '~' :: rest => operate .symmDiff rest
    | cs => do
      let (s, rest) ← readClassRange? f cs
      readItems? f fuel before (items.add ⟨s, 0⟩) rest

/-- Reads a class from after its opening bracket; every item takes a character at least. -/
def readBracket? (f : Flags) (cs : List Char) : Option (ClassPart × List Char) := do
  let (negated, first, rest) := openBracket f cs
  let (p, rest) ← readItems? f (cs.length + 1) none first rest
  let s ← f.closeSet? negated p.set
  return (⟨s, p.depth + 1⟩, rest)

end Descent.Pattern
