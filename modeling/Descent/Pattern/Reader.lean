import Descent.Pattern.Bracket
import Descent.Pattern.Composition
import Descent.Pattern.Room
import Descent.Text.Numeral

/-!
# Written patterns

A pattern is written as alternatives of sequences; groups nest them, and a sign after an item
repeats it.  A flag directive holds from its place to the end of the group around it, later
alternatives included.  Groups, repetitions, classes, and items or alternatives side by side are a
level each, and levels are limited.

Main results:

- `Pattern.read?` reads alternatives, and tells which flags hold after them.
- `Pattern.ofString` reads a written pattern, or says what is wrong with it.
-/

namespace Descent.Pattern

/-! ## Counts -/

/-- Reads a number with blanks around it; the number is absent if no digit is there. -/
def readNumber (f : Flags) (cs : List Char) : Option Nat × List Char :=
  let (digits, rest) := f.takeRun Char.isDigit (Text.trimStart cs)
  (Text.natOfDigits? digits, f.gap (Text.trimStart rest))

/-- The greatest count that may be written. -/
def maxCount : Nat :=
  Nat.pow 2 32 - 1

/-- Reads a count from after its opening brace: one number, or one or two around a comma. -/
def readCount? (f : Flags) (cs : List Char) : Option (Nat × Option Nat × List Char) := do
  let (first, rest) := readNumber f (f.gap cs)
  let min ← first
  guard (min ≤ maxCount)
  match rest with
  | '\x7d' :: rest => return (min, some min, rest)
  | ',' :: rest =>
    match f.gap rest with
    | '\x7d' :: rest => return (min, none, rest)
    | rest =>
      let (second, rest) := readNumber f rest
      let max ← second
      guard (max ≤ maxCount && min ≤ max)
      match rest with
      | '\x7d' :: rest => return (min, some max, rest)
      | _ => none
  | _ => none

/-! ## Groups -/

/-- Groups whose place is kept, under a number or a name as well, and groups that only hold together. -/
inductive GroupKind where
  | plain
  | numbered
  | named (name : String)

/-- What an opening parenthesis begins. -/
inductive Opened where
  /-- The flags change up to the end of the group around. -/
  | directive (f : Flags)
  | group (kind : GroupKind) (f : Flags)

/-- Reads flag letters up to a colon or a closing parenthesis; after a hyphen they clear flags.  No
letter may come twice, nor a hyphen twice or last.  The letters read so far come back reversed. -/
def readFlags? (f : Flags) (on : Bool) (seen : List Char) :
    List Char → Option (Flags × List Char × List Char)
  | [] => none
  | c :: rest =>
    if c == ':' || c == ')' then
      if seen.head? == some '-' then none else some (f, seen, c :: rest)
    else if seen.contains c then none
    else if c == '-' then readFlags? f false (c :: seen) rest
    else (f.update? c on).bind fun f => readFlags? f on (c :: seen) rest

/-- Whether a character may be part of the name of a group: letters in the wide sense, and after the
first one numbers and a few signs. -/
def isNameChar (first : Bool) (c : Char) : Bool :=
  c == '_' || Unicode.Property.alphabetic.holds c.toNat ||
    (!first && (c == '.' || c == '[' || c == ']' ||
      Unicode.numbers.any (·.holds c.toNat)))

/-- Reads the name of a group up to the closing angle bracket. -/
def readGroupName? (cs : List Char) : Option (String × List Char) :=
  let name := cs.takeWhile (· != '>')
  match name, cs.drop name.length with
  | c :: others, _ :: rest =>
    if isNameChar true c && others.all (isNameChar false) then some (String.ofList name, rest)
    else none
  | _, _ => none

/-- Reads the name of a group that is told apart by it. -/
def openNamed? (f : Flags) (cs : List Char) : Option (Opened × List Char) :=
  (readGroupName? cs).map fun (name, rest) => (.group (.named name) f, rest)

/-- Reads flags, for a group that only holds together or from here on. -/
def openFlagged? (f : Flags) (cs : List Char) : Option (Opened × List Char) := do
  let (g, letters, rest) ← readFlags? f true [] cs
  match rest with
  | ':' :: rest => return (.group .plain g, rest)
  | _ :: rest => if letters.isEmpty then none else return (.directive g, rest)
  | [] => none

/-- Reads what follows an opening parenthesis.  Looking further ahead or behind than one character
is not provided for: its signs neither are flag letters nor start a name. -/
def openGroup? (f : Flags) (cs : List Char) : Option (Opened × List Char) :=
  match f.gap cs with
  | '?' :: '<' :: rest | '?' :: 'P' :: '<' :: rest => openNamed? f rest
  | '?' :: rest => openFlagged? f rest
  | rest => some (.group .numbered f, rest)

/-! ## Items -/

/-- A pattern, how deep its written form nests, and the names of the groups in that form. -/
structure Nested where
  node : Node
  depth : Nat
  names : List String

/-- A pattern in a group. -/
def Nested.grouped (kind : GroupKind) (a : Nested) : Nested :=
  match kind with
  | .plain => ⟨a.node, a.depth + 1, a.names⟩
  | .numbered => ⟨.group none a.node, a.depth + 1, a.names⟩
  | .named name => ⟨.group (some name) a.node, a.depth + 1, name :: a.names⟩

/-- An item of a sequence: a pattern, or a directive, which cannot be repeated. -/
inductive Item where
  | nested (a : Nested)
  | directive

/-- The pattern of an item; a directive takes nothing. -/
def Item.toNested : Item → Nested
  | .nested a => a
  | .directive => ⟨.empty, 0, []⟩

/-- How deep some written forms side by side nest; several are a level of their own. -/
def depthOf (as : List Nested) : Nat :=
  let deepest := as.foldl (fun d a => max d a.depth) 0
  if as.length < 2 then deepest else deepest + 1

/-- The sequence of some items, the last one first. -/
def sequenceOf (items : List Item) : Nested :=
  let as := items.reverse.map Item.toNested
  ⟨.ofSequence (as.map (·.node)), depthOf as, as.flatMap (·.names)⟩

/-- Alternatives as they are read, in order, and the flags that hold after them. -/
structure Alternatives where
  flags : Flags
  seqs : List Nested

/-- The pattern of some alternatives. -/
def Alternatives.nested (a : Alternatives) : Nested :=
  ⟨.ofAlternatives (a.seqs.map (·.node)), depthOf a.seqs, a.seqs.flatMap (·.names)⟩

/-- The leaf of an escape. -/
def Escape.leaf? (f : Flags) : Escape → Option Node
  | .literal c isOctet => some (f.literal c isOctet)
  | .look l => some (.look l)
  | e => (e.set? f).map f.setLeaf

/-- Repeats the last item; a question mark after the sign swaps the preference. -/
def repeatLast? (f : Flags) (items : List Item) (min : Nat) (max : Option Nat) (rest : List Char) :
    Option (List Item × List Char) :=
  match items with
  | .nested a :: others =>
    let marked := rest.head? == some '?'
    let rest := if marked then rest.tail else rest
    let node := Node.ofRepetition a.node min max (marked == f.swapGreed)
    some (.nested ⟨node, a.depth + 1, a.names⟩ :: others, rest)
  | _ => none

/-! ## Elements -/

/-- What stands next in a written pattern. -/
inductive Element where
  /-- The end of the alternatives. -/
  | close
  /-- The end of one of them. -/
  | bar
  | opened (o : Opened)
  | leaf (a : Node) (depth : Nat)
  | count (min : Nat) (max : Option Nat)

/-- Reads what a sign begins.  A closing parenthesis is not passed over. -/
def readSign? (f : Flags) (c : Char) (rest : List Char) : Option (Element × List Char) :=
  let leaf (a : Node) (depth : Nat) (rest : List Char) : Option (Element × List Char) :=
    if f.wholeChars && !a.keepsCharacters then none else some (.leaf a depth, rest)
  match c with
  | ')' => some (.close, ')' :: rest)
  | '|' => some (.bar, rest)
  | '(' => (openGroup? f rest).map fun (o, rest) => (.opened o, rest)
  | '[' => do
    let (p, rest) ← readBracket? f rest
    leaf (f.setLeaf p.set) p.depth rest
  | '?' => some (.count 0 (some 1), rest)
  | '*' => some (.count 0 none, rest)
  | '+' => some (.count 1 none, rest)
  | '\x7b' => (readCount? f rest).map fun (min, max, rest) => (.count min max, f.gap rest)
  | '\\' => do
    let (e, rest) ← readEscape? f rest
    let a ← e.leaf? f
    leaf a 0 rest
  | '.' => leaf f.dot 0 rest
  | '^' => leaf (.look f.lineStart) 0 rest
  | '$' => leaf (.look f.lineEnd) 0 rest
  | c => leaf (f.literal c false) 0 rest

/-- Reads what stands next. -/
def readElement? (f : Flags) (cs : List Char) : Option (Element × List Char) :=
  match f.gap cs with
  | [] => some (.close, [])
  | c :: rest => readSign? f c rest

/-! ## Whole patterns -/

/-- Reads alternatives up to a closing parenthesis or the end.  `branches` are the finished
alternatives and `items` what was read of the present one, both with the last one first. -/
def readBranches? : (fuel : Nat) → Flags → (branches : List Nested) → (items : List Item) →
    List Char → Option (Alternatives × List Char)
  | 0, _, _, _, _ => none
  | fuel + 1, f, branches, items, cs =>
    match readElement? f cs with
    | none => none
    | some (.close, rest) => some (⟨f, (sequenceOf items :: branches).reverse⟩, rest)
    | some (.bar, rest) => readBranches? fuel f (sequenceOf items :: branches) [] rest
    | some (.opened (.directive g), rest) => readBranches? fuel g branches (.directive :: items) rest
    | some (.opened (.group kind g), rest) =>
      match readBranches? fuel g [] [] rest with
      | some (a, ')' :: rest) =>
        readBranches? fuel f branches (.nested (a.nested.grouped kind) :: items) rest
      | _ => none
    | some (.leaf a depth, rest) => readBranches? fuel f branches (.nested ⟨a, depth, []⟩ :: items) rest
    | some (.count min max, rest) =>
      match repeatLast? f items min max rest with
      | none => none
      | some (items, rest) => readBranches? fuel f branches items rest

/-- Reads alternatives up to the end; every element takes a character at least. -/
def read? (f : Flags) (cs : List Char) : Option Alternatives :=
  match readBranches? (cs.length + 1) f [] [] cs with
  | some (a, []) => some a
  | _ => none

/-- Whether the names of a list differ from each other. -/
def allDistinct : List String → Bool
  | [] => true
  | name :: rest => !rest.contains name && allDistinct rest

/-- The number of levels that a written pattern may have. -/
def maxDepth : Nat :=
  250

/-- Reads a whole written pattern. -/
def Node.ofChars? (f : Flags) (cs : List Char) : Option Node :=
  (read? f cs).bind fun a =>
    if a.nested.depth ≤ maxDepth && allDistinct a.nested.names then some a.nested.node else none

/-- What is wrong with a written pattern. -/
inductive Fault where
  | malformed
  /-- With all copies written out it takes more room than there is. -/
  | tooLarge
  deriving DecidableEq, Repr

/-- What is said of a fault. -/
def Fault.message : Fault → String
  | .malformed => "error parsing pattern 0"
  | .tooLarge => "error building NFA"

/-- Reads a written pattern over characters or, if not `unicode`, over octets.  One over characters
must not be able to end inside a character. -/
def ofString (unicode : Bool) (source : String) : Except Fault Node :=
  match Node.ofChars? (.initial unicode) source.toList with
  | none => .error .malformed
  | some a =>
    if unicode && !a.keepsCharacters then .error .malformed
    else if a.fits then .ok a
    else .error .tooLarge

end Descent.Pattern
