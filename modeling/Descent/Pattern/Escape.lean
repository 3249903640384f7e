import Descent.Pattern.Flags

/-!
# Escapes

What a backslash and the signs after it mean.

Main results:

- `readEscape?` reads the signs after a backslash.
- `Escape.set?` is the set of an escape that stands for a class.
-/

namespace Descent.Pattern

/-- A class that one letter abbreviates. -/
inductive LetterClass where
  | digit
  | whitespace
  | word
  deriving DecidableEq, Repr

/-- What an escape stands for. -/
inductive Escape where
  /-- A character; `isOctet` tells that it was written as the number of an octet. -/
  | literal (c : Char) (isOctet : Bool)
  | letterClass (k : LetterClass) (negated : Bool)
  | property (p : Unicode.Property) (negated : Bool)
  | look (l : Look)
  deriving DecidableEq, Repr

/-- The set of a class that one letter abbreviates. -/
def LetterClass.set (f : Flags) : LetterClass → CharSet
  | .digit => if f.unicode then .property .digit else CharSet.asciiDigit
  | .whitespace => if f.unicode then .property .whitespace else CharSet.asciiWhitespace
  | .word => if f.unicode then .property .word else CharSet.asciiWord

/-- The set an escape stands for, if it stands for one that the flags allow. -/
def Escape.set? (f : Flags) : Escape → Option CharSet
  | .letterClass k negated => f.whole? (if negated then .compl (k.set f) else k.set f)
  | .property p negated => if f.unicode then f.closeSet? negated (.property p) else none
  | .literal _ _ | .look _ => none

/-! ## Numbers -/

/-- The value of a hexadecimal digit. -/
def hexValue? (c : Char) : Option Nat :=
  if '0' ≤ c && c ≤ '9' then some (c.toNat - '0'.toNat)
  else if 'a' ≤ c && c ≤ 'f' then some (c.toNat - 'a'.toNat + 10)
  else if 'A' ≤ c && c ≤ 'F' then some (c.toNat - 'A'.toNat + 10)
  else none

/-- Reads exactly `n` hexadecimal digits after the value so far. -/
def readHexDigits? (f : Flags) : (n : Nat) → (value : Nat) → List Char → Option (Nat × List Char)
  | 0, value, cs => some (value, cs)
  | _ + 1, _, [] => none
  | n + 1, value, c :: rest =>
    (hexValue? c).bind fun d => readHexDigits? f n (16 * value + d) (f.gap rest)

/-- The value of hexadecimal digits, of which there must be one. -/
def hexNumber? (digits : List Char) : Option Nat :=
  if digits.isEmpty then none
  else digits.foldlM (fun value c => (hexValue? c).map (16 * value + ·)) 0

/-- The character with a given code point. -/
def charOfCode? (n : Nat) : Option Char :=
  if (Char.ofNat n).toNat = n then some (Char.ofNat n) else none

/-- Reads a code point of `n` digits, or of any number of digits in braces. -/
def readCode? (f : Flags) (n : Nat) (cs : List Char) : Option (Escape × List Char) :=
  match f.gap cs with
  | '\x7b' :: rest =>
    match f.takeRun (· != '\x7d') (f.gap rest) with
    | (digits, _ :: rest) => do
      let c ← (hexNumber? digits).bind charOfCode?
      return (.literal c false, rest)
    | (_, []) => none
  | cs => do
    let (value, rest) ← readHexDigits? f n 0 cs
    let c ← charOfCode? value
    return (.literal c (n == 2), rest)

/-! ## Properties -/

/-- The property that a name in braces stands for.  A key stands before a colon or an equals sign;
an exclamation mark before the latter is read over. -/
def namedProperty? (name : List Char) : Option Unicode.Property :=
  let rec split (before : List Char) : List Char → Option Unicode.Property
    | '!' :: '=' :: value => Unicode.Property.ofValue? before.reverse value
    | c :: rest =>
      if c == ':' || c == '=' then Unicode.Property.ofValue? before.reverse rest
      else split (c :: before) rest
    | [] => Unicode.Property.ofName? before.reverse
  split [] name

/-- Reads the property after a `p` or, if negated, a `P`: one letter, or a name in braces. -/
def readProperty? (f : Flags) (negated : Bool) (cs : List Char) : Option (Escape × List Char) :=
  match f.gap cs with
  | [] => none
  | '\x7b' :: rest =>
    match f.takeRun (· != '\x7d') (f.gap rest) with
    | (_, []) => none
    | (name, _ :: rest) => (namedProperty? name).map fun p => (.property p negated, rest)
  | c :: rest =>
    if c == '\\' then none
    else (Unicode.Property.ofName? [c]).map fun p => (.property p negated, rest)

/-! ## Word boundaries -/

/-- Reads a boundary of words; a name in braces narrows it, and braces that hold no name are left
for a count. -/
def readBoundary? (f : Flags) (cs : List Char) : Option (Escape × List Char) :=
  let plain : Option (Escape × List Char) := some (.look (.wordBoundary f.unicode), cs)
  match cs with
  | '\x7b' :: rest =>
    match f.takeRun (fun c => c.isAlpha || c == '-') (f.gap rest) with
    | ([], rest) => if rest.isEmpty then none else plain
    | (name, '\x7d' :: rest) =>
      match String.ofList name with
      | "start" => some (.look (.wordStart f.unicode), rest)
      | "end" => some (.look (.wordEnd f.unicode), rest)
      | "start-half" => some (.look (.wordStartHalf f.unicode), rest)
      | "end-half" => some (.look (.wordEndHalf f.unicode), rest)
      | _ => none
    | _ => none
  | _ => plain

/-! ## All escapes -/

/-- Whether a character stands for itself after a backslash: ASCII signs do. -/
def isEscapable (c : Char) : Bool :=
  c.toNat < 0x80 && !c.isAlphanum && c != '<' && c != '>'

/-- Reads the signs after a backslash. -/
def readEscape? (f : Flags) : List Char → Option (Escape × List Char)
  | [] => none
  | c :: rest =>
    match c with
    | 'x' => readCode? f 2 rest
    | 'u' => readCode? f 4 rest
    | 'U' => readCode? f 8 rest
    | 'p' => readProperty? f false rest
    | 'P' => readProperty? f true rest
    | 'd' => some (.letterClass .digit false, rest)
    | 'D' => some (.letterClass .digit true, rest)
    | 's' => some (.letterClass .whitespace false, rest)
    | 'S' => some (.letterClass .whitespace true, rest)
    | 'w' => some (.letterClass .word false, rest)
    | 'W' => some (.letterClass .word true, rest)
    | 'a' => some (.literal '\x07' false, rest)
    | 'f' => some (.literal '\x0C' false, rest)
    | 't' => some (.literal '\t' false, rest)
    | 'n' => some (.literal '\n' false, rest)
    | 'r' => some (.literal '\r' false, rest)
    | 'v' => some (.literal '\x0B' false, rest)
    | 'A' => some (.look .textStart, rest)
    | 'z' => some (.look .textEnd, rest)
    | 'b' => readBoundary? f rest
    | 'B' => some (.look (.noWordBoundary f.unicode), rest)
    | '<' => some (.look (.wordStart f.unicode), rest)
    | '>' => some (.look (.wordEnd f.unicode), rest)
    | _ => if isEscapable c then some (.literal c false, rest) else none

end Descent.Pattern
