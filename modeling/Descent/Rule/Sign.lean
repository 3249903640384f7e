import Descent.Pattern.Engine
import Descent.Rule.Basic
import Descent.Token.Scanner

/-!
# Signs of rule bodies

The text of a rule body is cut into signs: bars between alternatives, parentheses, marks of
repetition, references to tokens, calls of rules, and names of nodes.

Main results:

- `bodyLexicon` cuts a body into tokens, and `Sign.ofToken` reads each as a sign.
- `signsOf` gives the signs of a body, with the ending, or an error where none matches.
-/

namespace Descent

/-- A sign of a rule body. -/
inductive Sign where
  | bar
  | opening
  | closing
  /-- A least and, perhaps, a greatest number of repetitions; none if a number is too great. -/
  | quantifier (bounds : Option (Nat × Option Nat))
  /-- A token of a kind, perhaps with the index of those it has to equal; none if the index is not
  a number that fits. -/
  | token (reference : Option (String × Option Nat)) (kept : Bool)
  | call (name : String)
  | node (id : String)
  | ending
  deriving DecidableEq, Repr

/-- A sign and how it is written. -/
structure WrittenSign where
  sign : Sign
  written : String
  deriving DecidableEq, Repr

/-- The kinds of signs and their patterns, in order of preference. -/
def bodyLexemes : List (String × String) := [
  ("skip", "\\s"),
  ("or", "\\|"),
  ("zero_or_one", "\\?"),
  ("one_or_more", "\\+"),
  ("zero_or_more", "\\*"),
  ("n_to_m", "\\\x7b[0-9]+,[0-9]+\\\x7d"),
  ("zero_to_m", "\\\x7b,[0-9]+\\\x7d"),
  ("n_or_more", "\\\x7b[0-9]+,\\\x7d"),
  ("exactly_n", "\\\x7b[0-9]+\\\x7d"),
  ("skipped", "::[a-zA-Z_][a-zA-Z0-9_]*(\\[\\d+\\])?::"),
  ("kept", "<[a-zA-Z_][a-zA-Z0-9_]*(\\[\\d+\\])?>"),
  ("named", "[a-zA-Z_][a-zA-Z0-9_]*\\(\\)"),
  ("node", "#[a-zA-Z_][a-zA-Z0-9_]*(:[mM])?"),
  ("capturing_", "\\("),
  ("_capturing", "\\)")]

/-- The lexicon of rule bodies.  Its patterns are fixed, and the engine reads all of them. -/
def bodyLexicon : Lexicon :=
  match Lexicon.ofGroups Pattern.engine [(defaultSpace, bodyLexemes)] true with
  | .ok lx => lx
  | .error _ => ⟨.empty, false, true⟩

/-- Reads a number of repetitions. -/
def readBound? (cs : List Char) : Option Nat :=
  (Text.natOfDigits? cs).filter (· ≤ Text.maxInteger)

/-- Reads two numbers around a comma; a missing one is zero, or none. -/
def readBounds? (cs : List Char) : Option (Nat × Option Nat) := do
  let low := cs.takeWhile (· != ',')
  let high := (cs.drop low.length).tail
  let min ← if low.isEmpty then some 0 else readBound? low
  if high.isEmpty then return (min, none)
  else
    let max ← readBound? high
    return (min, some max)

/-- A text without the characters around it that a test picks. -/
def stripChars (p : Char → Bool) (s : String) : List Char :=
  ((s.toList.dropWhile p).reverse.dropWhile p).reverse

/-- Reads a reference to a token: its kind, and perhaps an index in brackets. -/
def readReference? (cs : List Char) : Option (String × Option Nat) :=
  if cs.getLast? = some ']' then
    let inner := cs.dropLast
    let kind := inner.takeWhile (· != '[')
    match inner.drop kind.length with
    | [] => none
    | _ :: index => (Text.word? index).map fun n => (String.ofList kind, some n)
  else some (String.ofList cs, none)

/-- Reads a token of a body as a sign. -/
def Sign.ofToken (t : Token) : Sign :=
  let braced := stripChars (fun c => c == '\x7b' || c == '\x7d') t.value
  match t.kind with
  | "or" => .bar
  | "capturing_" => .opening
  | "_capturing" => .closing
  | "zero_or_one" => .quantifier (some (0, some 1))
  | "one_or_more" => .quantifier (some (1, none))
  | "zero_or_more" => .quantifier (some (0, none))
  | "exactly_n" => .quantifier ((readBound? braced).map fun n => (n, some n))
  | "n_to_m" | "zero_to_m" | "n_or_more" => .quantifier (readBounds? braced)
  | "skipped" => .token (readReference? (stripChars (· == ':') t.value)) false
  | "kept" => .token (readReference? (stripChars (fun c => c == '<' || c == '>') t.value)) true
  | "named" => .call (String.ofList (t.value.toList.takeWhile (· != '(')))
  | "node" => .node t.value
  | _ => .ending

/-- The signs of a body with its ending, or an error where no sign matches. -/
def signsOf (body : String) : List (Except LexError WrittenSign) :=
  (bodyLexicon.items (Text.octets body.toList)).map fun item =>
    item.map fun t => ⟨.ofToken t, t.value⟩

end Descent
