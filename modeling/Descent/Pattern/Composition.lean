import Descent.Pattern.Basic

/-!
# Composition of patterns

Sequences, alternatives and repetitions are put together in a form of their own: sequences and
alternatives are flat, and alternatives that are characters or classes are one set.

Main results:

- `Node.ofSequence`, `Node.ofAlternatives` and `Node.ofRepetition` put patterns together.
-/

namespace Descent.Pattern

namespace Node

/-! ## Sequences -/

/-- The parts of a sequence; what takes nothing and asserts nothing is none. -/
def parts : Node → List Node
  | .empty => []
  | .seq a b => a.parts ++ b.parts
  | a => [a]

/-- The sequence of some parts. -/
def ofParts : List Node → Node
  | [] => .empty
  | [a] => a
  | a :: rest => .seq a (ofParts rest)

/-- Some patterns one after the other. -/
def ofSequence (as : List Node) : Node :=
  ofParts (as.flatMap parts)

/-! ## Alternatives -/

/-- The alternatives of a pattern. -/
def branches : Node → List Node
  | .alt a b => a.branches ++ b.branches
  | a => [a]

/-- Patterns of one alternative each as alternatives in order. -/
def ofBranches : List Node → Node
  | [] => .empty
  | [a] => a
  | a :: rest => .alt a (ofBranches rest)

/-- The characters of which a pattern takes one; an octet that is a character counts as one. -/
def charSet? : Node → Option CharSet
  | .char s => some s
  | .octet s => if s.isAscii then some (.inter (.range 0x00 0x7F) s) else none
  | _ => none

/-- The octets of which a pattern takes one. -/
def octetSet? : Node → Option CharSet
  | .char s => if s.charIntervals.all (·.last < 0x80) then some s else none
  | .octet s => some s
  | _ => none

/-- Whether a pattern takes one certain character or octet. -/
def isLiteral : Node → Bool
  | .char s => s.isOneChar
  | .octet s => s.isOneOctet
  | _ => false

/-- Some patterns as one set.  Either each of them takes a certain character or octet, or none
does. -/
def unionOf? (as : List Node) : Option Node := do
  let a ← ((as.mapM charSet?).map fun sets => .char (.ofList sets)) <|>
    ((as.mapM octetSet?).map fun sets => .octet (.ofList sets))
  guard (as.all isLiteral || !as.any isLiteral)
  return a

/-- Some patterns as alternatives in order. -/
def ofAlternatives (as : List Node) : Node :=
  let bs := as.flatMap branches
  match bs, unionOf? bs with
  | [a], _ => a
  | _, some a => a
  | bs, none => ofBranches bs

/-! ## Repetitions -/

/-- A pattern at least `min` and at most `max` times.  One that takes nothing is not passed twice.
One that may take nothing, passed any number of times, is passed at least once or left out: the
first pass is then told apart from the later ones. -/
def ofRepetition (a : Node) (min : Nat) (max : Option Nat) (greedy : Bool) : Node :=
  let (min, max) :=
    if a.takesNothing then (Nat.min min 1, some (Nat.min (max.getD 1) 1)) else (min, max)
  match min, max with
  | _, some 0 => .empty
  | 1, some 1 => a
  | 0, none =>
    if a.takesOctets then .repeated a 0 none greedy
    else .repeated (.repeated a 1 none greedy) 0 (some 1) greedy
  | min, max => .repeated a min max greedy

end Node

end Descent.Pattern
