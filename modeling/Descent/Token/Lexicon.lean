import Descent.Collection.OrderedMap
import Descent.Error
import Descent.Text.Numeral
import Descent.Token.Engine

/-!
# Lexicons

A lexicon groups lexemes by namespace.  A lexeme's key is its name, or its name, a colon and what
happens to the active namespace after a match: another one is entered, or some are left again.

Main results:

- `Transition.ofTarget` reads what follows the colon.
- `Lexeme.matchLength?` is the length of a lexeme's match at a place.
- `Lexicon.ofGroups` compiles keys and patterns, or names the first pattern that is not well formed.
- `Lexicon.representation?` is the pattern of the first lexeme with a given name.
-/

namespace Descent

/-- What happens to the active namespace after a match. -/
inductive Transition where
  | stay
  /-- Another namespace is entered. -/
  | switch (target : String)
  /-- The last `count` namespaces entered are left. -/
  | shift (count : Nat)
  deriving DecidableEq, Repr

/-- What a target starts with that leaves namespaces. -/
def shiftMark : List Char :=
  "__shift__".toList

/-- The rest of a list after a given front. -/
def afterFront? (front : List Char) (cs : List Char) : Option (List Char) :=
  if front.isPrefixOf cs then some (cs.drop front.length) else none

/-- Reads the number of namespaces to leave: one, or a number after an asterisk. -/
def shiftCount? (target : List Char) : Option Nat := do
  let rest ← afterFront? shiftMark target
  match Text.trimStart rest with
  | [] => return 1
  | '*' :: rest => Text.word? (Text.trimStart rest)
  | _ => none

/-- Reads a target; what does not leave namespaces is the name of one. -/
def Transition.ofTarget (target : String) : Transition :=
  match shiftCount? target.toList with
  | some count => .shift count
  | none => .switch target

/-- A pattern with the name its matches get. -/
structure Lexeme where
  name : String
  /-- The name as declared, with the target if there is one. -/
  key : String
  pattern : String
  transition : Transition
  /-- The pattern compiled. -/
  matcher : Matcher

/-- The number of octets that a lexeme matches between the octets before, nearest first, and those
after. -/
def Lexeme.matchLength? (l : Lexeme) (before after : List UInt8) : Option Nat :=
  (l.matcher before after).map (· - before.length)

/-- The parts of a text before and after its first colon. -/
def splitColon? (s : String) : Option (String × String) :=
  let cs := s.toList
  let front := cs.takeWhile (· != ':')
  match cs.drop front.length with
  | [] => none
  | _ :: rest => some (String.ofList front, String.ofList rest)

/-- The name and the transition that a key declares. -/
def Lexeme.ofKey (key : String) : String × Transition :=
  match splitColon? key with
  | some (name, target) => (name, .ofTarget target)
  | none => (key, .stay)

/-- Whether the target of a key starts like one that leaves namespaces. -/
def keyShifts (key : String) : Bool :=
  match splitColon? key with
  | some (_, target) => shiftMark.isPrefixOf target.toList
  | none => false

/-- Compiles a key and a pattern declared in a namespace. -/
def Lexeme.compile (E : Engine) (unicode : Bool) (space key pattern : String) :
    Except LexError Lexeme :=
  let (name, transition) := Lexeme.ofKey key
  match E.compile unicode pattern with
  | .ok matcher => .ok ⟨name, key, pattern, transition, matcher⟩
  | .error message => .error (.invalidPattern name space pattern message)

/-- The lexemes of every namespace, in order of declaration. -/
structure Lexicon where
  spaces : OrderedMap String (List Lexeme)
  /-- Whether some lexeme may leave namespaces. -/
  usesShift : Bool
  /-- Whether patterns are over characters, not octets. -/
  unicode : Bool

/-- Namespaces in order, each with keys and patterns. -/
abbrev LexemeGroups := List (String × List (String × String))

namespace Lexicon

/-- Compiles the lexemes of a namespace. -/
def compileGroup (E : Engine) (unicode : Bool) (space : String) :
    List (String × String) → Except LexError (List Lexeme)
  | [] => .ok []
  | (key, pattern) :: rest =>
    match Lexeme.compile E unicode space key pattern with
    | .error e => .error e
    | .ok lexeme =>
      match compileGroup E unicode space rest with
      | .error e => .error e
      | .ok lexemes => .ok (lexeme :: lexemes)

/-- Adds lexemes to a namespace, after those it has. -/
def extend (spaces : OrderedMap String (List Lexeme)) (space : String) (lexemes : List Lexeme) :
    OrderedMap String (List Lexeme) :=
  spaces.insert space ((spaces.get? space).getD [] ++ lexemes)

/-- Compiles groups one after the other into the namespaces so far. -/
def compileGroups (E : Engine) (unicode : Bool) (spaces : OrderedMap String (List Lexeme)) :
    LexemeGroups → Except LexError (OrderedMap String (List Lexeme))
  | [] => .ok spaces
  | (space, group) :: rest =>
    match compileGroup E unicode space group with
    | .error e => .error e
    | .ok lexemes => compileGroups E unicode (extend spaces space lexemes) rest

/-- Compiles the lexemes of some namespaces; one named again gets more lexemes. -/
def ofGroups (E : Engine) (groups : LexemeGroups) (unicode : Bool) : Except LexError Lexicon :=
  match compileGroups E unicode .empty groups with
  | .error e => .error e
  | .ok spaces => .ok ⟨spaces, groups.any fun g => g.2.any fun l => keyShifts l.1, unicode⟩

/-- The lexemes of a namespace. -/
def lexemes? (lx : Lexicon) (space : String) : Option (List Lexeme) :=
  lx.spaces.get? space

/-- Whether a namespace is declared. -/
def contains (lx : Lexicon) (space : String) : Bool :=
  lx.spaces.contains space

/-- Whether some lexeme of any namespace has a given name. -/
def declares (lx : Lexicon) (name : String) : Bool :=
  lx.spaces.values.any fun ls => ls.any (·.name == name)

/-- The pattern of the first lexeme with a given name in a namespace. -/
def representation? (lx : Lexicon) (space name : String) : Option String :=
  (lx.lexemes? space).bind fun ls => (ls.find? (·.name == name)).map (·.pattern)

/-- What columns of a text count. -/
def columnUnit (lx : Lexicon) : Text.ColumnUnit :=
  if lx.unicode then .chars else .octets

@[simp]
theorem compileGroup_nil (E : Engine) (unicode : Bool) (space : String) :
    compileGroup E unicode space [] = .ok [] :=
  rfl

@[simp]
theorem compileGroups_nil (E : Engine) (unicode : Bool)
    (spaces : OrderedMap String (List Lexeme)) : compileGroups E unicode spaces [] = .ok spaces :=
  rfl

end Lexicon

end Descent
