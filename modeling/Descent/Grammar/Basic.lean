import Descent.Grammar.Pragma
import Descent.Token.Lexicon

/-!
# Grammars

A grammar declares lexemes by namespace, rules by name, and pragmas.  Rule bodies are kept as they
are written.

Main results:

- `Grammar.ofParts` builds a grammar in which the namespace that texts start in is declared.
- `Grammar.declaresRule` looks a rule up by its name, marked or not.
- `Grammar.lexicon` compiles the lexemes.
-/

namespace Descent

/-- Patterns by key, in order of declaration. -/
abbrev PatternMap := OrderedMap String String

/-- A grammar as declared. -/
structure Grammar where
  lexemes : OrderedMap String PatternMap
  /-- The bodies of the rules by name; a leading number sign marks a rule that makes a node. -/
  bodies : OrderedMap String String
  pragmas : Pragmas
  deriving Repr

namespace Grammar

/-- A grammar of given parts; the namespace that texts start in is added if it is not declared. -/
def ofParts (lexemes : OrderedMap String PatternMap) (bodies : OrderedMap String String)
    (pragmas : Pragmas) : Grammar :=
  ⟨if lexemes.contains defaultSpace then lexemes else lexemes.insert defaultSpace .empty,
    bodies, pragmas⟩

/-- The grammar that declares nothing. -/
def empty : Grammar :=
  ofParts .empty .empty .empty

/-- Whether a rule is declared under a name, or under the name with its mark. -/
def declaresRule (g : Grammar) (name : String) : Bool :=
  g.bodies.contains name || g.bodies.contains ("#" ++ name)

/-- The declared lexemes by namespace. -/
def groups (g : Grammar) : LexemeGroups :=
  g.lexemes.entries.map fun e => (e.1, e.2.entries)

/-- Compiles the declared lexemes. -/
def lexicon (E : Engine) (g : Grammar) : Except LexError Lexicon :=
  Lexicon.ofGroups E g.groups g.pragmas.unicode

end Grammar

end Descent
