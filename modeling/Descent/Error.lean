import Descent.Text.LineIndex
import Descent.Token.Basic

/-!
# Errors

Every way in which reading a grammar, cutting a text into tokens, or parsing can fail, by cause.
The wording stands here alone.

Main results:

- `Unrecognized.at` and `Unexpected.at` locate an error in its text.
- The `message` functions word each cause.
-/

namespace Descent

/-! ## Errors of the text -/

/-- No lexeme matches at a place of the text.  Lines and columns count from one. -/
structure Unrecognized where
  character : String
  line : Nat
  column : Nat
  offset : Nat
  excerpt : String
  deriving DecidableEq, Repr

/-- Locates a place of a text at which no lexeme matches. -/
def Unrecognized.at (text : List UInt8) (offset : Nat) (unit : Text.ColumnUnit) : Unrecognized :=
  let index := Text.LineIndex.ofOctets text
  let position := index.position offset unit
  ⟨index.charAt offset, position.line + 1, position.column + 1, offset, index.excerpt offset⟩

/-- The wording of the error. -/
def Unrecognized.message (e : Unrecognized) : String :=
  "Unrecognized token \"" ++ e.character ++ "\" at line " ++ toString e.line ++ " and column " ++
    toString e.column ++ ":\n" ++ e.excerpt

/-- A token that no derivation allows.  Lines and columns count from one. -/
structure Unexpected where
  token : Token
  line : Nat
  column : Nat
  excerpt : String
  deriving DecidableEq, Repr

/-- Locates a token that no derivation allows. -/
def Unexpected.at (text : List UInt8) (token : Token) (unit : Text.ColumnUnit) : Unexpected :=
  let index := Text.LineIndex.ofOctets text
  let position := index.position token.offset unit
  ⟨token, position.line + 1, position.column + 1, index.excerpt token.offset⟩

/-- The wording of the error. -/
def Unexpected.message (e : Unexpected) : String :=
  "Unexpected token \"" ++ e.token.value ++ "\" (" ++ e.token.kind ++ ") at line " ++
    toString e.line ++ " and column " ++ toString e.column ++ ":\n" ++ e.excerpt

/-! ## Errors of the lexemes -/

/-- Why a text cannot be cut into tokens, or lexemes cannot be used at all. -/
inductive LexError where
  /-- A lexeme matches without taking anything. -/
  | emptyMatch (lexeme pattern : String)
  /-- A lexeme goes back further than namespaces were entered. -/
  | shiftOverflow (count : Nat) (lexeme space : String) (available : Nat)
  /-- A lexeme enters a namespace without lexemes. -/
  | unknownSpace (target lexeme space : String)
  /-- A pattern is not well formed. -/
  | invalidPattern (lexeme space pattern detail : String)
  /-- No lexeme matches. -/
  | unrecognized (e : Unrecognized)
  /-- Offsets are limited to 32 bits. -/
  | tooLarge (offset : Nat)
  deriving DecidableEq, Repr

/-- The wording of an error of the lexemes. -/
def LexError.message : LexError → String
  | emptyMatch lexeme pattern =>
    "A lexeme must not match an empty value, which is the case of \"" ++ lexeme ++ "\" (" ++
      pattern ++ ")."
  | shiftOverflow count lexeme space available =>
    "Cannot shift namespace " ++ toString count ++ "-times, from token " ++ lexeme ++
      " in namespace " ++ space ++ ", because the stack contains only " ++ toString available ++
      " namespaces."
  | unknownSpace target lexeme space =>
    "Namespace " ++ target ++ " does not exist, called by token " ++ lexeme ++ " in namespace " ++
      space ++ "."
  | invalidPattern lexeme space pattern detail =>
    "Lexeme " ++ lexeme ++ " in namespace " ++ space ++ " has an invalid pattern (" ++ pattern ++
      "): " ++ detail
  | unrecognized e => e.message
  | tooLarge offset =>
    "Input is too large to lex: offset " ++ toString offset ++
      " does not fit in a 32-bit text size."

/-! ## Errors of grammars -/

/-- Why a grammar cannot be read, or its rules cannot be compiled. -/
inductive GrammarError where
  | empty (source : String)
  | unrecognizedInstruction (line source : String) (number : Nat)
  | malformedHeader (line source : String) (number : Nat)
  | noRules
  | malformedBody (rule detail : String)
  | unknownRule (name rule : String)
  | unknownToken (reference rule : String)
  | invalidBounds (min max : Int) (rule : String)
  | malformedToken (reference rule : String)
  deriving DecidableEq, Repr

/-- The wording of an error of a grammar. -/
def GrammarError.message : GrammarError → String
  | empty source => "The grammar is empty at \"" ++ source ++ "\""
  | unrecognizedInstruction line source number =>
    "Unrecognized instructions:\n    " ++ line ++ "\nin file " ++ source ++ " at line " ++
      toString number ++ "."
  | malformedHeader line source number =>
    "Rule declaration \"" ++ line ++ "\" must end with a colon in file " ++ source ++
      " at line " ++ toString number ++ "."
  | noRules => "No rules specified!"
  | malformedBody rule detail =>
    "Error while parsing rule " ++ rule ++ "." ++ (if detail.isEmpty then "" else " " ++ detail)
  | unknownRule name rule =>
    "Cannot call rule " ++ name ++ "() in rule " ++ rule ++ " because it does not exist."
  | unknownToken reference rule =>
    "Token " ++ reference ++ " does not exist in rule " ++ rule ++ "."
  | invalidBounds min max rule =>
    "Upper bound " ++ toString max ++ " must be greater or equal to lower bound " ++
      toString min ++ " in rule " ++ rule ++ "."
  | malformedToken reference rule =>
    "Malformed token reference " ++ reference ++ " in rule " ++ rule ++ "."

/-! ## All errors -/

/-- Why a file cannot be read as text. -/
inductive FileFault where
  | missing
  | notText
  deriving DecidableEq, Repr

/-- The wording of a fault of a file. -/
def FileFault.message : FileFault → String
  | missing => "No such file or directory (os error 2)"
  | notText => "stream did not contain valid UTF-8"

/-- The greatest number of nodes of a tree. -/
def maxNodes : Nat :=
  Nat.pow 2 32 - 1

/-- Every way in which an operation of the library can fail. -/
inductive Error where
  | lex (e : LexError)
  | grammar (e : GrammarError)
  /-- The bounds of a repetition are out of order. -/
  | bounds (min max : Int)
  | unexpected (e : Unexpected)
  /-- The rules do not fit together. -/
  | internal (detail : String)
  | treeTooLarge
  | file (path : String) (fault : FileFault)
  deriving DecidableEq, Repr

/-- The wording of an error. -/
def Error.message : Error → String
  | lex e => e.message
  | grammar e => e.message
  | bounds min max =>
    "Cannot repeat with a min (" ++ toString min ++ ") greater than max (" ++ toString max ++ ")."
  | unexpected e => e.message
  | internal detail => "Internal parser error: " ++ detail
  | treeTooLarge => "Tree cannot hold more than " ++ toString maxNodes ++ " nodes."
  | file path fault => "Failed to read " ++ path ++ ": " ++ fault.message

end Descent
