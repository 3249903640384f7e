import Descent.Grammar.Basic

/-!
# Grammar documents

A grammar is written line by line.  A line that starts with a per cent sign is an instruction and
declares a pragma or a lexeme; a line that ends in a colon heads a rule, and the indented lines
after it are the rule's body.  Lines that start with two slashes are comments.

Main results:

- `Instruction.ofLine?` reads an instruction.
- `Grammar.ofDocument` reads a grammar, or names the first line that is neither.
-/

namespace Descent

/-! ## Instructions -/

/-- An instruction of a grammar document. -/
inductive Instruction where
  | pragma (name : String) (value : PragmaValue)
  /-- One more pattern of what is passed over in a namespace. -/
  | skip (space : String) (pattern : String)
  /-- A lexeme of a namespace, perhaps with what happens to the namespace after a match. -/
  | lexeme (space : String) (name : String) (pattern : String) (target : Option String)
  deriving DecidableEq, Repr

namespace Instruction

/-- The rest of a line after gaps, of which there has to be one at least. -/
def afterGaps? (cs : List Char) : Option (List Char) :=
  match cs with
  | c :: rest => if Text.isGap c then some (rest.dropWhile Text.isGap) else none
  | [] => none

/-- The first word of a line and what follows the gaps after it. -/
def word? (cs : List Char) : Option (List Char × List Char) :=
  let word := cs.takeWhile (!Text.isGap ·)
  if word.isEmpty then none else (afterGaps? (cs.drop word.length)).map (word, ·)

/-- The first word of a line without a leading namespace and colon, the namespace if there is one,
and what follows the gaps after the word.  What is not a namespace belongs to the word. -/
def qualifiedWord? (cs : List Char) : Option (Option (List Char) × List Char × List Char) :=
  let space := cs.takeWhile fun c => c != ':' && !Text.isBlank c
  let qualified : Option (List Char × List Char) :=
    match space, cs.drop space.length with
    | _ :: _, ':' :: rest => word? rest
    | _, _ => none
  match qualified with
  | some (word, rest) => some (some space, word, rest)
  | none => (word? cs).map fun (word, rest) => (none, word, rest)

/-- The target after an arrow with gaps on both sides, if a line starts with one. -/
def arrow? (cs : List Char) : Option (List Char) :=
  match afterGaps? cs with
  | some ('-' :: '>' :: rest) => afterGaps? rest
  | _ => none

/-- A line up to its first arrow, and the target after it; `front` is what came before, the last
character first. -/
def splitArrow (front : List Char) : List Char → List Char × Option (List Char)
  | [] => (front.reverse, none)
  | c :: rest =>
    match arrow? (c :: rest) with
    | some target => (front.reverse, some target)
    | none => splitArrow (c :: front) rest

/-- The rest of a line after a keyword and gaps. -/
def afterKeyword? (keyword : String) (line : List Char) : Option (List Char) :=
  (afterFront? keyword.toList line).bind afterGaps?

/-- Reads the line of a pragma: its name and its value. -/
def ofPragmaLine? (line : List Char) : Option Instruction := do
  let rest ← afterKeyword? "%pragma" line
  let (name, value) ← word? rest
  return .pragma (String.ofList name) (.ofChars value)

/-- The namespace a word is qualified with, or the one that texts start in. -/
def spaceName (space : Option (List Char)) : String :=
  (space.map String.ofList).getD defaultSpace

/-- Reads the line of a pattern to pass over: a name, which does not matter, and the pattern. -/
def ofSkipLine? (line : List Char) : Option Instruction := do
  let rest ← afterKeyword? "%skip" line
  let (space, _, pattern) ← qualifiedWord? rest
  return .skip (spaceName space) (String.ofList pattern)

/-- Reads the line of a lexeme: its name, its pattern, and perhaps an arrow and a target. -/
def ofLexemeLine? (line : List Char) : Option Instruction := do
  let rest ← afterKeyword? "%token" line
  let (space, name, rest) ← qualifiedWord? rest
  let (pattern, target) := splitArrow [] rest
  return .lexeme (spaceName space) (String.ofList name) (String.ofList pattern)
    (target.map String.ofList)

/-- Reads an instruction. -/
def ofLine? (line : List Char) : Option Instruction :=
  (ofPragmaLine? line).or ((ofSkipLine? line).or (ofLexemeLine? line))

end Instruction

namespace Grammar

/-- The pattern that matches what either of two patterns matches, the first one preferred. -/
def eitherPattern (first second : String) : String :=
  "(?:" ++ first ++ "|" ++ second ++ ")"

/-- The lexemes of a namespace with one more pattern to pass over. -/
def addSkip (lexemes : PatternMap) (pattern : String) : PatternMap :=
  lexemes.insert skipName <|
    match lexemes.get? skipName with
    | some previous => eitherPattern previous pattern
    | none => pattern

/-- Carries out an instruction. -/
def perform (g : Grammar) : Instruction → Grammar
  | .pragma name value => { g with pragmas := g.pragmas.insert name value }
  | .skip space pattern =>
    let lexemes := (g.lexemes.get? space).getD .empty
    { g with lexemes := g.lexemes.insert space (addSkip lexemes pattern) }
  | .lexeme space name pattern target =>
    let lexemes := (g.lexemes.get? space).getD .empty
    let key := match target with
      | some target => name ++ ":" ++ target
      | none => name
    { g with lexemes := g.lexemes.insert space (lexemes.insert key pattern) }

/-! ## Lines -/

/-- The lines of a document, without the newlines between them. -/
def linesOf : List Char → List (List Char)
  | [] => [[]]
  | c :: rest =>
    if c = '\n' then [] :: linesOf rest
    else
      match linesOf rest with
      | line :: lines => (c :: line) :: lines
      | [] => [[c]]

/-- Whether a line starts like a comment. -/
def isComment (line : List Char) : Bool :=
  ['/', '/'].isPrefixOf line

/-- Whether a line can continue the body of a rule: it is indented or a comment. -/
def continuesBody (line : List Char) : Bool :=
  (line.head?.any Text.isGap) || isComment line

/-- The body that some lines make: each one after a space, and comments left out. -/
def bodyOf (lines : List (List Char)) : List Char :=
  (lines.filter fun line => !isComment (Text.trimStart line)).flatMap fun line =>
    ' ' :: Text.trim line

/-- The name that a header declares; it ends in a colon. -/
def headerName? (line : List Char) : Option (List Char) :=
  if line.getLast? = some ':' then some (Text.trim line.dropLast) else none

/-- A grammar read in part: what is declared so far, and the rule whose body the next lines may
continue, with the lines of its body, the last one first. -/
structure Draft where
  grammar : Grammar
  pending : Option (List Char × List (List Char))

/-- Declares the pending rule with the body that was read. -/
def Draft.close (d : Draft) : Grammar :=
  match d.pending with
  | none => d.grammar
  | some (name, body) =>
    { d.grammar with
      bodies := d.grammar.bodies.insert (String.ofList name)
        (String.ofList (bodyOf body.reverse)) }

/-- Reads a line that belongs to no body. -/
def readOutside (source : String) (number : Nat) (g : Grammar) (raw : List Char) :
    Except GrammarError Draft :=
  let line := Text.trimEnd raw
  if line.isEmpty || isComment line then .ok ⟨g, none⟩
  else if line.head? = some '%' then
    match Instruction.ofLine? line with
    | some i => .ok ⟨g.perform i, none⟩
    | none => .error (.unrecognizedInstruction (String.ofList line) source number)
  else
    match headerName? line with
    | some name => .ok ⟨g, some (name, [])⟩
    | none => .error (.malformedHeader (String.ofList line) source number)

/-- Reads a line, the `number`-th of its document. -/
def Draft.readLine (source : String) (number : Nat) (d : Draft) (raw : List Char) :
    Except GrammarError Draft :=
  match d.pending with
  | some (name, body) =>
    if continuesBody raw then .ok ⟨d.grammar, some (name, raw :: body)⟩
    else readOutside source number d.close raw
  | none => readOutside source number d.grammar raw

/-- Reads lines, the first of which is the `number`-th of its document. -/
def Draft.readLines (source : String) (number : Nat) (d : Draft) :
    List (List Char) → Except GrammarError Draft
  | [] => .ok d
  | raw :: rest =>
    match d.readLine source number raw with
    | .error e => .error e
    | .ok d => d.readLines source (number + 1) rest

/-- Reads a grammar document; the name of its source appears in errors only. -/
def ofDocument (text : String) (source : String) : Except GrammarError Grammar :=
  (Draft.readLines source 1 ⟨.empty, none⟩ (linesOf text.toList)).map Draft.close

end Grammar

end Descent
