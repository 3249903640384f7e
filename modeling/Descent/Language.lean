import Descent.Grammar.Document
import Descent.Rule.Compilation
import Descent.Search.Run
import Descent.Tree.Arena

/-!
# Languages

A language is a grammar made ready for use: its lexemes and its rules are compiled.  Any number of
texts can be cut into tokens and parsed with it.  What lies outside, the engine of patterns and the
room that tokens take in memory, comes with the host.

Main results:

- `Language.ofGrammar`, `Language.ofDocument` and `Language.ofFile` compile a grammar for a host.
- `Language.hasRoom` tells whether there is room for the window that a parse looks through.
- `Language.parse` gives the tree of a text, `Language.parseLinked` gives it with links between its nodes,
  and `Language.trace` gives the events of its derivation.
- `Language.parse_mono`: a parse that has ended does not change with more steps.
-/

namespace Descent

/-- What languages run on. -/
structure Host where
  engine : Engine
  /-- The number of octets that an item of a text takes in memory. -/
  itemSize : Nat

/-- The engine of patterns that is at hand, and items of twelve machine words. -/
def Host.standard : Host :=
  ⟨Pattern.engine, 96⟩

/-- A compiled grammar. -/
structure Language where
  grammar : Grammar
  lexicon : Lexicon
  rules : RuleTable
  /-- The number of octets that an item of a text takes in memory. -/
  itemSize : Nat

namespace Language

/-! ## Compiling -/

/-- A language with the lexemes of a grammar and rules of its own. -/
def ofRules (H : Host) (g : Grammar) (rules : RuleTable) : Except Error Language :=
  match g.lexicon H.engine with
  | .error e => .error (.lex e)
  | .ok lexicon => .ok ⟨g, lexicon, rules, H.itemSize⟩

/-- Compiles a grammar, its rules first. -/
def ofGrammar (H : Host) (g : Grammar) : Except Error Language :=
  match g.rules with
  | .error e => .error (.grammar e)
  | .ok rules => ofRules H g rules

/-- Reads and compiles a grammar document. -/
def ofDocument (H : Host) (text : String) (source : String) : Except Error Language :=
  match Grammar.ofDocument text source with
  | .error e => .error (.grammar e)
  | .ok g => ofGrammar H g

/-- Reads and compiles a grammar file, given its contents if there is such a file. -/
def ofFile (H : Host) (path : String) (contents : Option (List UInt8)) : Except Error Language :=
  match contents with
  | none => .error (.file path .missing)
  | some bs =>
    if Text.isSound bs then
      let text := Text.decode bs
      if text.all Text.isBlank then .error (.grammar (.empty path))
      else ofDocument H (String.ofList text) path
    else .error (.file path .notText)

/-! ## Parsing -/

/-- The rules and the lexicon that a search needs. -/
def machine (l : Language) : Machine :=
  ⟨l.rules, l.lexicon⟩

/-- The items of a text. -/
def items (l : Language) (text : String) : List (Except LexError Token) :=
  l.lexicon.items (Text.octets text.toList)

/-- The rule a parse starts from: the one asked for, if it is declared, or else the first. -/
def startRule? (l : Language) (start : Option String) : Option RuleKey :=
  match start with
  | some name => if l.rules.contains (.named name) then some (.named name) else l.rules.root?
  | none => l.rules.root?

/-- The error that a failure in a text means. -/
def errorOf (l : Language) (text : String) : Failure → Error
  | .lex e => .lex e
  | .internal detail => .internal detail
  | .unexpected t => .unexpected (.at (Text.octets text.toList) t l.lexicon.columnUnit)

/-- What is said of a language without rules. -/
def noStartRule : Error :=
  .internal "grammar has no declared rule"

/-- Whether there is room for the window through which a text is looked at. -/
def hasRoom (l : Language) : Bool :=
  Window.fits l.itemSize l.grammar.pragmas.lookahead

/-- The events of the derivation of a text from a rule.  Without room for the window nothing comes
back. -/
def derive (l : Language) (text : String) (root : RuleKey) (fuel : Nat) :
    Option (Except Failure (List Event)) :=
  if l.hasRoom then l.machine.search (l.items text) l.grammar.pragmas.lookahead root fuel
  else none

/-- The events of the derivation of a text; nothing comes back if the fuel does not suffice, or if
there is no room. -/
def trace (l : Language) (text : String) (start : Option String) (fuel : Nat) :
    Option (Except Error (List Event)) :=
  match l.startRule? start with
  | none => some (.error noStartRule)
  | some root => (l.derive text root fuel).map fun r => r.mapError (l.errorOf text)

/-- The tree of a derivation.  Its nodes are made linked, and where they cannot be, there is none. -/
def treeOf (l : Language) (text : String) (root : RuleKey) (events : List Event) :
    Except Error Tree :=
  match LinkedTree.ofEvents l.rules root events with
  | .error e => .error e
  | .ok _ => (Tree.ofEvents l.rules root events).mapError (l.errorOf text)

/-- The tree of a text; nothing comes back if the fuel does not suffice, or if there is no room. -/
def parse (l : Language) (text : String) (start : Option String) (fuel : Nat) :
    Option (Except Error Tree) :=
  match l.startRule? start with
  | none => some (.error noStartRule)
  | some root =>
    (l.derive text root fuel).map fun r =>
      match r with
      | .error f => .error (l.errorOf text f)
      | .ok events => l.treeOf text root events

/-- The linked tree of a text; nothing comes back if the fuel does not suffice, or if there is no
room. -/
def parseLinked (l : Language) (text : String) (start : Option String) (fuel : Nat) :
    Option (Except Error LinkedTree) :=
  match l.startRule? start with
  | none => some (.error noStartRule)
  | some root =>
    (l.derive text root fuel).map fun r =>
      match r with
      | .error f => .error (l.errorOf text f)
      | .ok events => LinkedTree.ofEvents l.rules root events

/-- The trees of several texts. -/
def parseAll (l : Language) (texts : List String) (fuel : Nat) :
    List (Option (Except Error Tree)) :=
  texts.map fun text => l.parse text none fuel

/-- Where there is room, deriving is searching. -/
theorem derive_eq {l : Language} (h : l.hasRoom = true) (text : String) (root : RuleKey)
    (fuel : Nat) : l.derive text root fuel =
      l.machine.search (l.items text) l.grammar.pragmas.lookahead root fuel :=
  if_pos h

theorem derive_of_no_room {l : Language} (h : l.hasRoom = false) (text : String) (root : RuleKey)
    (fuel : Nat) : l.derive text root fuel = none := by
  simp [derive, h]

/-- What comes back of a derivation was searched for where there is room. -/
theorem search_of_derive {l : Language} {text : String} {root : RuleKey} {fuel : Nat}
    {r : Except Failure (List Event)} (h : l.derive text root fuel = some r) :
    l.hasRoom = true ∧
      l.machine.search (l.items text) l.grammar.pragmas.lookahead root fuel = some r := by
  cases hroom : l.hasRoom with
  | false =>
    rw [derive_of_no_room hroom] at h
    cases h
  | true => exact ⟨rfl, derive_eq hroom text root fuel ▸ h⟩

/-- A tree that comes back is that of the events, which can be linked. -/
theorem ofEvents_of_treeOf {l : Language} {text : String} {root : RuleKey} {events : List Event}
    {t : Tree} (h : l.treeOf text root events = .ok t) :
    Tree.ofEvents l.rules root events = .ok t ∧
      ∃ u, LinkedTree.ofEvents l.rules root events = .ok u := by
  unfold treeOf at h
  rcases hu : LinkedTree.ofEvents l.rules root events with e | u
  · rw [hu] at h
    cases h
  · rw [hu] at h
    rcases ht : Tree.ofEvents l.rules root events with f | t'
    · rw [ht] at h
      cases h
    · rw [ht] at h
      cases h
      exact ⟨rfl, u, rfl⟩

private theorem derive_mono (l : Language) {text : String} {root : RuleKey} {fuel more : Nat}
    {r : Except Failure (List Event)} (h : l.derive text root fuel = some r) (hle : fuel ≤ more) :
    l.derive text root more = some r := by
  obtain ⟨hroom, h⟩ := search_of_derive h
  rw [derive_eq hroom]
  unfold Machine.search at h ⊢
  split at h
  · exact h
  · obtain ⟨a, ha, rfl⟩ := Option.map_eq_some_iff.1 h
    rw [Machine.run_mono _ ha hle]
    rfl

/-- A parse that has ended does not change with more steps. -/
theorem parse_mono (l : Language) {text : String} {start : Option String} {fuel more : Nat}
    {r : Except Error Tree} (h : l.parse text start fuel = some r) (hle : fuel ≤ more) :
    l.parse text start more = some r := by
  unfold parse at h ⊢
  split at h
  · exact h
  · obtain ⟨a, ha, rfl⟩ := Option.map_eq_some_iff.1 h
    rw [derive_mono l ha hle]
    rfl

end Language

end Descent
