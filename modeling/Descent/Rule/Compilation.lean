import Descent.Collection.Lookahead
import Descent.Grammar.Basic
import Descent.Rule.Sign

/-!
# Compiling rule bodies

A body is alternatives of sequences of repetitions.  Each part that is more than a reference to
one rule gets a rule of its own; the rule of the whole body is then moved to the declared name.

A name of a node belongs to the sequence it is written in.  A sequence with such a name, or whose
surroundings have one waiting, is never replaced by its only part, so that there is a rule for the
name to be attached to.

Main results:

- `Compilation.choice` compiles alternatives; the other functions compile what is inside them.
- `Grammar.rules` compiles all bodies of a grammar, or names what is wrong with the first bad one.
-/

namespace Descent

/-- What the body of a rule may refer to, and the rule's name for errors. -/
structure BodyScope where
  /-- The kinds of tokens declared in any namespace. -/
  kinds : List String
  /-- The names of the declared rules. -/
  names : List String
  rule : String
  deriving Repr

/-- The rules made so far, the number of the next part, and the signs still to be read. -/
structure Compilation where
  rules : RuleTable
  counter : Nat
  cursor : Lookahead (Except LexError WrittenSign)
  deriving Repr

/-- The name of a node that waits for the sequence it belongs to. -/
abbrev Pending := Option String

/-- A part that was compiled, or none where no part begins; the waiting name; and what is left. -/
abbrev Compiled := Except GrammarError (Option RuleKey × Pending × Compilation)

namespace Compilation

/-- Moves to the next sign. -/
def advance (c : Compilation) : Compilation :=
  { c with cursor := c.cursor.advance }

/-- Makes a rule of a part's body, under the next number. -/
def addPart (c : Compilation) (body : RuleBody) : RuleKey × Compilation :=
  let key := RuleKey.part c.counter
  (key, { c with rules := c.rules.insert key (.ofBody key body), counter := c.counter + 1 })

/-- The current sign; past the end there is only the ending. -/
def current (s : BodyScope) (c : Compilation) : Except GrammarError WrittenSign :=
  match c.cursor.current with
  | some (.ok w) => .ok w
  | some (.error e) => .error (.malformedBody s.rule e.message)
  | none => .ok ⟨.ending, endingKind⟩

/-- Attaches the name of a node to a part; declared rules keep the names they have. -/
def nameNode (c : Compilation) (key : RuleKey) (id : String) : Compilation :=
  match key, c.rules.get? key with
  | .part _, some r =>
    { c with rules := c.rules.insert key { r with nodeId := some (.ofString id) } }
  | _, _ => c

/-- Attaches the name that waits, if there is one. -/
def nameWaiting (c : Compilation) (key : RuleKey) : Pending → Compilation
  | some id => c.nameNode key id
  | none => c

/-- Makes the rule of a reference to a token. -/
def reference (s : BodyScope) (c : Compilation) (ref : Option (String × Option Nat)) (kept : Bool)
    (written : String) : Except GrammarError (RuleKey × Compilation) :=
  match ref with
  | none => .error (.malformedToken written s.rule)
  | some (kind, index) =>
    if s.kinds.contains kind then .ok (c.addPart (.token kind index kept))
    else .error (.unknownToken written s.rule)

/-- Whether the current sign is the first of the body, and the ending comes next. -/
def isWholeBody (c : Compilation) : Bool :=
  c.cursor.key == 0 &&
    match c.cursor.peek with
    | some (.ok w) => w.sign = .ending
    | _ => false

/-- Compiles a call of a declared rule; a body that is nothing else becomes a sequence of it. -/
def call (s : BodyScope) (c : Compilation) (name : String) :
    Except GrammarError (RuleKey × Compilation) :=
  if s.names.contains name then
    if c.isWholeBody then .ok (c.advance.addPart (.concatenation [.named name]))
    else .ok (.named name, c.advance)
  else .error (.unknownRule name s.rule)

/-- Reads the mark of repetition that may follow a part: its bounds, or none. -/
def quantifier (s : BodyScope) (c : Compilation) :
    Except GrammarError (Option (Nat × Option Nat) × Compilation) :=
  match c.current s with
  | .error e => .error e
  | .ok w =>
    match w.sign with
    | .quantifier (some bounds) => .ok (some bounds, c.advance)
    | .quantifier none =>
      .error (.malformedBody s.rule ("Invalid bound in \"" ++ w.written ++ "\"."))
    | _ => .ok (none, c)

/-- Reads the name of a node that may follow a part; it waits from now on. -/
def nodeMark (s : BodyScope) (c : Compilation) (pending : Pending) :
    Except GrammarError (Pending × Compilation) :=
  match c.current s with
  | .error e => .error e
  | .ok w =>
    match w.sign with
    | .node id => .ok (some id, c.advance)
    | _ => .ok (pending, c)

/-- Repeats a part within bounds, if there are any. -/
def repeatPart (s : BodyScope) (c : Compilation) (child : RuleKey) :
    Option (Nat × Option Nat) → Except GrammarError (RuleKey × Compilation)
  | none => .ok (child, c)
  | some (min, max) =>
    match Bounds.of? min max with
    | some bounds => .ok (c.addPart (.repetition bounds child))
    | none => .error (.invalidBounds min (max.getD 0) s.rule)

/-- What follows a part: a mark of repetition and the name of a node, each of which may be
missing. -/
def afterPart (s : BodyScope) (c : Compilation) (child : RuleKey) (pending : Pending) : Compiled :=
  match c.quantifier s with
  | .error e => .error e
  | .ok (bounds, c) =>
    match c.nodeMark s pending with
    | .error e => .error e
    | .ok (pending, c) =>
      match c.repeatPart s child bounds with
      | .error e => .error e
      | .ok (key, c) => .ok (some key, pending, c)

/-- The rule of a sequence: a single part stands for itself unless a name waits. -/
def sequence (c : Compilation) (children : List RuleKey) (pending : Pending) :
    RuleKey × Compilation :=
  match children, pending with
  | [key], none => (key, c)
  | _, _ => c.addPart (.concatenation children)

/-- The rule of alternatives: a single one stands for itself. -/
def alternatives (c : Compilation) (children : List RuleKey) : RuleKey × Compilation :=
  match children with
  | [key] => (key, c)
  | _ => c.addPart (.choice children)

mutual

/-- Compiles alternatives with bars between them; `done` holds those before, the last one first.
Each alternative starts with the name that waits, and none waits after all of them. -/
def choice (s : BodyScope) (pending : Pending) :
    (fuel : Nat) → (done : List RuleKey) → Compilation → Compiled
  | 0, _, c => .ok (none, pending, c)
  | fuel + 1, done, c =>
    match concatenation s fuel [] pending c with
    | .error e => .error e
    | .ok (none, _, c) => .ok (none, pending, c)
    | .ok (some key, branchId, c) =>
      let c := c.nameWaiting key branchId
      match c.current s with
      | .error e => .error e
      | .ok w =>
        if w.sign = .bar then choice s pending fuel (key :: done) c.advance
        else
          let (key, c) := c.alternatives (key :: done).reverse
          .ok (some key, none, c)

/-- Compiles a sequence of at least one part; `done` holds those before, the last one first. -/
def concatenation (s : BodyScope) :
    (fuel : Nat) → (done : List RuleKey) → Pending → Compilation → Compiled
  | 0, _, pending, c => .ok (none, pending, c)
  | fuel + 1, done, pending, c =>
    match simple s fuel pending c with
    | .error e => .error e
    | .ok (some child, pending, c) =>
      match c.afterPart s child pending with
      | .error e => .error e
      | .ok (some key, pending, c) => concatenation s fuel (key :: done) pending c
      | .ok (none, pending, c) => .ok (none, pending, c)
    | .ok (none, pending, c) =>
      match done with
      | [] => .ok (none, pending, c)
      | _ =>
        let (key, c) := c.sequence done.reverse pending
        .ok (some key, pending, c)

/-- Compiles a part: a group in parentheses, a reference to a token, or a call.  A group that does
not go through is no part; what was read of it stays read. -/
def simple (s : BodyScope) : (fuel : Nat) → Pending → Compilation → Compiled
  | 0, pending, c => .ok (none, pending, c)
  | fuel + 1, pending, c =>
    match c.current s with
    | .error e => .error e
    | .ok w =>
      match w.sign with
      | .opening =>
        match choice s pending fuel [] c.advance with
        | .error e => .error e
        | .ok (none, pending, c) => .ok (none, pending, c)
        | .ok (some key, pending, c) =>
          match c.current s with
          | .error e => .error e
          | .ok w =>
            if w.sign = .closing then .ok (some key, pending, c.advance)
            else .ok (none, pending, c)
      | .token ref kept =>
        match c.reference s ref kept w.written with
        | .error e => .error e
        | .ok (key, c) => .ok (some key, pending, c.advance)
      | .call name =>
        match c.call s name with
        | .error e => .error e
        | .ok (key, c) => .ok (some key, pending, c)
      | _ => .ok (none, pending, c)

end

end Compilation

/-! ## Declared rules -/

/-- The name of a declared rule without the mark that makes it a node. -/
def bareRuleName (key : String) : String :=
  match key.toList with
  | '#' :: rest => String.ofList rest
  | _ => key

/-- Whether the name of a declared rule carries the mark that makes it a node. -/
def isMarked (key : String) : Bool :=
  key.toList.head? == some '#'

namespace Compilation

/-- Everything of a body has to be read. -/
def expectEnd (s : BodyScope) (c : Compilation) : Except GrammarError Unit :=
  match c.current s with
  | .error e => .error e
  | .ok w =>
    if w.sign = .ending then .ok ()
    else .error (.malformedBody s.rule ("Unexpected \"" ++ w.written ++ "\"."))

/-- Moves the rule of a whole body to the declared name.  A body that only calls a rule, in
parentheses, becomes a sequence of it. -/
def declare (s : BodyScope) (rules : RuleTable) (top : RuleKey) (key body : String) :
    Except GrammarError RuleTable :=
  let name := bareRuleName key
  let finished (r : Rule) : Rule :=
    { r with
      name := .named name
      representation := some body
      defaultId := if isMarked key then some (.ofString key) else r.defaultId }
  match top with
  | .named _ =>
    .ok (rules.insert (.named name) (finished (.ofBody top (.concatenation [top]))))
  | .part _ =>
    match rules.get? top with
    | some r => .ok ((rules.erase top).insert (.named name) (finished r))
    | none => .error (.malformedBody s.rule "")

/-- Compiles the body of a declared rule after others.  Every call on the way down reads a sign or
is one of three in a row, which bounds the fuel. -/
def declareBody (s : BodyScope) (rules : RuleTable) (counter : Nat) (key body : String) :
    Except GrammarError (RuleTable × Nat) :=
  let signs := signsOf body
  match choice s (if isMarked key then some key else none) (4 * signs.length + 4) []
      ⟨rules, counter, .ofList signs⟩ with
  | .error e => .error e
  | .ok (none, _, _) => .error (.malformedBody s.rule "")
  | .ok (some top, _, c) =>
    match c.expectEnd s with
    | .error e => .error e
    | .ok () =>
      match declare s c.rules top key body with
      | .error e => .error e
      | .ok rules => .ok (rules, c.counter)

/-- Compiles the bodies of declared rules in order. -/
def declareBodies (kinds names : List String) (rules : RuleTable) (counter : Nat) :
    List (String × String) → Except GrammarError RuleTable
  | [] => .ok rules
  | (key, body) :: rest =>
    match declareBody ⟨kinds, names, bareRuleName key⟩ rules counter key body with
    | .error e => .error e
    | .ok (rules, counter) => declareBodies kinds names rules counter rest

end Compilation

namespace Grammar

/-- The kinds of tokens declared in any namespace. -/
def kinds (g : Grammar) : List String :=
  g.lexemes.values.flatMap fun lexemes => lexemes.keys.map fun key => (Lexeme.ofKey key).1

/-- The names of the declared rules without their marks. -/
def ruleNames (g : Grammar) : List String :=
  g.bodies.keys.map bareRuleName

/-- Compiles the rules of a grammar. -/
def rules (g : Grammar) : Except GrammarError RuleTable :=
  if g.bodies.isEmpty then .error .noRules
  else Compilation.declareBodies g.kinds g.ruleNames .empty 0 g.bodies.entries

end Grammar

end Descent
