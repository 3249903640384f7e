import Descent.Error
import Descent.Token.Lexicon

/-!
# Rules

A rule matches one token, several rules one after the other, one of several rules, or one rule
repeatedly.  Rules refer to each other by key: declared rules by name, and the parts of their
bodies by number.

Main results:

- `Rule.children` lists the keys a rule refers to.
- `Rule.transitional` tells the parts of bodies, which have no text of their own.
- `Bounds.ofInts` checks the bounds of a repetition.
-/

namespace Descent

/-- What a rule is referred to by. -/
inductive RuleKey where
  /-- A declared rule. -/
  | named (name : String)
  /-- A part of the body of a declared rule. -/
  | part (number : Nat)
  deriving DecidableEq, Repr

namespace RuleKey

/-- Shows a key. -/
def render : RuleKey → String
  | named name => name
  | part number => toString number

/-- Whether a key is that of a declared rule. -/
def isNamed : RuleKey → Bool
  | named _ => true
  | part _ => false

theorem part_ne_named (number : Nat) (name : String) : part number ≠ named name := by
  intro h
  cases h

end RuleKey

/-! ## Names of nodes -/

/-- The name of a tree node, and letters that say how the node is joined with its neighbour. -/
structure NodeId where
  id : String
  options : List Char
  deriving DecidableEq, Repr

namespace NodeId

/-- Reads a name; letters follow its first colon. -/
def ofString (raw : String) : NodeId :=
  match splitColon? raw with
  | some (id, options) => ⟨id, options.toList⟩
  | none => ⟨raw, []⟩

/-- Shows a name as it is written; a colon without letters is left out. -/
def render (n : NodeId) : String :=
  if n.options.isEmpty then n.id else n.id ++ ":" ++ String.ofList n.options

/-- Whether the children of a node go to the neighbour before it that has the same name. -/
def mergesShallow (n : NodeId) : Bool :=
  n.options.contains 'M'

/-- Whether a node is merged with the neighbour before it that has the same name, level by level. -/
def mergesDeep (n : NodeId) : Bool :=
  n.options.contains 'm'

end NodeId

/-! ## Repetition -/

/-- How often a rule may be repeated: at least `min` times and, if there is a greatest number, at
most `max` times. -/
structure Bounds where
  min : Nat
  max : Option Nat
  min_le_max : ∀ m, max = some m → min ≤ m
  deriving DecidableEq, Repr

namespace Bounds

/-- Bounds of two numbers in order. -/
def of? (min : Nat) (max : Option Nat) : Option Bounds :=
  match max with
  | none => some ⟨min, none, by simp⟩
  | some m => if h : min ≤ m then some ⟨min, some m, by simpa using h⟩ else none

/-- Reads bounds: a least number below zero counts as zero, and a greatest number below zero as
none.  Bounds out of order come back as they count. -/
def ofInts (min max : Int) : Except Error Bounds :=
  let min := Max.max min 0
  let max := Max.max max (-1)
  match of? min.toNat (if max < 0 then none else some max.toNat) with
  | some b => .ok b
  | none => .error (.bounds min max)

/-- Whether there is no greatest number. -/
def isUnbounded (b : Bounds) : Bool :=
  b.max.isNone

/-- Whether a number of passes is not above the greatest. -/
def admits (b : Bounds) (n : Nat) : Bool :=
  match b.max with
  | none => true
  | some m => n ≤ m

theorem admits_min (b : Bounds) : b.admits b.min = true := by
  unfold admits
  split
  · rfl
  · rename_i m h
    simpa using b.min_le_max m h

theorem admits_of_le {b : Bounds} {n k : Nat} (h : b.admits n = true) (hle : k ≤ n) :
    b.admits k = true := by
  unfold admits at h ⊢
  split
  · rfl
  · rename_i top htop
    rw [htop] at h
    simp only [decide_eq_true_eq] at h ⊢
    omega

end Bounds

/-! ## Rules -/

/-- What a rule matches. -/
inductive RuleBody where
  /-- One token of a kind; those of one invocation with the same index have to be equal. -/
  | token (kind : String) (unification : Option Nat) (kept : Bool)
  | concatenation (children : List RuleKey)
  | choice (children : List RuleKey)
  | repetition (bounds : Bounds) (child : RuleKey)
  deriving DecidableEq, Repr

namespace RuleBody

/-- Whether a body offers alternatives. -/
def isChoice : RuleBody → Bool
  | choice _ => true
  | _ => false

/-- Whether a body repeats a rule. -/
def isRepetition : RuleBody → Bool
  | repetition _ _ => true
  | _ => false

end RuleBody

/-- A rule with the names of its nodes, and its text if it is a declared one. -/
structure Rule where
  name : RuleKey
  body : RuleBody
  nodeId : Option NodeId
  /-- The name of the node if nothing inside names it. -/
  defaultId : Option NodeId
  representation : Option String
  deriving DecidableEq, Repr

namespace Rule

/-- A part of a body, with neither names nor text. -/
def ofBody (name : RuleKey) (body : RuleBody) : Rule :=
  ⟨name, body, none, none, none⟩

/-- Whether a rule is only a part of another one's body. -/
def transitional (r : Rule) : Bool :=
  r.representation.isNone

/-- The keys a rule refers to. -/
def children (r : Rule) : List RuleKey :=
  match r.body with
  | .token _ _ _ => []
  | .concatenation children | .choice children => children
  | .repetition _ child => [child]

@[simp]
theorem transitional_ofBody (name : RuleKey) (body : RuleBody) :
    (ofBody name body).transitional = true :=
  rfl

end Rule

/-! ## Tables of rules -/

/-- Rules by key, in order of first appearance. -/
abbrev RuleTable := OrderedMap RuleKey Rule

namespace RuleTable

/-- The first declared rule. -/
def root? (rules : RuleTable) : Option RuleKey :=
  rules.keys.find? (·.isNamed)

/-- A declared rule by name. -/
def named? (rules : RuleTable) (name : String) : Option Rule :=
  rules.get? (.named name)

end RuleTable

end Descent
