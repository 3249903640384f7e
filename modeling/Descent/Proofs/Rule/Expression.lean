import Descent.Rule.Compilation

/-!
# Rule bodies as expressions

A body read by the grammar of bodies is a regular expression over the kinds of tokens and the calls
of rules.  Groups only say how it is read, and the names of nodes say nothing about what it matches.

Main results:

- `Expression.Matches` says which kinds of tokens an expression matches, one after the other.
- `Reads` reads signs by the grammar of bodies, and `ReadsBody` the text of a body.
-/

namespace Descent

/-- A regular expression over kinds of tokens and calls of rules. -/
inductive Expression where
  | token (kind : String)
  | call (name : String)
  | seq (a b : Expression)
  | alt (a b : Expression)
  | repeated (a : Expression) (bounds : Bounds)
  deriving DecidableEq, Repr

namespace Expression

/-- The kinds of tokens that an expression matches, one after the other, when a call of a rule
matches what the expression of the rule does. -/
inductive Matches (defs : String → Expression) : Expression → List String → Prop
  | token (kind : String) : Matches defs (.token kind) [kind]
  | call {name : String} {ks : List String} (h : Matches defs (defs name) ks) :
      Matches defs (.call name) ks
  | seq {a b : Expression} {ks ls : List String} (ha : Matches defs a ks)
      (hb : Matches defs b ls) : Matches defs (.seq a b) (ks ++ ls)
  | altLeft {a : Expression} (b : Expression) {ks : List String} (ha : Matches defs a ks) :
      Matches defs (.alt a b) ks
  | altRight (a : Expression) {b : Expression} {ks : List String} (hb : Matches defs b ks) :
      Matches defs (.alt a b) ks
  | repeated {a : Expression} {bounds : Bounds} {passes : List (List String)}
      (hmin : bounds.min ≤ passes.length) (hmax : bounds.admits passes.length = true)
      (h : ∀ ks ∈ passes, Matches defs a ks) : Matches defs (.repeated a bounds) passes.flatten

end Expression

/-! ## The grammar of bodies -/

/-- What the grammar of bodies has rules for. -/
inductive BodyPart where
  | choice
  | concatenation
  | repetition
  | simple
  deriving DecidableEq, Repr

/-- The sign of the name of a node, if there is one. -/
def nodeSigns : Option String → List Sign
  | some id => [.node id]
  | none => []

/-- Reads signs by the grammar of bodies, with the kinds of tokens and the names of rules that are
declared.  The bounds of a repetition are in order. -/
inductive Reads (kinds names : List String) : BodyPart → List Sign → Expression → Prop
  | lastBranch {ss : List Sign} {e : Expression} (h : Reads kinds names .concatenation ss e) :
      Reads kinds names .choice ss e
  | branch {ss ts : List Sign} {a b : Expression} (ha : Reads kinds names .concatenation ss a)
      (hb : Reads kinds names .choice ts b) :
      Reads kinds names .choice (ss ++ .bar :: ts) (.alt a b)
  | lastPart {ss : List Sign} {e : Expression} (h : Reads kinds names .repetition ss e) :
      Reads kinds names .concatenation ss e
  | part {ss ts : List Sign} {a b : Expression} (ha : Reads kinds names .repetition ss a)
      (hb : Reads kinds names .concatenation ts b) :
      Reads kinds names .concatenation (ss ++ ts) (.seq a b)
  | once {ss : List Sign} {e : Expression} (node : Option String)
      (h : Reads kinds names .simple ss e) :
      Reads kinds names .repetition (ss ++ nodeSigns node) e
  | repeated {ss : List Sign} {e : Expression} (bounds : Bounds) (node : Option String)
      (h : Reads kinds names .simple ss e) :
      Reads kinds names .repetition
        (ss ++ .quantifier (some (bounds.min, bounds.max)) :: nodeSigns node)
        (.repeated e bounds)
  | group {ss : List Sign} {e : Expression} (h : Reads kinds names .choice ss e) :
      Reads kinds names .simple (.opening :: (ss ++ [.closing])) e
  | token {kind : String} (index : Option Nat) (kept : Bool) (hkind : kind ∈ kinds) :
      Reads kinds names .simple [.token (some (kind, index)) kept] (.token kind)
  | call {name : String} (hname : name ∈ names) :
      Reads kinds names .simple [.call name] (.call name)

/-- Reads the text of a body: its signs are those of alternatives, and nothing comes after them. -/
def ReadsBody (kinds names : List String) (body : String) (e : Expression) : Prop :=
  ∃ (ss : List Sign) (ws : List WrittenSign), signsOf body = ws.map Except.ok ∧
    ws.map WrittenSign.sign = ss ++ [.ending] ∧ Reads kinds names .choice ss e

/-- Whether a part begins with a sign. -/
def Sign.begins : Sign → Bool
  | opening | token _ _ | call _ => true
  | _ => false

/-- Whether a sign stands behind a whole sequence. -/
def Sign.ends : Sign → Bool
  | bar | closing | ending => true
  | _ => false

/-- Whether a sign says nothing about the part before it. -/
def Sign.separate : Sign → Bool
  | quantifier _ | node _ => false
  | _ => true

theorem Sign.separate_of_begins {sign : Sign} (h : sign.begins = true) : sign.separate = true := by
  cases sign <;> first | rfl | cases h

theorem Sign.separate_of_ends {sign : Sign} (h : sign.ends = true) : sign.separate = true := by
  cases sign <;> first | rfl | cases h

end Descent
