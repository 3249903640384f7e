import Descent.Search.State
import Descent.Tree.Basic

/-!
# Trees of derivations

The events of a derivation are read once.  Kept tokens become leaves.  Where a declared rule is
left, what was made inside it is wrapped in a node if the rule, or a part of its body that was
entered, has a name for one; otherwise it stays where it is.  A rule in which nothing happened
leaves nothing behind.

Main results:

- `Builder.close` ends a declared rule.
- `Tree.ofEvents` makes the tree of a derivation.
-/

namespace Descent

/-- What waits to become part of a node. -/
inductive Waiting where
  | tree (t : Tree)
  /-- The beginning of a declared rule. -/
  | mark (rule : RuleKey)
  /-- A name for the node of the innermost declared rule. -/
  | name (n : NodeId)

/-- The trees and names made so far, the last one first, and the rules that are open, the innermost
first, each with whether it is only a part of another one's body. -/
structure Builder where
  waiting : List Waiting
  opened : List (Rule × Bool)

namespace Builder

/-- What waits after the beginning of a rule: the trees in order, the name that came last, and what
waits before it. -/
def takeInside (rule : RuleKey) (trees : List Tree) (name : Option NodeId) :
    List Waiting → List Tree × Option NodeId × List Waiting
  | [] => (trees, name, [])
  | .tree t :: rest => takeInside rule (t :: trees) name rest
  | .name n :: rest => takeInside rule trees (name.or (some n)) rest
  | .mark r :: rest => if r = rule then (trees, name, rest) else takeInside rule trees name rest

/-- Takes trees into the tree that waits last, if that has the given name. -/
def mergeIntoLast? (id : NodeId) (trees : List Tree) : List Waiting → Option (List Waiting)
  | .tree last :: rest =>
    if last.id = id.id then
      if id.mergesShallow then some (.tree (last.mergeShallow trees) :: rest)
      else if id.mergesDeep then some (.tree (last.mergeDeepAll trees) :: rest)
      else none
    else none
  | _ => none

/-- Ends a declared rule: its trees are wrapped in a node, joined with the tree before, or left as
they are. -/
def close (r : Rule) (waiting : List Waiting) : List Waiting :=
  let (trees, name, rest) := takeInside r.name [] none waiting
  match name.or r.defaultId with
  | none => trees.reverse.map Waiting.tree ++ rest
  | some id =>
    match mergeIntoLast? id trees rest with
    | some waiting => waiting
    | none => .tree (.node (r.nodeId.getD id).id none trees) :: rest

/-- Begins a rule. -/
def beginRule (r : Rule) (call : Call) (b : Builder) : Builder :=
  let marked := if call.transitional then b.waiting else .mark call.rule :: b.waiting
  let named := match r.nodeId with
    | some n => .name n :: marked
    | none => marked
  ⟨named, (r, call.transitional) :: b.opened⟩

/-- Ends the innermost open rule. -/
def endRule (b : Builder) : Except Failure Builder :=
  match b.opened with
  | [] => .error (.internal "trace exits a rule it never entered")
  | (r, transitional) :: rest =>
    .ok ⟨if transitional then b.waiting else close r b.waiting, rest⟩

/-- Adds the leaf of a token, if it is kept. -/
def addToken (t : MatchedToken) (b : Builder) : Builder :=
  if t.kept then { b with waiting := .tree (.leaf ⟨t.kind, t.value, t.space⟩) :: b.waiting }
  else b

/-- Whether the events begin by leaving a rule. -/
def leavesNext (rule : RuleKey) : List Event → Bool
  | .leave c _ _ :: _ => c.rule == rule
  | _ => false

/-- Reads events; with `skipping`, the first one ends a rule in which nothing happened. -/
def readEvents (rules : RuleTable) (skipping : Bool) (b : Builder) :
    List Event → Except Failure Builder
  | [] => .ok b
  | e :: rest =>
    if skipping then readEvents rules false b rest
    else
      match e with
      | .token t => readEvents rules false (b.addToken t) rest
      | .leave _ _ _ =>
        match b.endRule with
        | .error f => .error f
        | .ok b => readEvents rules false b rest
      | .enter c _ _ =>
        if leavesNext c.rule rest then readEvents rules true b rest
        else
          match rules.get? c.rule with
          | none => .error (.internal ("trace refers to unknown rule " ++ c.rule.render))
          | some r => readEvents rules false (b.beginRule r c) rest

/-- The trees that wait, in order. -/
def trees (waiting : List Waiting) : List Tree :=
  (waiting.filterMap fun w => match w with
    | .tree t => some t
    | _ => none).reverse

end Builder

namespace Tree

/-- One tree of the trees that a start rule makes: the only one, or a node around all of them. -/
def ofTrees (rules : RuleTable) (root : RuleKey) : List Tree → Except Failure Tree
  | [t] => .ok t
  | ts =>
    match rules.get? root with
    | none => .error (.internal ("trace refers to unknown rule " ++ root.render))
    | some r =>
      let id := match r.nodeId.or r.defaultId with
        | some n => n.id
        | none => "#" ++ root.render
      .ok (.node id none ts)

/-- The tree of the events of a derivation from a start rule. -/
def ofEvents (rules : RuleTable) (root : RuleKey) (events : List Event) : Except Failure Tree :=
  match Builder.readEvents rules false ⟨[], []⟩ events with
  | .error f => .error f
  | .ok b =>
    if b.opened.isEmpty then ofTrees rules root (Builder.trees b.waiting)
    else .error (.internal ("trace leaves " ++ toString b.opened.length ++ " rule(s) open"))

end Tree

end Descent
