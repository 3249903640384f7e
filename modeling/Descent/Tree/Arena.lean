import Descent.Tree.Build

/-!
# Linked nodes

The nodes of a tree are stored in one arena and refer to each other by their numbers in it: a node to its
children in order, and to its parent.  While a tree is built the nodes that wait have no parent yet.
Merging moves children from one node to another one.  Their parent links are set anew, but the node that
they are moved out of keeps its list of children and stays in the arena, where nothing leads to it any
more.

Main results:

- `Arena.alloc`, `Arena.append` and `Arena.mergeDeep` are the operations on an arena.
- `LinkedBuilder.close` ends a declared rule, and `LinkedTree.ofEvents` links the tree of a derivation.
- `LinkedTree.depth?` follows parent links, and `LinkedTree.render?` lists of children.
-/

namespace Descent

/-- A node with the numbers of its children and of its parent. -/
structure ArenaNode where
  id : String
  token : Option LeafToken
  children : List Nat
  parent : Option Nat
  deriving DecidableEq, Repr

/-- All nodes made so far, by number. -/
structure Arena where
  nodes : Array ArenaNode
  deriving Repr

namespace Arena

/-- No nodes. -/
def empty : Arena :=
  ⟨#[]⟩

/-- The node of a number. -/
def get? (a : Arena) (i : Nat) : Option ArenaNode :=
  a.nodes[i]?

/-- The name of a node. -/
def idAt (a : Arena) (i : Nat) : String :=
  ((a.get? i).map ArenaNode.id).getD ""

/-- The children of a node. -/
def childrenAt (a : Arena) (i : Nat) : List Nat :=
  ((a.get? i).map ArenaNode.children).getD []

/-- Makes a node without children and without a parent; its number has to fit into 32 bits. -/
def alloc (a : Arena) (id : String) (token : Option LeafToken) : Except Error (Nat × Arena) :=
  if maxNodes < a.nodes.size then .error .treeTooLarge
  else .ok (a.nodes.size, ⟨a.nodes.push ⟨id, token, [], none⟩⟩)

/-- Makes a node the last child of another one. -/
def append (a : Arena) (parent child : Nat) : Arena :=
  ⟨(a.nodes.modify parent fun n => { n with children := n.children ++ [child] }).modify child
    fun n => { n with parent := some parent }⟩

/-- Makes nodes the last children of another one, in order. -/
def appendAll (a : Arena) (parent : Nat) (children : List Nat) : Arena :=
  children.foldl (fun a child => a.append parent child) a

/-- Takes a further node into one: its children go into the last child if that has the same name, and
else the node itself becomes the last child.  The fuel bounds the way down. -/
def mergeDeep : (fuel : Nat) → Arena → (node further : Nat) → Arena
  | 0, a, _, _ => a
  | fuel + 1, a, node, further =>
    if a.idAt further == Tree.leafId then a.append node further
    else
      match (a.childrenAt node).getLast? with
      | none => a.append node further
      | some last =>
        if a.idAt last == a.idAt further then
          (a.childrenAt further).foldl (fun a child => mergeDeep fuel a last child) a
        else a.append node further

/-- Takes further nodes into one.  No way down is longer than there are nodes. -/
def mergeDeepAll (a : Arena) (node : Nat) (further : List Nat) : Arena :=
  further.foldl (fun b child => mergeDeep a.nodes.size b node child) a

end Arena

/-! ## Building -/

/-- What waits to become part of a node. -/
inductive Unplaced where
  | node (index : Nat)
  /-- The beginning of a declared rule. -/
  | mark (rule : RuleKey)
  /-- A name for the node of the innermost declared rule. -/
  | name (n : NodeId)
  deriving DecidableEq, Repr

/-- The nodes made so far, what waits, the last one first, and the rules that are open, the innermost
first, each with whether it is only a part of another one's body. -/
structure LinkedBuilder where
  arena : Arena
  pending : List Unplaced
  opened : List (Rule × Bool)

namespace LinkedBuilder

/-- What waits after the beginning of a rule: the nodes in order, the name that came last, and what
waits before it. -/
def takeInside (rule : RuleKey) (nodes : List Nat) (name : Option NodeId) :
    List Unplaced → List Nat × Option NodeId × List Unplaced
  | [] => (nodes, name, [])
  | .node i :: rest => takeInside rule (i :: nodes) name rest
  | .name n :: rest => takeInside rule nodes (name.or (some n)) rest
  | .mark r :: rest => if r = rule then (nodes, name, rest) else takeInside rule nodes name rest

/-- Takes nodes into the one that waits last, if that has the given name and the name asks for it. -/
def mergeIntoLast? (id : NodeId) (nodes : List Nat) (a : Arena) : List Unplaced → Option Arena
  | .node last :: _ =>
    if a.idAt last = id.id then
      if id.mergesShallow then some (a.appendAll last nodes)
      else if id.mergesDeep then some (a.mergeDeepAll last nodes)
      else none
    else none
  | _ => none

/-- Ends a declared rule: its nodes become the children of a new one, or of the one before, or are left
where they are. -/
def close (r : Rule) (a : Arena) (pending : List Unplaced) : Except Error (Arena × List Unplaced) :=
  let (nodes, name, rest) := takeInside r.name [] none pending
  match name.or r.defaultId with
  | none => .ok (a, nodes.reverse.map Unplaced.node ++ rest)
  | some id =>
    match mergeIntoLast? id nodes a rest with
    | some a => .ok (a, rest)
    | none =>
      match a.alloc (r.nodeId.getD id).id none with
      | .error e => .error e
      | .ok (i, a) => .ok (a.appendAll i nodes, .node i :: rest)

/-- Begins a rule. -/
def beginRule (r : Rule) (call : Call) (b : LinkedBuilder) : LinkedBuilder :=
  let marked := if call.transitional then b.pending else .mark call.rule :: b.pending
  let named := match r.nodeId with
    | some n => .name n :: marked
    | none => marked
  ⟨b.arena, named, (r, call.transitional) :: b.opened⟩

/-- Ends the innermost open rule. -/
def endRule (b : LinkedBuilder) : Except Error LinkedBuilder :=
  match b.opened with
  | [] => .error (.internal "trace exits a rule it never entered")
  | (r, transitional) :: rest =>
    if transitional then .ok ⟨b.arena, b.pending, rest⟩
    else
      match close r b.arena b.pending with
      | .error e => .error e
      | .ok (a, pending) => .ok ⟨a, pending, rest⟩

/-- Adds the leaf of a token, if it is kept. -/
def addToken (t : MatchedToken) (b : LinkedBuilder) : Except Error LinkedBuilder :=
  if t.kept then
    match b.arena.alloc Tree.leafId (some ⟨t.kind, t.value, t.space⟩) with
    | .error e => .error e
    | .ok (i, a) => .ok { b with arena := a, pending := .node i :: b.pending }
  else .ok b

/-- Reads events; with `skipping`, the first one ends a rule in which nothing happened. -/
def readEvents (rules : RuleTable) (skipping : Bool) (b : LinkedBuilder) :
    List Event → Except Error LinkedBuilder
  | [] => .ok b
  | e :: rest =>
    if skipping then readEvents rules false b rest
    else
      match e with
      | .token t =>
        match b.addToken t with
        | .error e => .error e
        | .ok b => readEvents rules false b rest
      | .leave _ _ _ =>
        match b.endRule with
        | .error e => .error e
        | .ok b => readEvents rules false b rest
      | .enter c _ _ =>
        if Builder.leavesNext c.rule rest then readEvents rules true b rest
        else
          match rules.get? c.rule with
          | none => .error (.internal ("trace refers to unknown rule " ++ c.rule.render))
          | some r => readEvents rules false (b.beginRule r c) rest

/-- The nodes that wait, in order. -/
def nodes (pending : List Unplaced) : List Nat :=
  (pending.filterMap fun w => match w with
    | .node i => some i
    | _ => none).reverse

end LinkedBuilder

/-! ## Linked trees -/

/-- An arena and the number of the node on top. -/
structure LinkedTree where
  arena : Arena
  root : Nat
  deriving Repr

namespace LinkedTree

/-- One tree of the nodes that a start rule makes: the only one is on top, or else a node of all of
them. -/
def ofNodes (rules : RuleTable) (root : RuleKey) (a : Arena) : List Nat → Except Error LinkedTree
  | [i] => .ok ⟨a, i⟩
  | is =>
    match rules.get? root with
    | none => .error (.internal ("trace refers to unknown rule " ++ root.render))
    | some r =>
      let id := match r.nodeId.or r.defaultId with
        | some n => n.id
        | none => "#" ++ root.render
      match a.alloc id none with
      | .error e => .error e
      | .ok (i, a) => .ok ⟨a.appendAll i is, i⟩

/-- The linked tree of the events of a derivation from a start rule. -/
def ofEvents (rules : RuleTable) (root : RuleKey) (events : List Event) : Except Error LinkedTree :=
  match LinkedBuilder.readEvents rules false ⟨.empty, [], []⟩ events with
  | .error e => .error e
  | .ok b =>
    if b.opened.isEmpty then ofNodes rules root b.arena (LinkedBuilder.nodes b.pending)
    else .error (.internal ("trace leaves " ++ toString b.opened.length ++ " rule(s) open"))

/-- The children of a node. -/
def children (t : LinkedTree) (i : Nat) : List Nat :=
  t.arena.childrenAt i

/-- The parent of a node. -/
def parent? (t : LinkedTree) (i : Nat) : Option Nat :=
  (t.arena.get? i).bind ArenaNode.parent

/-- The node that a list of numbers of children leads to from another one. -/
def follow? (t : LinkedTree) : (start : Nat) → List Nat → Option Nat
  | i, [] => some i
  | i, k :: rest =>
    match (t.children i)[k]? with
    | none => none
    | some c => follow? t c rest

/-- The nodes above one, the nearest first, found by parent links; nothing comes back if the fuel does
not suffice. -/
def ancestors? (t : LinkedTree) : (fuel : Nat) → Nat → Option (List Nat)
  | 0, _ => none
  | fuel + 1, i =>
    match t.parent? i with
    | none => some []
    | some p => (ancestors? t fuel p).map fun above => p :: above

/-- The number of nodes above one, if going up comes to an end: no node comes twice on the way. -/
def depth? (t : LinkedTree) (i : Nat) : Option Nat :=
  (t.ancestors? t.arena.nodes.size i).map List.length

/-- A node with the names of its children. -/
def view (t : LinkedTree) (i : Nat) : Tree :=
  .node (t.arena.idAt i) ((t.arena.get? i).bind ArenaNode.token)
    ((t.children i).map fun c => .node (t.arena.idAt c) none [])

/-- The lines of a node at a depth and of those below it; nothing comes back if the fuel does not
suffice. -/
def linesFrom? (t : LinkedTree) : (fuel depth : Nat) → Nat → Option (List String)
  | 0, _, _ => none
  | fuel + 1, depth, i =>
    ((t.children i).mapM fun c => linesFrom? t fuel (depth + 1) c).map fun below =>
      Tree.renderLine depth (t.view i).label :: below.flatten

/-- Shows a node and those below it, one a line, if going down comes to an end. -/
def renderFrom? (t : LinkedTree) (i : Nat) : Option String :=
  (t.linesFrom? t.arena.nodes.size 1 i).map String.join

/-- Shows a tree, one node a line. -/
def render? (t : LinkedTree) : Option String :=
  t.renderFrom? t.root

end LinkedTree

end Descent
