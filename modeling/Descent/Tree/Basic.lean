import Descent.Text.Quoted
import Descent.Token.Basic

/-!
# Trees

The result of a parse is a tree of named nodes.  Tokens are leaves with a name of their own.

Main results:

- `Tree.mergeShallow` and `Tree.mergeDeep` take further nodes into a tree.
- `Tree.render` shows a tree, one node a line, each as deep as it lies.
- `Place` is a node with the nodes above it, so that one can go up as well as down.
- `Tree.places` lists the places of a tree, each before those below it.
-/

namespace Descent

/-- The token of a leaf. -/
structure LeafToken where
  kind : String
  text : String
  space : String
  deriving DecidableEq, Repr

/-- A node with its name, its token if it is a leaf, and the trees below it in order. -/
inductive Tree where
  | node (id : String) (token : Option LeafToken) (children : List Tree)
  deriving Repr

namespace Tree

/-- The name of the leaves. -/
def leafId : String :=
  "token"

/-- The leaf of a token. -/
def leaf (t : LeafToken) : Tree :=
  node leafId (some t) []

/-- The name of the node on top. -/
def id : Tree → String
  | node id _ _ => id

/-- The token of the node on top. -/
def token : Tree → Option LeafToken
  | node _ token _ => token

/-- The trees below the node on top. -/
def children : Tree → List Tree
  | node _ _ children => children

/-- Whether the node on top has the name of a leaf. -/
def isLeaf (t : Tree) : Bool :=
  t.id == leafId

@[simp]
theorem id_node (id : String) (token : Option LeafToken) (cs : List Tree) :
    (node id token cs).id = id :=
  rfl

@[simp]
theorem children_node (id : String) (token : Option LeafToken) (cs : List Tree) :
    (node id token cs).children = cs :=
  rfl

@[simp]
theorem id_leaf (t : LeafToken) : (leaf t).id = leafId :=
  rfl

mutual

/-- The number of nodes. -/
def size : Tree → Nat
  | node _ _ children => sizeAll children + 1

/-- The number of nodes of some trees. -/
def sizeAll : List Tree → Nat
  | [] => 0
  | t :: rest => size t + sizeAll rest

end

mutual

/-- The tokens of the leaves from left to right. -/
def leaves : Tree → List LeafToken
  | node _ token children => token.toList ++ leavesAll children

/-- The tokens of the leaves of some trees from left to right. -/
def leavesAll : List Tree → List LeafToken
  | [] => []
  | t :: rest => leaves t ++ leavesAll rest

end

/-! ## Merging -/

/-- Adds trees after those below the node on top. -/
def mergeShallow (t : Tree) (further : List Tree) : Tree :=
  match t with
  | node id token children => node id token (children ++ further)

mutual

/-- Takes a further tree into one: its parts go into the last child if that has the same name, and
else the tree itself becomes the last child. -/
def mergeDeep (t : Tree) : Tree → Tree
  | node id token children =>
    if id == leafId then t.mergeShallow [node id token children]
    else
      match t.children.getLast? with
      | none => t.mergeShallow [node id token children]
      | some last =>
        if last.id == id then
          node t.id t.token (t.children.dropLast ++ [mergeDeepAll last children])
        else t.mergeShallow [node id token children]

/-- Takes further trees into one, one after the other. -/
def mergeDeepAll (t : Tree) : List Tree → Tree
  | [] => t
  | c :: rest => mergeDeepAll (mergeDeep t c) rest

end

/-! ## Showing -/

/-- The line of a node: its name, and for a leaf the namespace unless it is the one that texts start
in, the kind and the text of its token. -/
def label (t : Tree) : String :=
  match t.token with
  | none => t.id
  | some v =>
    let qualified := if v.space == defaultSpace then v.kind else v.space ++ ":" ++ v.kind
    t.id ++ "(" ++ qualified ++ ", " ++ v.text ++ ")"

/-- A line at a depth. -/
def renderLine (depth : Nat) (text : String) : String :=
  String.join (List.replicate depth ">  ") ++ text ++ "\n"

mutual

/-- Shows a tree whose top lies at a depth. -/
def renderAt (depth : Nat) : Tree → String
  | node id token children =>
    renderLine depth (node id token children).label ++ renderAll (depth + 1) children

/-- Shows trees whose tops lie at a depth. -/
def renderAll (depth : Nat) : List Tree → String
  | [] => ""
  | t :: rest => renderAt depth t ++ renderAll depth rest

end

/-- Shows a tree, one node a line. -/
def render (t : Tree) : String :=
  t.renderAt 1

/-- Describes the node on top: its name, its token and the number of its children. -/
def describe (t : Tree) : String :=
  let value := match t.token with
    | none => "None"
    | some v => "Some(TokenValue \x7b kind: " ++ Text.quoted v.kind ++ ", text: " ++
        Text.quoted v.text ++ ", namespace: " ++ Text.quoted v.space ++ " \x7d)"
  "TreeNode \x7b id: " ++ Text.quoted t.id ++ ", value: " ++ value ++ ", children: " ++
    toString t.children.length ++ " \x7d"

end Tree

/-! ## Places -/

/-- A node of a tree with the nodes above it, the nearest first. -/
structure Place where
  tree : Tree
  above : List Tree

namespace Place

/-- The place of the node on top of a tree. -/
def root (t : Tree) : Place :=
  ⟨t, []⟩

/-- The place of a child. -/
def child? (p : Place) (i : Nat) : Option Place :=
  p.tree.children[i]?.map fun t => ⟨t, p.tree :: p.above⟩

/-- The place that a list of numbers of children leads to. -/
def follow? (p : Place) : List Nat → Option Place
  | [] => some p
  | i :: rest =>
    match p.child? i with
    | none => none
    | some c => c.follow? rest

/-- The place above. -/
def parent? (p : Place) : Option Place :=
  match p.above with
  | [] => none
  | t :: rest => some ⟨t, rest⟩

/-- The number of places above. -/
def depth (p : Place) : Nat :=
  p.above.length

theorem parent?_of_child? {p c : Place} {i : Nat} (h : p.child? i = some c) :
    c.parent? = some p := by
  obtain ⟨t, _, rfl⟩ := Option.map_eq_some_iff.1 h
  rfl

theorem depth_of_child? {p c : Place} {i : Nat} (h : p.child? i = some c) :
    c.depth = p.depth + 1 := by
  obtain ⟨t, _, rfl⟩ := Option.map_eq_some_iff.1 h
  rfl

end Place

namespace Tree

mutual

/-- The places of a tree below some nodes, each before those below it. -/
def placesBelow (above : List Tree) : Tree → List Place
  | node id token children =>
    ⟨node id token children, above⟩ :: placesBelowAll (node id token children :: above) children

/-- The places of some trees below some nodes. -/
def placesBelowAll (above : List Tree) : List Tree → List Place
  | [] => []
  | t :: rest => placesBelow above t ++ placesBelowAll above rest

end

/-- The places of a tree, each before those below it. -/
def places (t : Tree) : List Place :=
  t.placesBelow []

end Tree

end Descent
