import Descent.Proofs.Rule.Invariant
import Descent.Proofs.Tree.Bracketed
import Descent.Proofs.Tree.Leaves

/-!
# Nodes of trees

Where no name of a node asks for a merge, the tree of a derivation can be read off the derivation: a
declared rule wraps what is made inside its use in a node, if it or a part of its body that was entered
inside has a name for one.  A use in which nothing happened makes nothing.

Main results:

- `Derivation.gathered` says what is made of a derivation, and `Derivation.node?` which node the use of
  a declared rule makes of what is inside it.
- `Builder.pushes_linearize`: reading the events of a derivation makes just this.
- `Derivation.nodes_gathered`: the nodes made of a derivation are those of the uses of rules in it, in
  order.
- `Derivation.leaves_of_node?`: the node of a use holds the leaves of the tokens kept inside it.
-/

namespace Descent

/-- Whether a name of a node asks for a merge with the neighbour before it. -/
def NodeId.merges (n : NodeId) : Bool :=
  n.mergesShallow || n.mergesDeep

/-! ## What is gathered -/

/-- Trees in order, and the name for a node that came last with them. -/
structure Gathered where
  trees : List Tree
  name : Option NodeId

namespace Gathered

/-- Neither trees nor a name. -/
def nothing : Gathered :=
  ⟨[], none⟩

/-- What is gathered one after the other. -/
def andThen (a b : Gathered) : Gathered :=
  ⟨a.trees ++ b.trees, b.name.or a.name⟩

/-- The leaf of a token, if it is kept. -/
def ofToken (t : MatchedToken) : Gathered :=
  ⟨if t.kept then [.leaf (Builder.leafOf t)] else [], none⟩

@[simp]
theorem andThen_nothing (a : Gathered) : a.andThen nothing = a := by
  simp [andThen, nothing]

end Gathered

/-- The name of the node that a use of a declared rule makes, if it makes one: the last one from inside,
or the rule's own. -/
def Rule.nodeName? (r : Rule) (inside : Gathered) : Option NodeId :=
  if r.transitional then none else (inside.name.or r.nodeId).or r.defaultId

/-- The node that a use of a rule makes of what is inside it, if it makes one. -/
def Rule.node? (r : Rule) (inside : Gathered) : Option Tree :=
  (r.nodeName? inside).map fun id => .node (r.nodeId.getD id).id none inside.trees

/-- What a use of a rule makes of what is inside it.  Names go on from the parts of a body to the
declared rule around them. -/
def Rule.gather (r : Rule) (inside : Gathered) : Gathered :=
  if r.transitional then ⟨inside.trees, inside.name.or r.nodeId⟩
  else ⟨(r.node? inside).elim inside.trees fun t => [t], none⟩

/-- What a use of the rule of a key makes of what is inside it. -/
def Machine.gather (m : Machine) (key : RuleKey) (inside : Gathered) : Gathered :=
  (m.rules.get? key).elim inside fun r => r.gather inside

namespace Derivation

/-- What a derivation consists of. -/
def parts : Derivation → List Derivation
  | token _ _ => []
  | concatenation _ parts | repetition _ parts => parts
  | choice _ _ part => [part]

mutual

/-- What is made of a derivation. -/
def gathered (m : Machine) : Derivation → Gathered
  | token key t => .ofToken (m.matched key t)
  | concatenation key parts | repetition key parts =>
    if parts.isEmpty then .nothing else m.gather key (gatheredAll m parts)
  | choice key _ part => m.gather key (gathered m part)

/-- What is made of some derivations one after the other. -/
def gatheredAll (m : Machine) : List Derivation → Gathered
  | [] => .nothing
  | d :: rest => (gathered m d).andThen (gatheredAll m rest)

end

mutual

/-- The uses of rules in a derivation, each before those inside it. -/
def uses : Derivation → List Derivation
  | token key t => [token key t]
  | concatenation key parts => concatenation key parts :: usesAll parts
  | choice key index part => choice key index part :: uses part
  | repetition key parts => repetition key parts :: usesAll parts

/-- The uses of rules in some derivations. -/
def usesAll : List Derivation → List Derivation
  | [] => []
  | d :: rest => uses d ++ usesAll rest

end

/-- The node that is made of the use of a declared rule, if there is one: a use in which nothing
happened makes none. -/
def node? (m : Machine) (d : Derivation) : Option Tree :=
  if d.parts.isEmpty then none
  else (m.rules.get? d.rule).bind fun r => r.node? (gatheredAll m d.parts)

end Derivation

/-! ## Reading makes what is gathered -/

namespace Builder

/-- A block of what waits that consists of trees and names.  Whatever waits before it, what is taken
from inside a rule takes all of it along. -/
structure Stacks (block : List Waiting) (g : Gathered) : Prop where
  takeInside : ∀ rule acc name rest, takeInside rule acc name (block ++ rest) =
    takeInside rule (g.trees ++ acc) (name.or g.name) rest
  trees : ∀ rest, trees (block ++ rest) = trees rest ++ g.trees
  separate : ∀ n, g.name = some n → n.merges = false

theorem stacks_nil : Stacks [] .nothing := by
  refine ⟨fun rule acc name rest => ?_, fun rest => ?_, fun n hn => by cases hn⟩
  · simp [Gathered.nothing]
  · simp [Gathered.nothing]

theorem stacks_tree (t : Tree) : Stacks [.tree t] ⟨[t], none⟩ := by
  refine ⟨fun rule acc name rest => ?_, fun rest => by simp, fun n hn => by cases hn⟩
  rw [List.singleton_append, Builder.takeInside, Option.or_none]
  rfl

theorem stacks_name {n : NodeId} (hn : n.merges = false) : Stacks [.name n] ⟨[], some n⟩ := by
  refine ⟨fun rule acc name rest => rfl, fun rest => by simp, ?_⟩
  intro k hk
  cases hk
  exact hn

/-- What is pushed later lies on top. -/
theorem Stacks.andThen {x y : List Waiting} {a b : Gathered} (hx : Stacks x a) (hy : Stacks y b) :
    Stacks (y ++ x) (a.andThen b) := by
  refine ⟨fun rule acc name rest => ?_, fun rest => ?_, fun n hn => ?_⟩
  · rw [List.append_assoc, hy.takeInside, hx.takeInside, Option.or_assoc, ← List.append_assoc]
    rfl
  · rw [List.append_assoc, hy.trees, hx.trees, List.append_assoc]
    rfl
  · rcases Option.or_eq_some_iff.1 hn with hlast | ⟨-, hfirst⟩
    · exact hy.separate n hlast
    · exact hx.separate n hfirst

theorem stacks_trees (ts : List Tree) : Stacks (ts.reverse.map Waiting.tree) ⟨ts, none⟩ := by
  induction ts with
  | nil => exact stacks_nil
  | cons t ts ih =>
    have h := (stacks_tree t).andThen ih
    rw [List.reverse_cons, List.map_append]
    exact h

end Builder

/-- What reading events needs of the rule of a key: a declared rule knows the name that it is entered
under, and no name of a node asks for a merge. -/
structure Rule.Separate (key : RuleKey) (r : Rule) : Prop where
  name_eq : r.transitional = false → r.name = key
  nodeId : ∀ n, r.nodeId = some n → n.merges = false
  defaultId : ∀ n, r.defaultId = some n → n.merges = false

/-- Compiling keeps it where no name of a node asks for a merge. -/
theorem ruleInvariant_separate {kinds : List String} :
    RuleInvariant kinds Rule.Separate fun id => (NodeId.ofString id).merges = false := by
  refine ⟨fun n body _ => ⟨?_, ?_, ?_⟩, ?_, ?_⟩
  · intro hdeclared
    cases hdeclared
  · intro n hn
    cases hn
  · intro n hn
    cases hn
  · intro n r id hr hid
    refine ⟨hr.name_eq, fun n hn => ?_, hr.defaultId⟩
    cases hn
    exact hid
  · intro n r key body hr hkey
    refine ⟨fun _ => rfl, hr.nodeId, fun n hn => ?_⟩
    unfold Rule.declared at hn
    dsimp only at hn
    split at hn
    · rename_i hmarked
      cases hn
      exact hkey hmarked
    · exact hr.defaultId n hn

namespace Builder

variable {rules : RuleTable} {key : RuleKey} {r : Rule} {inside : Gathered} {block : List Waiting}

theorem mergeIntoLast?_of_not_merges {id : NodeId} (h : id.merges = false) (ts : List Tree)
    (waiting : List Waiting) : mergeIntoLast? id ts waiting = none := by
  rcases Bool.or_eq_false_iff.1 h with ⟨hshallow, hdeep⟩
  unfold mergeIntoLast?
  split
  · rw [hshallow, hdeep]
    simp
  · rfl

/-- The end of a declared rule puts what it makes in the place of what waits inside it. -/
theorem exists_close (hrules : rules.All Rule.Separate) (hr : rules.get? key = some r)
    (hdeclared : r.transitional = false)
    (hinside : Stacks block ⟨inside.trees, inside.name.or r.nodeId⟩) (rest : List Waiting) :
    ∃ block', Stacks block' (r.gather inside) ∧
      close r (block ++ .mark key :: rest) = block' ++ rest := by
  have htaken : takeInside r.name [] none (block ++ .mark key :: rest) =
      (inside.trees, inside.name.or r.nodeId, rest) := by
    rw [hinside.takeInside, takeInside, if_pos ((hrules.get? hr).name_eq hdeclared).symm, Option.none_or,
      List.append_nil]
  unfold close
  rw [htaken]
  dsimp only
  unfold Rule.gather Rule.node? Rule.nodeName?
  rw [hdeclared]
  simp only [Bool.false_eq_true, if_false]
  rcases hid : (inside.name.or r.nodeId).or r.defaultId with _ | id
  · exact ⟨_, stacks_trees inside.trees, rfl⟩
  · have hseparate : id.merges = false := by
      rcases Option.or_eq_some_iff.1 hid with hfirst | ⟨-, hsecond⟩
      · exact hinside.separate id hfirst
      · exact (hrules.get? hr).defaultId id hsecond
    refine ⟨_, stacks_tree _, ?_⟩
    dsimp only
    rw [mergeIntoLast?_of_not_merges hseparate]
    rfl

/-- Events that are read whatever comes after them, and that push what is gathered. -/
def Pushes (rules : RuleTable) (events : List Event) (g : Gathered) : Prop :=
  ∀ b : Builder, ∃ block, Stacks block g ∧ ∀ more,
    readEvents rules false b (events ++ more) =
      readEvents rules false ⟨block ++ b.waiting, b.opened⟩ more

theorem pushes_nil : Pushes rules [] .nothing :=
  fun _ => ⟨[], stacks_nil, fun _ => rfl⟩

theorem pushes_token (t : MatchedToken) : Pushes rules [.token t] (.ofToken t) := by
  intro b
  by_cases hkept : t.kept = true
  · refine ⟨[.tree (.leaf (leafOf t))], ?_, fun more => ?_⟩
    · rw [Gathered.ofToken, if_pos hkept]
      exact stacks_tree _
    · rw [List.singleton_append, readEvents, if_neg Bool.false_ne_true, addToken, if_pos hkept]
      rfl
  · refine ⟨[], ?_, fun more => ?_⟩
    · rw [Gathered.ofToken, if_neg hkept]
      exact stacks_nil
    · rw [List.singleton_append, readEvents, if_neg Bool.false_ne_true, addToken, if_neg hkept]
      rfl

theorem Pushes.andThen {es fs : List Event} {a b : Gathered} (ha : Pushes rules es a)
    (hb : Pushes rules fs b) : Pushes rules (es ++ fs) (a.andThen b) := by
  intro start
  rcases ha start with ⟨x, hx, hread⟩
  rcases hb ⟨x ++ start.waiting, start.opened⟩ with ⟨y, hy, hread'⟩
  refine ⟨y ++ x, hx.andThen hy, fun more => ?_⟩
  rw [List.append_assoc, hread, hread', List.append_assoc]

/-- A use in which nothing happened pushes nothing. -/
theorem pushes_empty {c c' : Call} (hsame : c'.rule = c.rule) {depth depth' : Int}
    {left left' : Todo} :
    Pushes rules [.enter c depth left, .leave c' depth' left'] .nothing := by
  intro b
  refine ⟨[], stacks_nil, fun more => ?_⟩
  have hleaves : leavesNext c.rule (.leave c' depth' left' :: more) = true := by
    rw [leavesNext, hsame, beq_self_eq_true]
  show readEvents rules false b (.enter c depth left :: .leave c' depth' left' :: more) = _
  rw [readEvents, if_neg Bool.false_ne_true, if_pos hleaves, readEvents, if_pos rfl]
  rfl

/-- The name that a rule has for its node, as it waits. -/
def ownName (r : Rule) : List Waiting :=
  (r.nodeId.map Waiting.name).toList

theorem waiting_beginRule (r : Rule) (c : Call) (b : Builder) :
    (b.beginRule r c).waiting =
      ownName r ++ if c.transitional then b.waiting else .mark c.rule :: b.waiting := by
  unfold beginRule ownName
  cases r.nodeId <;> rfl

theorem opened_beginRule (r : Rule) (c : Call) (b : Builder) :
    (b.beginRule r c).opened = (r, c.transitional) :: b.opened :=
  rfl

theorem readEvents_leave (waiting : List Waiting) (r : Rule) (transitional : Bool)
    (opened : List (Rule × Bool)) (c : Call) (depth : Int) (left : Todo) (more : List Event) :
    readEvents rules false ⟨waiting, (r, transitional) :: opened⟩ (.leave c depth left :: more) =
      readEvents rules false ⟨if transitional then waiting else close r waiting, opened⟩ more :=
  rfl

/-- The name of a rule lies below what is pushed inside it. -/
theorem stacks_ownName (hrules : rules.All Rule.Separate) (hr : rules.get? key = some r)
    (h : Stacks block inside) :
    Stacks (block ++ ownName r) ⟨inside.trees, inside.name.or r.nodeId⟩ := by
  unfold ownName
  rcases hid : r.nodeId with _ | n
  · rw [Option.or_none, Option.map_none, Option.toList_none, List.append_nil]
    exact h
  · exact (stacks_name ((hrules.get? hr).nodeId n hid)).andThen h

/-- A use of a rule pushes what the rule makes of what is inside. -/
theorem Pushes.use {m : Machine} (hrules : m.rules.All Rule.Separate) (hr : m.rules.get? key = some r)
    {es : List Event} (hes : Bracketed m.rules es) (hne : es ≠ []) (h : Pushes m.rules es inside)
    (data data' : Nat) (depth depth' : Int) (left left' : Todo) :
    Pushes m.rules (.enter (m.use key data) depth left ::
      (es ++ [.leave (m.use key data') depth' left'])) (m.gather key inside) := by
  intro b
  have htransitional : (m.use key data).transitional = r.transitional := by
    rw [Machine.use, Machine.isTransitional, hr]
  rcases h (b.beginRule r (m.use key data)) with ⟨block, hblock, hinside⟩
  have hstacks := stacks_ownName hrules hr hblock
  have hread (more : List Event) : readEvents m.rules false b
      (.enter (m.use key data) depth left :: (es ++ [.leave (m.use key data') depth' left']) ++ more) =
      readEvents m.rules false
        ⟨if r.transitional then block ++ ownName r ++ b.waiting
          else close r (block ++ ownName r ++ .mark key :: b.waiting), b.opened⟩ more := by
    have henter : (m.use key data).rule = key := rfl
    rw [List.cons_append, List.append_assoc, List.singleton_append, readEvents,
      if_neg Bool.false_ne_true, leavesNext_of_bracketed hes hne, if_neg Bool.false_ne_true, henter, hr]
    dsimp only
    rw [hinside, opened_beginRule, readEvents_leave, waiting_beginRule, htransitional, henter]
    cases r.transitional <;> simp
  have hgather : m.gather key inside = r.gather inside := by
    rw [Machine.gather, hr]
    rfl
  rw [hgather]
  rcases hdeclared : r.transitional with _ | _
  · -- a declared rule is closed
    rcases exists_close hrules hr hdeclared hstacks b.waiting with ⟨block', hblock', hclose⟩
    refine ⟨block', hblock', fun more => ?_⟩
    rw [hread, hdeclared, ← hclose]
    rfl
  · -- a part of a body leaves all that is inside
    refine ⟨block ++ ownName r, ?_, fun more => ?_⟩
    · rw [Rule.gather, hdeclared]
      exact hstacks
    · rw [hread, hdeclared]
      rfl

end Builder

/-! ## Events of derivations -/

namespace Derivation

variable {m : Machine} {ds : List Derivation} {depth : Int} {es : List Event}

open Builder

private theorem InTurn.pushes (hes : InTurn m depth ds es)
    (h : ∀ d ∈ ds, ∀ todo, Pushes m.rules (d.linearize m depth todo) (d.gathered m)) :
    Pushes m.rules es (gatheredAll m ds) := by
  induction hes with
  | nil => exact pushes_nil
  | cons todo _ ih =>
    exact (h _ List.mem_cons_self todo).andThen (ih fun e he => h e (List.mem_cons_of_mem _ he))

/-- Reading the events of a derivation pushes what is made of it. -/
theorem pushes_linearize (hrules : m.rules.All Rule.Separate) {d : Derivation} (h : m.Fits d) (depth : Int)
    (todo : Todo) : Pushes m.rules (d.linearize m depth todo) (d.gathered m) := by
  induction h generalizing depth todo with
  | token => exact pushes_token _
  | @concatenation key r children parts hr hbody hmap hparts ih =>
    rw [gathered]
    cases parts with
    | nil =>
      apply pushes_empty
      rfl
    | cons d ds =>
      have hturn := inTurn_linearizeAll (m := m) (d :: ds) (m.depthInside key depth)
        (todo.push (.leave (m.use key 0) false))
      exact Pushes.use hrules hr (hturn.bracketed fun d hd => bracketed_linearize (hparts d hd) _)
        hturn.ne_nil (hturn.pushes fun d hd => ih d hd _) _ _ _ _ _ _
  | choice hr hbody hrule hpart ih =>
    exact Pushes.use hrules hr (bracketed_linearize hpart _ _) (linearize_ne_nil _ _ _) (ih _ _) _ _ _ _
      _ _
  | @repetition key r bounds child parts hr hbody hmap hmin hmax hparts ih =>
    rw [gathered]
    cases parts with
    | nil =>
      apply pushes_empty
      rfl
    | cons d ds =>
      have hturn := inTurn_linearizeTimes (m := m) (d :: ds) key (m.depthInside key depth) todo 0
      exact Pushes.use hrules hr (hturn.bracketed fun d hd => bracketed_linearize (hparts d hd) _)
        hturn.ne_nil (hturn.pushes fun d hd => ih d hd _) _ _ _ _ _ _

end Derivation

namespace Tree

/-- The events of a derivation make one tree of all that is made of it. -/
theorem ofEvents_linearize {m : Machine} (hrules : m.rules.All Rule.Separate) {d : Derivation}
    (h : m.Fits d) (root : RuleKey) (depth : Int) (todo : Todo) :
    ofEvents m.rules root (d.linearize m depth todo) =
      ofTrees m.rules root (d.gathered m).trees := by
  rcases d.pushes_linearize hrules h depth todo ⟨[], []⟩ with ⟨block, hblock, hread⟩
  have hall : Builder.readEvents m.rules false ⟨[], []⟩ (d.linearize m depth todo) =
      .ok ⟨block ++ [], []⟩ := by
    rw [← List.append_nil (d.linearize m depth todo), hread]
    rfl
  have htrees : Builder.trees (block ++ []) = (d.gathered m).trees := hblock.trees []
  unfold ofEvents
  rw [hall]
  dsimp only
  rw [htrees]
  rfl

/-! ## Nodes -/

mutual

/-- The nodes that are no leaves, each before those below it. -/
def nodes : Tree → List Tree
  | node id none children => node id none children :: nodesAll children
  | node _ (some _) children => nodesAll children

/-- The nodes of some trees that are no leaves. -/
def nodesAll : List Tree → List Tree
  | [] => []
  | t :: rest => nodes t ++ nodesAll rest

end

@[simp]
theorem nodesAll_append (ts us : List Tree) :
    nodesAll (ts ++ us) = nodesAll ts ++ nodesAll us := by
  induction ts with
  | nil => rfl
  | cons t ts ih => simp [nodesAll, ih]

/-- A tree of some trees is the only one of them, or has one more node, on top of them. -/
theorem nodes_of_ofTrees {rules : RuleTable} {root : RuleKey} {ts : List Tree} {t : Tree}
    (h : ofTrees rules root ts = .ok t) :
    t.nodes = (if ts.length = 1 then [] else [t]) ++ nodesAll ts := by
  unfold ofTrees at h
  split at h
  · cases h
    simp [nodesAll]
  · rename_i hmany
    have hlength : ts.length ≠ 1 := by
      intro hone
      rcases List.length_eq_one_iff.1 hone with ⟨u, rfl⟩
      exact hmany u rfl
    rw [if_neg hlength]
    split at h
    · cases h
    · cases h
      rfl

end Tree

namespace Derivation

variable {m : Machine} {d : Derivation}

/-- A use of a rule in which something happened makes what its rule makes of what is inside. -/
theorem gathered_of_parts (hparts : d.parts ≠ []) :
    d.gathered m = m.gather d.rule (gatheredAll m d.parts) := by
  cases d with
  | token key t => exact absurd rfl hparts
  | concatenation key parts | repetition key parts => exact if_neg (mt List.isEmpty_iff.1 hparts)
  | choice key index part => simp [gathered, gatheredAll, parts]

theorem uses_eq (d : Derivation) : d.uses = d :: usesAll d.parts := by
  cases d <;> simp [uses, usesAll, parts]

theorem mem_usesAll {u : Derivation} {ds : List Derivation} :
    u ∈ usesAll ds ↔ ∃ d ∈ ds, u ∈ d.uses := by
  induction ds with
  | nil => simp [usesAll]
  | cons d ds ih => simp [usesAll, ih]

theorem node?_of_parts (hparts : d.parts ≠ []) :
    d.node? m = (m.rules.get? d.rule).bind fun r => r.node? (gatheredAll m d.parts) := by
  rw [node?, if_neg (mt List.isEmpty_iff.1 hparts)]

/-- Induction over derivations by what they consist of. -/
theorem induct_parts {motive : Derivation → Prop}
    (step : ∀ d, (∀ part ∈ d.parts, motive part) → motive d) (d : Derivation) : motive d := by
  induction d with
  | token rule t => exact step _ fun part hpart => by cases hpart
  | concatenation rule parts ih => exact step _ ih
  | choice rule index part ih => exact step _ fun p hp => by rwa [List.mem_singleton.1 hp]
  | repetition rule parts ih => exact step _ ih

end Derivation

namespace Machine

variable {m : Machine}

theorem Fits.parts {d : Derivation} (h : m.Fits d) : ∀ part ∈ d.parts, m.Fits part := by
  cases h with
  | token => exact fun part hpart => absurd hpart List.not_mem_nil
  | concatenation _ _ _ hparts => exact hparts
  | choice _ _ _ hpart =>
    intro part hmem
    rw [List.mem_singleton.1 hmem]
    exact hpart
  | repetition _ _ _ _ _ hparts => exact hparts

/-- Every use of a rule in a derivation is as the body of its rule allows. -/
theorem Fits.of_mem_uses {d u : Derivation} (h : m.Fits d) (hu : u ∈ d.uses) : m.Fits u := by
  induction d using Derivation.induct_parts with
  | step d ih =>
    rw [d.uses_eq] at hu
    rcases List.mem_cons.1 hu with rfl | hu
    · exact h
    · rcases Derivation.mem_usesAll.1 hu with ⟨part, hpart, hu⟩
      exact ih part hpart (h.parts part hpart) hu

end Machine

namespace Rule

/-- The node of a use of a rule comes before those inside it. -/
theorem nodesAll_gather (r : Rule) (inside : Gathered) :
    Tree.nodesAll (r.gather inside).trees = (r.node? inside).toList ++ Tree.nodesAll inside.trees := by
  unfold gather node? nodeName?
  split
  · rfl
  · cases (inside.name.or r.nodeId).or r.defaultId <;> simp [Tree.nodesAll, Tree.nodes]

/-- Making a node moves no leaf. -/
theorem leavesAll_gather (r : Rule) (inside : Gathered) :
    Tree.leavesAll (r.gather inside).trees = Tree.leavesAll inside.trees := by
  unfold gather node? nodeName?
  split
  · rfl
  · cases (inside.name.or r.nodeId).or r.defaultId <;> simp [Tree.leavesAll, Tree.leaves]

end Rule

namespace Derivation

variable {m : Machine} {ds : List Derivation}

private theorem nodesAll_gatheredAll
    (h : ∀ d ∈ ds, Tree.nodesAll (d.gathered m).trees = d.uses.filterMap (node? m)) :
    Tree.nodesAll (gatheredAll m ds).trees = (usesAll ds).filterMap (node? m) := by
  induction ds with
  | nil => rfl
  | cons d ds ih =>
    rw [gatheredAll, usesAll, List.filterMap_append, ← h d List.mem_cons_self,
      ← ih fun e he => h e (List.mem_cons_of_mem _ he)]
    exact Tree.nodesAll_append _ _

/-- The nodes made of a derivation are those of the uses of rules in it, in order. -/
theorem nodes_gathered (d : Derivation) :
    Tree.nodesAll (d.gathered m).trees = d.uses.filterMap (node? m) := by
  induction d using induct_parts with
  | step d ih =>
    have hinside := nodesAll_gatheredAll ih
    rw [uses_eq, List.filterMap_cons]
    by_cases hparts : d.parts = []
    · -- a token, or a use in which nothing happened
      have hnone : d.node? m = none := by
        rw [node?, hparts]
        rfl
      rw [hnone, hparts]
      cases d with
      | token key t =>
        show Tree.nodesAll (Gathered.ofToken _).trees = []
        unfold Gathered.ofToken
        split <;> rfl
      | concatenation key parts | repetition key parts =>
        cases hparts
        rfl
      | choice key index part => cases hparts
    · rw [gathered_of_parts hparts, node?_of_parts hparts, ← hinside]
      unfold Machine.gather
      cases m.rules.get? d.rule with
      | none => rfl
      | some r =>
        show Tree.nodesAll (r.gather (gatheredAll m d.parts)).trees = _
        rw [r.nodesAll_gather, Option.bind_some]
        cases r.node? (gatheredAll m d.parts) <;> rfl

/-- The leaves of the tokens that are kept in a derivation. -/
def keptLeaves (m : Machine) (d : Derivation) : List LeafToken :=
  ((d.leaves.map fun l => m.matched l.1 l.2).filter MatchedToken.kept).map Builder.leafOf

private theorem leavesAll_gatheredAll
    (h : ∀ d ∈ ds, Tree.leavesAll (d.gathered m).trees = d.keptLeaves m) :
    Tree.leavesAll (gatheredAll m ds).trees = ds.flatMap (keptLeaves m) := by
  induction ds with
  | nil => rfl
  | cons d ds ih =>
    rw [List.flatMap_cons, ← h d List.mem_cons_self,
      ← ih fun e he => h e (List.mem_cons_of_mem _ he)]
    exact Tree.leavesAll_append _ _

theorem leavesAll_eq_flatMap (ds : List Derivation) : leavesAll ds = ds.flatMap leaves := by
  induction ds with
  | nil => rfl
  | cons d ds ih => rw [leavesAll, ih, List.flatMap_cons]

theorem keptLeaves_of_parts {d : Derivation} (hparts : d.parts ≠ []) :
    d.keptLeaves m = d.parts.flatMap (keptLeaves m) := by
  have hleaves : d.leaves = d.parts.flatMap leaves := by
    cases d with
    | token key t => exact absurd rfl hparts
    | concatenation key parts | repetition key parts => exact leavesAll_eq_flatMap parts
    | choice key index part => simp [leaves, parts]
  unfold keptLeaves
  rw [hleaves]
  simp only [List.map_flatMap, List.filter_flatMap]

/-- What is made of a derivation has the leaves of the tokens that are kept in it. -/
theorem leaves_gathered (d : Derivation) :
    Tree.leavesAll (d.gathered m).trees = d.keptLeaves m := by
  induction d using induct_parts with
  | step d ih =>
    by_cases hparts : d.parts = []
    · cases d with
      | token key t =>
        show Tree.leavesAll (Gathered.ofToken _).trees = _
        unfold Gathered.ofToken keptLeaves leaves
        rcases hkept : (m.matched key t).kept with _ | _ <;>
          simp [hkept, Tree.leavesAll, Tree.leaf, Tree.leaves]
      | concatenation key parts | repetition key parts =>
        cases hparts
        rfl
      | choice key index part => cases hparts
    · rw [gathered_of_parts hparts, keptLeaves_of_parts hparts, ← leavesAll_gatheredAll ih]
      unfold Machine.gather
      cases m.rules.get? d.rule with
      | none => rfl
      | some r => exact r.leavesAll_gather _

/-- The node of a use holds the leaves of the tokens that are kept inside the use. -/
theorem leaves_of_node? {d : Derivation} {t : Tree} (h : d.node? m = some t) :
    t.leaves = d.keptLeaves m := by
  have hparts : d.parts ≠ [] := by
    intro hnone
    rw [node?, hnone] at h
    cases h
  rw [node?_of_parts hparts] at h
  rcases Option.bind_eq_some_iff.1 h with ⟨r, -, hnode⟩
  rcases Option.map_eq_some_iff.1 hnode with ⟨id, -, rfl⟩
  rw [keptLeaves_of_parts hparts, ← leavesAll_gatheredAll fun e _ => e.leaves_gathered]
  simp [Tree.leaves]

end Derivation

end Descent
