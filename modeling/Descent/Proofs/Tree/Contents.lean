import Descent.Proofs.Tree.Counted
import Descent.Proofs.Tree.MarkedNodes

/-!
# Trees by recursion

Where no name of a node asks for a merge, the tree of a text is defined by recursion on its derivation:
no stack of what waits is needed, and what belongs to one use of a rule has no part in another one.

Main results:

- `Derivation.partNames` lists the names of nodes that a declared rule may take from the parts of its body.
- `Derivation.contents` says what trees are made of a derivation, and `Derivation.tree` which single one.
- `Derivation.gathered_eq`: these are the trees that reading the events leaves waiting, and the name that
  waits is the last of those of parts.
- `Language.tree_of_trace`: the tree of a text is the one that is defined by recursion.
-/

namespace Descent

/-! ## Trees by recursion on a derivation -/

/-- The name of the node of a declared rule, if it has one, given the names of nodes of the parts of its
body that were entered: its own, or else the last one of those, or else the one by default. -/
def Rule.label? (r : Rule) (names : List NodeId) : Option NodeId :=
  (r.nodeId.or names.getLast?).or r.defaultId

namespace Machine

variable {m : Machine} {key : RuleKey}

/-- The names of nodes that the use of a rule leaves to the declared rule around it, given those inside
the use: a part of a body adds its own, and a declared rule leaves none. -/
def namesOf (m : Machine) (key : RuleKey) (inside : List NodeId) : List NodeId :=
  match m.rules.get? key with
  | none => inside
  | some r => if r.transitional then r.nodeId.toList ++ inside else []

/-- What the use of a rule makes of its contents, given the names of nodes of parts inside the use: a
declared rule wraps them in a node, if it has a name for one. -/
def wrap (m : Machine) (key : RuleKey) (names : List NodeId) (contents : List Tree) : List Tree :=
  match m.rules.get? key with
  | none => contents
  | some r =>
    if r.transitional then contents
    else
      match r.label? names with
      | some label => [.node label.id none contents]
      | none => contents

/-- The name of the node on top of several trees, or of none, that a start rule makes. -/
def topName (m : Machine) (root : RuleKey) : String :=
  match (m.rules.get? root).bind fun r => r.nodeId.or r.defaultId with
  | some n => n.id
  | none => "#" ++ root.render

end Machine

namespace Derivation

mutual

/-- The names of nodes of the parts of bodies that are entered in a derivation, in order: not of those
inside the use of a declared rule, nor of those in which nothing happened. -/
def partNames (m : Machine) : Derivation → List NodeId
  | token _ _ => []
  | concatenation key parts | repetition key parts =>
    if parts.isEmpty then [] else m.namesOf key (partNamesAll m parts)
  | choice key _ part => m.namesOf key (partNames m part)

/-- The names of nodes of the parts of bodies that are entered in some derivations. -/
def partNamesAll (m : Machine) : List Derivation → List NodeId
  | [] => []
  | d :: rest => partNames m d ++ partNamesAll m rest

end

mutual

/-- The trees made of a derivation: a token that is kept is a leaf, by whatever rule it is matched, and a
use of a rule in which nothing happened makes nothing. -/
def contents (m : Machine) : Derivation → List Tree
  | token key t => if (m.matched key t).kept then [.leaf (Builder.leafOf (m.matched key t))] else []
  | concatenation key parts | repetition key parts =>
    if parts.isEmpty then [] else m.wrap key (partNamesAll m parts) (contentsAll m parts)
  | choice key _ part => m.wrap key (partNames m part) (contents m part)

/-- The trees made of some derivations. -/
def contentsAll (m : Machine) : List Derivation → List Tree
  | [] => []
  | d :: rest => contents m d ++ contentsAll m rest

end

/-- The tree of a derivation: the only one made of it, or a node around all of them. -/
def tree (m : Machine) (d : Derivation) : Tree :=
  match d.contents m with
  | [t] => t
  | ts => .node (m.topName d.rule) none ts

variable {m : Machine} {ds : List Derivation} {d : Derivation}

theorem partNames_of_parts (hparts : d.parts ≠ []) :
    d.partNames m = m.namesOf d.rule (partNamesAll m d.parts) := by
  cases d with
  | token key t => exact absurd rfl hparts
  | concatenation key parts | repetition key parts => exact if_neg (mt List.isEmpty_iff.1 hparts)
  | choice key index part => simp [partNames, partNamesAll, parts, rule]

theorem contents_of_parts (hparts : d.parts ≠ []) :
    d.contents m = m.wrap d.rule (partNamesAll m d.parts) (contentsAll m d.parts) := by
  cases d with
  | token key t => exact absurd rfl hparts
  | concatenation key parts | repetition key parts => exact if_neg (mt List.isEmpty_iff.1 hparts)
  | choice key index part => simp [contents, contentsAll, partNamesAll, parts, rule]

end Derivation

/-! ## What waits -/

/-- A use of a rule makes the same of trees and the name that comes last as of the trees and all names. -/
theorem Machine.gather_eq (m : Machine) (key : RuleKey) (names : List NodeId) (ts : List Tree) :
    m.gather key ⟨ts, names.getLast?⟩ = ⟨m.wrap key names ts, (m.namesOf key names).getLast?⟩ := by
  unfold gather wrap namesOf
  rcases m.rules.get? key with _ | r
  · rfl
  · show r.gather _ = _
    unfold Rule.gather
    dsimp only
    rcases hdeclared : r.transitional with _ | _
    · -- The last name was noted last, but the own one is the label.
      unfold Rule.node? Rule.nodeName? Rule.label?
      rw [hdeclared]
      rcases r.nodeId with _ | n <;> rcases names.getLast? with _ | k <;> rcases r.defaultId with _ | i <;>
        rfl
    · rcases r.nodeId with _ | n <;> simp [List.getLast?_cons]

namespace Derivation

variable {m : Machine} {ds : List Derivation}

private theorem gatheredAll_eq
    (h : ∀ d ∈ ds, d.gathered m = ⟨d.contents m, (d.partNames m).getLast?⟩) :
    gatheredAll m ds = ⟨contentsAll m ds, (partNamesAll m ds).getLast?⟩ := by
  induction ds with
  | nil => rfl
  | cons d ds ih =>
    rw [gatheredAll, h d List.mem_cons_self, ih fun e he => h e (List.mem_cons_of_mem _ he), contentsAll,
      partNamesAll, List.getLast?_append]
    rfl

/-- What is gathered from a derivation are the trees made of it, with the last name of its parts. -/
theorem gathered_eq (d : Derivation) :
    d.gathered m = ⟨d.contents m, (d.partNames m).getLast?⟩ := by
  induction d using induct_parts with
  | step d ih =>
    by_cases hparts : d.parts = []
    · cases d with
      | token key t => rfl
      | concatenation key parts | repetition key parts =>
        cases hparts
        rfl
      | choice key index part => cases hparts
    · rw [gathered_of_parts hparts, gatheredAll_eq ih, m.gather_eq, contents_of_parts hparts,
        partNames_of_parts hparts]

end Derivation

theorem Machine.Fits.exists_rule {m : Machine} {d : Derivation} (h : m.Fits d) :
    ∃ r, m.rules.get? d.rule = some r := by
  cases h with
  | token hr | concatenation hr | choice hr | repetition hr => exact ⟨_, hr⟩

/-- Several trees, or none, get a node on top. -/
theorem Tree.ofTrees_of_many {m : Machine} {root : RuleKey} {r : Rule} {ts : List Tree}
    (hr : m.rules.get? root = some r) (h : ts.length ≠ 1) :
    ofTrees m.rules root ts = .ok (.node (m.topName root) none ts) := by
  unfold Machine.topName
  rw [hr]
  rcases ts with _ | ⟨t, _ | ⟨u, ts⟩⟩
  · simp only [ofTrees, hr]
    rfl
  · exact absurd rfl h
  · simp only [ofTrees, hr]
    rfl

/-- The trees that a start rule makes become the tree of its derivation. -/
theorem Tree.ofTrees_contents {m : Machine} {d : Derivation} (h : m.Fits d) :
    ofTrees m.rules d.rule (d.contents m) = .ok (d.tree m) := by
  rcases h.exists_rule with ⟨r, hr⟩
  unfold Derivation.tree
  rcases d.contents m with _ | ⟨t, _ | ⟨u, ts⟩⟩
  · exact ofTrees_of_many hr (by simp)
  · rfl
  · exact ofTrees_of_many hr (by simp)

/-! ## Trees of texts -/

namespace Grammar

variable {g : Grammar} {rules : RuleTable}

theorem separate_of_plain (h : g.rules = .ok rules) (hplain : rules.All fun _ r => r.Plain) :
    rules.All Rule.Separate := by
  intro e he
  exact ⟨fun _ => name_of_rules h e he, fun n hn => hplain e he n (.inl hn),
    fun n hn => hplain e he n (.inr hn)⟩

end Grammar

namespace Language

variable {H : Host} {g : Grammar} {l : Language} {text : String} {start : Option String} {fuel : Nat}
  {events : List Event} {root : RuleKey}

theorem parse_of_trace (hroot : l.startRule? start = some root)
    (htrace : l.trace text start fuel = some (.ok events)) :
    l.parse text start fuel = some (l.treeOf text root events) := by
  unfold trace at htrace
  unfold parse
  rw [hroot] at htrace ⊢
  rcases Option.map_eq_some_iff.1 htrace with ⟨r, hderive, hr⟩
  dsimp only
  rw [hderive]
  rcases r with f | events'
  · cases hr
  · cases hr
    rfl

/-- Where no name of a node asks for a merge, a tree is given just if it has not too many nodes. -/
theorem treeOf_of_plain {t : Tree} (hplain : l.rules.All fun _ r => r.Plain)
    (ht : Tree.ofEvents l.rules root events = .ok t) :
    l.treeOf text root events =
      if maxNodes + 1 < t.size then .error .treeTooLarge else .ok t := by
  have hcounted := LinkedTree.counted_ofEvents hplain ht
  unfold treeOf
  rw [ht]
  generalize LinkedTree.ofEvents l.rules root events = linked at hcounted ⊢
  cases hcounted with
  | tooLarge h => rw [if_pos h]
  | ok hsize hle =>
    rw [if_neg (Nat.not_lt.2 hle)]
    rfl

/-- Where no name of a node asks for a merge, reading the events of a text makes the tree that is defined
by recursion on the derivation, and so does a parse, unless there are too many nodes. -/
theorem tree_of_trace (hl : ofGrammar H g = .ok l) (hplain : l.rules.All fun _ r => r.Plain)
    (htrace : l.trace text start fuel = some (.ok events)) :
    ∃ d ts last, l.startRule? start = some d.rule ∧ l.Accounts text d.rule events d ts last ∧
      Tree.ofEvents l.rules d.rule events = .ok (d.tree l.machine) ∧
      l.parse text start fuel = some
        (if maxNodes + 1 < (d.tree l.machine).size then .error .treeTooLarge
          else .ok (d.tree l.machine)) := by
  obtain ⟨root, s₀, s, d, ts, last, hroot, -, -, -, -, haccounts⟩ := trace_sound htrace
  have hseparate : l.machine.rules.All Rule.Separate :=
    Grammar.separate_of_plain (rules_of_ofGrammar hl) hplain
  obtain rfl : d.rule = root := haccounts.rule_eq
  have htree : Tree.ofEvents l.rules d.rule events = .ok (d.tree l.machine) := by
    rw [haccounts.events_eq]
    refine (Tree.ofEvents_linearize hseparate haccounts.fits d.rule _ _).trans ?_
    rw [d.gathered_eq]
    exact Tree.ofTrees_contents haccounts.fits
  refine ⟨d, ts, last, hroot, haccounts, htree, ?_⟩
  rw [parse_of_trace hroot htrace, treeOf_of_plain hplain htree]

/-- A grammar of a list of letters, each list after a letter being part of a node. -/
def lists : Grammar :=
  .ofParts ⟨[("default", ⟨[("a", "a")]⟩)]⟩ ⟨[("list", "<a> (list() #more)?")]⟩ .empty

/-- The last of three lists inside one another is no node, since it has no list inside. -/
theorem tree_of_trace_lists :
    ∃ l events d ts last, ofGrammar .standard lists = .ok l ∧
      l.trace "aaa" none 60 = some (.ok events) ∧ l.Accounts "aaa" d.rule events d ts last ∧
      Tree.ofEvents l.rules d.rule events = .ok (d.tree l.machine) ∧
      (d.tree l.machine).nodes.map Tree.id = ["#more", "#more"] := by
  have hshown : shown lists "aaa" none 60 = some (.named "list", ["#more", "#more"],
      [.named "list", .part 2, .part 1, .named "list", .part 2, .part 1, .named "list", .part 2]) := by
    decide +kernel
  have hmerges : lists.merges = false := by decide +kernel
  rcases exists_of_shown hshown with ⟨l, t, events, hl, -, ht, htrace, hids, -⟩
  have hseparate := Grammar.separate_of_rules hmerges (rules_of_ofGrammar hl)
  have hplain : l.rules.All fun _ r => r.Plain := by
    rintro e he n (hn | hn)
    · exact (hseparate e he).nodeId n hn
    · exact (hseparate e he).defaultId n hn
  rcases tree_of_trace hl hplain htrace with ⟨d, ts, last, hroot, haccounts, htree, hparse⟩
  refine ⟨l, events, d, ts, last, hl, htrace, haccounts, htree, ?_⟩
  rw [ht] at hparse
  split at hparse
  · cases hparse
  · cases hparse
    exact hids

end Language

end Descent
