import Descent.Proofs.Rule.MarkedRules
import Descent.Proofs.Tree.KeptTokens
import Descent.Proofs.Tree.Nodes

/-!
# Nodes of marked rules

In the tree of a text every use of a marked rule in which something happened has one node, which holds
what was kept inside the use.  A use in which nothing happened, not even in a part of the body, has none.
Where no name of a node asks for a merge, these are all the nodes, together with those of other rules and
perhaps one on top.

Main results:

- `Grammar.separate_of_rules`: no rule asks for a merge if the grammar names none.
- `Machine.Fits.parts_ne_nil`: uses of a rule that is a sequence or offers alternatives have parts.
- `Language.nodes_of_parse`: the nodes of the tree of a text, and those of the uses of marked rules.
-/

namespace Descent

/-! ## Grammars without merges -/

/-- Whether a sign is a name of a node that asks for a merge. -/
def Sign.merges : Sign → Bool
  | node id => (NodeId.ofString id).merges
  | _ => false

/-- Whether a name of a node in a body asks for a merge. -/
def bodyMerges (body : String) : Bool :=
  (signsOf body).any fun item =>
    match item with
    | .ok w => w.sign.merges
    | .error _ => false

namespace Grammar

variable {g : Grammar} {rules : RuleTable}

/-- Whether a name of a node asks for a merge, that of a marked rule or one in a body. -/
def merges (g : Grammar) : Bool :=
  g.bodies.entries.any fun b =>
    isMarked b.1 && (NodeId.ofString b.1).merges || bodyMerges b.2

theorem namesIn_of_bodyMerges {body : String} (h : bodyMerges body = false) :
    NamesIn (fun id => (NodeId.ofString id).merges = false) body := by
  intro w id hw hid
  have hnone := List.any_eq_false.1 h _ hw
  dsimp only at hnone
  rw [hid, Bool.not_eq_true] at hnone
  exact hnone

/-- No rule asks for a merge if the grammar names none. -/
theorem separate_of_rules (hmerges : g.merges = false) (h : g.rules = .ok rules) :
    rules.All Rule.Separate := by
  refine all_of_rules ruleInvariant_separate (fun b hb => ?_) h
  have hnone := List.any_eq_false.1 hmerges b hb
  rw [Bool.not_eq_true, Bool.or_eq_false_iff] at hnone
  refine ⟨fun hmarked => ?_, namesIn_of_bodyMerges hnone.2⟩
  simpa [hmarked] using hnone.1

end Grammar

/-! ## Uses with parts -/

/-- Uses of a rule that is a sequence or offers alternatives have parts. -/
theorem Machine.Fits.parts_ne_nil {m : Machine} {d : Derivation} {r : Rule} (h : m.Fits d)
    (hr : m.rules.get? d.rule = some r) (hbody : r.body.hasParts = true) : d.parts ≠ [] := by
  rcases hshape : r.body with ⟨kind, unification, kept⟩ | children | children | ⟨bounds, child⟩
  · rw [hshape] at hbody
    cases hbody
  · rcases h.eq_concatenation hr hshape with ⟨parts, hd, hrules, -⟩
    rw [hd]
    rintro rfl
    rw [hshape, ← hrules] at hbody
    cases hbody
  · rcases h.eq_choice hr hshape with ⟨index, part, hd, -, -⟩
    rw [hd]
    exact List.cons_ne_nil _ _
  · rw [hshape] at hbody
    cases hbody

/-- A use of a rule with a name of its own has a node just if something happened in it. -/
theorem Derivation.exists_node?_iff {m : Machine} {d : Derivation} {r : Rule} {id : NodeId}
    (hr : m.rules.get? d.rule = some r) (hdeclared : r.transitional = false)
    (hid : r.defaultId = some id) :
    (∃ n, d.node? m = some n ∧ n.leaves = d.keptLeaves m) ↔ d.parts ≠ [] := by
  constructor
  · rintro ⟨n, hn, -⟩ hnone
    rw [node?, hnone] at hn
    cases hn
  · intro hparts
    obtain ⟨n, hn⟩ : ∃ n, d.node? m = some n := by
      rw [node?_of_parts hparts, hr, Option.bind_some, Rule.node?, Rule.nodeName?, hdeclared, hid]
      cases (gatheredAll m d.parts).name <;> cases r.nodeId <;> exact ⟨_, rfl⟩
    exact ⟨n, hn, leaves_of_node? hn⟩

namespace Language

variable {H : Host} {g : Grammar} {l : Language} {text : String} {start : Option String} {fuel : Nat} {t : Tree}

/-- The nodes of the tree of a text are those of the uses of rules in its derivation, in order, perhaps
below one more on top.  A use of a marked rule has just one node, which holds what was kept inside the
use, unless nothing happened in it; and something happens in every use if the body is not a mere repeated
group.  (Of two declarations that differ only in the mark of the name, the later one counts.) -/
theorem nodes_of_parse (hl : ofGrammar H g = .ok l) (hmerges : g.merges = false)
    (ht : l.parse text start fuel = some (.ok t)) :
    ∃ root events d ts last, l.startRule? start = some root ∧
      l.trace text start fuel = some (.ok events) ∧ l.Accounts text root events d ts last ∧
      t.nodes = (if (d.gathered l.machine).trees.length = 1 then [] else [t]) ++
        d.uses.filterMap (Derivation.node? l.machine) ∧
      ∀ key body front back, g.bodies.entries = front ++ (key, body) :: back →
        (∀ b ∈ back, bareRuleName b.1 ≠ bareRuleName key) → isMarked key = true →
        ∀ u ∈ d.uses, u.rule = .named (bareRuleName key) →
          ((∃ n, u.node? l.machine = some n ∧ n.leaves = u.keptLeaves l.machine) ↔ u.parts ≠ []) ∧
          ∀ a : Phrase .choice, a.Writes body → a.repeatsGroup = false → u.parts ≠ [] := by
  have hrules := rules_of_ofGrammar hl
  have hseparate : l.machine.rules.All Rule.Separate := Grammar.separate_of_rules hmerges hrules
  rcases exists_events_of_parse ht with ⟨root, events, hroot, htrace, htree⟩
  obtain ⟨root', s₀, s, d, ts, last, hroot', -, -, -, -, haccounts⟩ := trace_sound htrace
  rw [hroot] at hroot'
  cases hroot'
  refine ⟨root, events, d, ts, last, hroot, htrace, haccounts, ?_, ?_⟩
  · have htrees : Tree.ofTrees l.machine.rules root (d.gathered l.machine).trees = .ok t := by
      rw [← Tree.ofEvents_linearize hseparate haccounts.fits root, ← haccounts.events_eq]
      exact htree
    rw [Tree.nodes_of_ofTrees htrees, d.nodes_gathered]
  · intro key body front back hbodies hlast hmarked u hu hrule
    have hcompiled := Grammar.declareBodies_of_rules hrules
    rw [hbodies] at hcompiled
    rcases Compilation.exists_nodeRule_of_declareBodies hmarked hcompiled hlast with ⟨r, hr⟩
    have hget : l.machine.rules.get? u.rule = some r := by
      rw [hrule]
      exact hr.there
    refine ⟨Derivation.exists_node?_iff hget hr.declared hr.defaultId, fun a ha hrepeats => ?_⟩
    exact (haccounts.fits.of_mem_uses hu).parts_ne_nil hget (hr.hasParts a ha hrepeats)

/-- A grammar of a rule that begins with a use of a marked rule, whose body is given. -/
def marked (body : String) : Grammar :=
  .ofParts ⟨[("default", ⟨[("a", "a"), ("b", "b")]⟩)]⟩ ⟨[("r", "e() <a>"), ("#e", body)]⟩ .empty

/-- A group of one token that may be missing. -/
def optionalGroup (kind : String) : Phrase .repetition :=
  .item (.group (.lastBranch (.lastPart (.item (.token kind none true) none none))))
    (Bounds.of? 0 (some 1)) none

/-- The rule that an event enters. -/
def entered? : Event → Option RuleKey
  | .enter c _ _ => some c.rule
  | _ => none

/-- What a parse shows: the rule it starts from, the names of the nodes of the tree, and the rules that
are entered. -/
def shown (g : Grammar) (text : String) (start : Option String) (fuel : Nat) :
    Option (RuleKey × List String × List RuleKey) :=
  match ofGrammar .standard g with
  | .ok l =>
    match l.startRule? start, l.parse text start fuel, l.trace text start fuel with
    | some root, some (.ok t), some (.ok events) =>
      some (root, t.nodes.map Tree.id, events.filterMap entered?)
    | _, _, _ => none
  | .error _ => none

theorem exists_of_shown {root : RuleKey} {ids : List String} {entered : List RuleKey}
    (h : shown g text start fuel = some (root, ids, entered)) :
    ∃ l t events, ofGrammar .standard g = .ok l ∧ l.startRule? start = some root ∧
      l.parse text start fuel = some (.ok t) ∧ l.trace text start fuel = some (.ok events) ∧
      t.nodes.map Tree.id = ids ∧ events.filterMap entered? = entered := by
  unfold shown at h
  split at h
  · rename_i l hl
    split at h
    · rename_i root' t events hroot ht htrace
      cases h
      exact ⟨l, t, events, hl, hroot, ht, htrace, rfl, rfl⟩
    · cases h
  · cases h

/-- A use of a marked rule with two groups that may be missing has a node, though no token is matched. -/
theorem nodes_of_parse_nothing :
    ∃ (l : Language) (t : Tree) (d : Derivation) (n : Tree),
      ofGrammar .standard (marked "(<b>)? (<a>)?") = .ok l ∧
      l.parse "" (some "e") 60 = some (.ok t) ∧ d.rule = .named "e" ∧
      d.node? l.machine = some n ∧ n ∈ t.nodes := by
  have hshown : shown (marked "(<b>)? (<a>)?") "" (some "e") 60 =
      some (.named "e", ["#e"], [.named "e", .part 4, .part 6]) := by
    decide +kernel
  have hmerges : (marked "(<b>)? (<a>)?").merges = false := by decide +kernel
  have hwrites : (Phrase.lastBranch (.part (optionalGroup "b") (.lastPart (optionalGroup "a")))).Writes
      "(<b>)? (<a>)?" := by
    decide +kernel
  rcases exists_of_shown hshown with ⟨l, t, -, hl, hroot, ht, -, -, -⟩
  obtain ⟨root, events, d, ts, last, hroot', -, haccounts, hnodes, huses⟩ :=
    nodes_of_parse hl hmerges ht
  rw [hroot] at hroot'
  cases hroot'
  have hd : d ∈ d.uses := by
    rw [d.uses_eq]
    exact List.mem_cons_self
  rcases huses "#e" "(<b>)? (<a>)?" [("r", "e() <a>")] [] rfl (fun b hb => absurd hb List.not_mem_nil)
    (by decide) d hd haccounts.rule_eq with ⟨hiff, hparts⟩
  rcases hiff.2 (hparts _ hwrites rfl) with ⟨n, hn, -⟩
  refine ⟨l, t, d, n, hl, ht, haccounts.rule_eq, hn, ?_⟩
  rw [hnodes]
  exact List.mem_append_right _ (List.mem_filterMap.2 ⟨d, hd, hn⟩)

/-- A use of a marked rule that is nothing but a repeated group leaves no node behind if the group is
missing. -/
theorem no_node_of_missing_group :
    ∃ l t events, ofGrammar .standard (marked "(<b>)?") = .ok l ∧ (marked "(<b>)?").merges = false ∧
      ("#e", "(<b>)?") ∈ (marked "(<b>)?").bodies.entries ∧ isMarked "#e" = true ∧
      l.parse "a" none 60 = some (.ok t) ∧ l.trace "a" none 60 = some (.ok events) ∧
      .named "e" ∈ events.filterMap entered? ∧ t.nodes = [] := by
  have hshown : shown (marked "(<b>)?") "a" none 60 =
      some (.named "r", [], [.named "r", .named "e"]) := by
    decide +kernel
  rcases exists_of_shown hshown with ⟨l, t, events, hl, -, ht, htrace, hids, hentered⟩
  have hmem : ("#e", "(<b>)?") ∈ (marked "(<b>)?").bodies.entries :=
    List.mem_cons_of_mem _ List.mem_cons_self
  refine ⟨l, t, events, hl, by decide +kernel, hmem, by decide, ht, htrace, ?_,
    List.map_eq_nil_iff.1 hids⟩
  rw [hentered]
  exact List.mem_cons_of_mem _ List.mem_cons_self

end Language

end Descent
