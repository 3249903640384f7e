import Descent.Proofs.Pattern.Engine
import Descent.Proofs.Pattern.Front
import Descent.Proofs.Rule.Invariant
import Descent.Proofs.Text.Utf8
import Descent.Proofs.Token.Declared
import Descent.Proofs.Token.Items

/-!
# Names of nodes

Every name that a compiled rule gives to a node starts with a number sign: it is the name of a
marked rule, or it is written in a body, where a name starts so as well.  So no node is ever called
like a leaf.

Main results:

- `isMarked_of_mem_signsOf`: a name of a node in a body starts with a number sign.
- `Grammar.marked_of_rules`: all names of nodes in the rules of a grammar start with one.
-/

namespace Descent

theorem head?_of_isMarked {s : String} (h : isMarked s = true) : s.toList.head? = some '#' :=
  beq_iff_eq.1 h

/-- The name of a node begins as the text it is read from. -/
theorem isMarked_ofString {raw : String} (h : isMarked raw = true) :
    isMarked (NodeId.ofString raw).id = true := by
  have hhead := head?_of_isMarked h
  rcases hchars : raw.toList with _ | ⟨c, cs⟩
  · rw [hchars] at hhead
    cases hhead
  · rw [hchars] at hhead
    cases hhead
    unfold NodeId.ofString
    split
    · rename_i id options hsplit
      unfold splitColon? at hsplit
      dsimp only at hsplit
      split at hsplit
      · cases hsplit
      · simp only [hchars, Option.some.injEq, Prod.mk.injEq] at hsplit
        rw [← hsplit.1]
        simp [isMarked]
    · exact h

/-! ## Names in bodies -/

/-- All patterns of rule bodies compile. -/
theorem ofGroups_bodyLexemes :
    Lexicon.ofGroups Pattern.engine [(defaultSpace, bodyLexemes)] true = .ok bodyLexicon := by
  have hok : (Lexicon.ofGroups Pattern.engine [(defaultSpace, bodyLexemes)] true).isOk = true := by decide +kernel
  unfold bodyLexicon
  split
  · rename_i lx hlx
    exact hlx
  · rename_i e he
    rw [he] at hok
    cases hok

/-- The pattern for names of nodes begins with a number sign. -/
private theorem front_of_bodyLexemes : ∀ e ∈ bodyLexemes, (Lexeme.ofKey e.1).1 = "node" →
    (Pattern.ofString true e.2).toOption.bind Pattern.Node.front? = some (.single 0x23) := by
  decide +kernel

private theorem kind_of_ofToken {t : Token} {id : String} (h : Sign.ofToken t = .node id) :
    t.kind = "node" ∧ t.value = id := by
  unfold Sign.ofToken at h
  dsimp only at h
  split at h
  all_goals first
    | cases h
      done
    | rename_i hkind
      cases h
      exact ⟨hkind, rfl⟩

/-- A lexeme for names of nodes matches only where a number sign stands. -/
private theorem front_of_node {space : String} {l : Lexeme}
    (hl : l ∈ (bodyLexicon.lexemes? space).getD []) (hname : l.name = "node") :
    ∃ a : Pattern.Node, l.matcher = a.matcher ∧ a.front? = some (.single 0x23) := by
  rcases Lexicon.exists_compile_of_mem ofGroups_bodyLexemes hl with ⟨group, hgroup, e, he, hcompile⟩
  rcases Lexeme.parts_of_compile hcompile with ⟨hkey, -, hmatcher⟩
  rcases Pattern.compile_engine_iff.1 hmatcher with ⟨a, ha, hsame⟩
  obtain rfl : group = bodyLexemes := (Prod.mk.inj (List.mem_singleton.1 hgroup)).2
  have hfront := front_of_bodyLexemes e he (by rw [hkey, hname])
  rw [ha] at hfront
  exact ⟨a, hsame.symm, hfront⟩

/-- What a body calls a node starts with a number sign. -/
theorem isMarked_of_mem_signsOf {body id : String} {w : WrittenSign}
    (hw : .ok w ∈ signsOf body) (hid : w.sign = .node id) : isMarked id = true := by
  rcases List.mem_map.1 hw with ⟨item, hitem, hmap⟩
  rcases item with e | t
  · cases hmap
  · cases hmap
    rcases kind_of_ofToken hid with ⟨hkind, rfl⟩
    rcases Lexicon.cuts_of_mem_items hitem with ⟨offset, rfl⟩ | ⟨s, l, n, -, hl, hlength, rfl⟩
    · have hending : endingKind = "node" := hkind
      exact absurd hending (by decide)
    · rcases front_of_node hl hkind with ⟨a, hmatcher, hfront⟩
      rw [Lexeme.matchLength?, hmatcher, Pattern.matchLength?_of_matcher] at hlength
      rcases Pattern.Node.front_of_matchLength? hfront hlength with ⟨c, width, hc, hmem⟩
      rw [Pattern.CharSet.mem_single, decide_eq_true_eq] at hmem
      have hhead := Text.head?_decode_take (by omega) hc n
      have hsign : c = '#' := by
        rw [← Char.ofNat_toNat c, hmem]
      rw [hsign] at hhead
      simp [isMarked, Scanner.tokenOf, hhead]

/-! ## Names given while compiling -/

/-- The names that a rule gives to nodes start with a number sign. -/
structure Rule.Marked (r : Rule) : Prop where
  node : ∀ n, r.nodeId = some n → isMarked n.id = true
  default : ∀ n, r.defaultId = some n → isMarked n.id = true

theorem Rule.marked_ofBody (key : RuleKey) (body : RuleBody) : (Rule.ofBody key body).Marked := by
  constructor
  · intro n hn
    cases hn
  · intro n hn
    cases hn

/-- What names begin with is kept by compiling. -/
theorem ruleInvariant_marked {kinds : List String} :
    RuleInvariant kinds (fun _ r => r.Marked) (fun id => isMarked id = true) := by
  refine ⟨fun n body _ => Rule.marked_ofBody _ body, ?_, ?_⟩
  · intro n r id hr hid
    refine ⟨fun n hn => ?_, hr.default⟩
    cases hn
    exact isMarked_ofString hid
  · intro n r key body hr hkey
    refine ⟨hr.node, fun n hn => ?_⟩
    unfold Rule.declared at hn
    dsimp only at hn
    split at hn
    · rename_i hmarked
      cases hn
      exact isMarked_ofString hmarked
    · exact hr.default n hn

/-- The names of nodes in the rules of a grammar start with a number sign. -/
theorem Grammar.marked_of_rules {g : Grammar} {rules : RuleTable} (h : g.rules = .ok rules) :
    rules.All fun _ r => r.Marked :=
  all_of_rules ruleInvariant_marked
    (fun _ _ => ⟨id, fun _ _ hw hid => isMarked_of_mem_signsOf hw hid⟩) h

end Descent
