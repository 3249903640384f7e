import Descent.Proofs.Rule.NodeNames
import Descent.Proofs.Search.Soundness
import Descent.Proofs.Tree.Leaves

/-!
# Kept tokens

The tree of a text has one leaf for every token that its derivation keeps, in the order of the text,
and nothing is below a leaf.

Main results:

- `Tree.Tidy.children_of_mem_places`: nothing is below a token, wherever it is in a tidy tree.
- `Language.parse_leaves`: the leaves of the tree of a text are the tokens kept.
-/

namespace Descent

namespace Tree

theorem tree_mem_placesBelow {t : Tree} (ht : t.Tidy) {above : List Tree} {p : Place}
    (hp : p ∈ t.placesBelow above) : p.tree.Tidy := by
  induction ht generalizing above with
  | leaf v =>
    rw [leaf, placesBelow, placesBelowAll, List.mem_singleton] at hp
    rw [hp]
    exact .leaf v
  | @node id children hchildren ih =>
    rw [placesBelow] at hp
    rcases List.mem_cons.1 hp with rfl | hp
    · exact .node hchildren
    · -- The places of the children come one child after the other.
      have hall : ∀ cs : List Tree, (∀ c ∈ cs, c ∈ children) →
          p ∈ placesBelowAll (.node id none children :: above) cs → p.tree.Tidy := by
        intro cs
        induction cs with
        | nil =>
          intro _ hnil
          cases hnil
        | cons c cs ihcs =>
          intro hsub hcons
          rw [placesBelowAll] at hcons
          rcases List.mem_append.1 hcons with hfirst | hrest
          · exact ih c (hsub c List.mem_cons_self) hfirst
          · exact ihcs (fun c hc => hsub c (List.mem_cons_of_mem _ hc)) hrest
      exact hall children (fun c hc => hc) hp

/-- Nothing is below a token, wherever it is in a tidy tree. -/
theorem Tidy.children_of_mem_places {t : Tree} (ht : t.Tidy) {p : Place} (hp : p ∈ t.places)
    (htoken : p.tree.token ≠ none) : p.tree.children = [] := by
  cases hp' : p.tree with
  | node id token children =>
    have htidy := tree_mem_placesBelow ht hp
    rw [hp'] at htidy htoken
    cases htidy with
    | node => exact absurd rfl htoken
    | leaf => rfl

end Tree

theorem Rule.namesNodes_of_marked {r : Rule} (h : r.Marked) : r.NamesNodes := by
  have hleaf : isMarked Tree.leafId = false := by decide
  constructor
  · intro n hn heq
    have hmarked := h.node n hn
    rw [heq, hleaf] at hmarked
    cases hmarked
  · intro n hn heq
    have hmarked := h.default n hn
    rw [heq, hleaf] at hmarked
    cases hmarked

namespace Language

theorem rules_of_ofGrammar {H : Host} {g : Grammar} {l : Language} (h : ofGrammar H g = .ok l) :
    g.rules = .ok l.rules := by
  unfold ofGrammar at h
  split at h
  · cases h
  · rename_i rules hrules
    unfold ofRules at h
    split at h
    · cases h
    · cases h
      exact hrules

/-- The leaves of the tree of a text are the tokens that its derivation keeps, in the order of the
text, and nothing is below them. -/
theorem parse_leaves {H : Host} {g : Grammar} {l : Language} (hl : ofGrammar H g = .ok l) {text : String}
    {start : Option String} {fuel : Nat} {t : Tree} (ht : l.parse text start fuel = some (.ok t)) :
    ∃ events, l.trace text start fuel = some (.ok events) ∧
      t.leaves = ((matchedTokens events).filter MatchedToken.kept).map
        (fun u => ⟨u.kind, u.value, u.space⟩) ∧
      ∀ p ∈ t.places, p.tree.token ≠ none → p.tree.children = [] := by
  have hmarked := Grammar.marked_of_rules (rules_of_ofGrammar hl)
  rcases exists_events_of_parse ht with ⟨root, events, -, htrace, htree⟩
  obtain ⟨htidy, hleaves⟩ := Tree.leaves_ofEvents
    (fun key r hget => Rule.namesNodes_of_marked (hmarked.get? hget)) htree
  exact ⟨events, htrace, hleaves, fun p hp => htidy.children_of_mem_places hp⟩

/-- A grammar of words whose parts are joined into one node. -/
def words : Grammar :=
  .ofParts ⟨[("default", ⟨[("a", "a"), ("b", "b")]⟩)]⟩
    ⟨[("#word", "pair()+"), ("pair", "<a> ::b::? #pair:M")]⟩ .empty

/-- Whether a grammar makes a tree of a text. -/
def makesTree (g : Grammar) (text : String) (fuel : Nat) : Bool :=
  match ofGrammar .standard g with
  | .ok l =>
    match l.parse text none fuel with
    | some (.ok _) => true
    | _ => false
  | .error _ => false

/-- A word of two parts has the leaves of both. -/
theorem parse_leaves_words :
    ∃ l t events, ofGrammar .standard words = .ok l ∧ l.parse "aba" none 60 = some (.ok t) ∧
      l.trace "aba" none 60 = some (.ok events) ∧
      t.leaves = ((matchedTokens events).filter MatchedToken.kept).map
        (fun u => ⟨u.kind, u.value, u.space⟩) := by
  have hmakes : makesTree words "aba" 60 = true := by decide +kernel
  unfold makesTree at hmakes
  split at hmakes
  · rename_i l hl
    split at hmakes
    · rename_i t ht
      rcases parse_leaves hl ht with ⟨events, hevents, hleaves, -⟩
      exact ⟨l, t, events, hl, ht, hevents, hleaves⟩
    · cases hmakes
  · cases hmakes

end Language

end Descent
