import Mathlib.Order.Bounds.Basic
import Descent.Proofs.Rule.Invariant
import Descent.Proofs.Search.Visited
import Descent.Proofs.Tree.Independence

/-!
# The token that an error names

A parse that fails on a token names the furthest one that it came to.  With room for the text, that is
the furthest one that any beginning of a derivation comes to: such a parse has tried them all.

Main results:

- `Language.exists_run_of_unexpected`: a parse that names a token has made a search that does.
- `Language.furthest_of_unexpected`: which token a parse names, and where it places it.
-/

namespace Descent

/-! ## Kinds of the tokens of a beginning -/

theorem Derivation.mem_yieldAll {t : Token} {ds : List Derivation} :
    t ∈ yieldAll ds ↔ ∃ d ∈ ds, t ∈ d.yield := by
  induction ds with
  | nil => simp [yieldAll]
  | cons d ds ih => simp [yieldAll, ih]

namespace Machine

variable {m : Machine} {t : Token}

/-- There is a rule for the kind of a token. -/
def AsksFor (m : Machine) (kind : String) : Prop :=
  ∃ key r unification kept, m.rules.get? key = some r ∧ r.body = .token kind unification kept

theorem Fits.asksFor {d : Derivation} (h : m.Fits d) (ht : t ∈ d.yield) : m.AsksFor t.kind := by
  rw [d.yield_eq_map_leaves] at ht
  rcases List.mem_map.1 ht with ⟨leaf, hleaf, rfl⟩
  rcases h.leaf hleaf with ⟨r, unification, kept, hr, hbody⟩
  exact ⟨leaf.1, r, unification, kept, hr, hbody⟩

/-- Every token of a beginning is one of a kind that a rule asks for. -/
theorem Starts.asksFor {b : Beginning} (h : m.Starts b) (ht : t ∈ b.yield) : m.AsksFor t.kind := by
  have hparts {done : List Derivation} {part : Beginning} (hdone : ∀ d ∈ done, m.Fits d)
      (ih : t ∈ part.yield → m.AsksFor t.kind) (ht : t ∈ Derivation.yieldAll done ++ part.yield) :
      m.AsksFor t.kind := by
    rcases List.mem_append.1 ht with hmem | hmem
    · rcases Derivation.mem_yieldAll.1 hmem with ⟨d, hd, hmem⟩
      exact (hdone d hd).asksFor hmem
    · exact ih hmem
  induction h with
  | nothing key => cases ht
  | unclosed hd => exact hd.asksFor ht
  | whole hd => exact hd.asksFor ht
  | concatenation hr hbody hrules hdone hpart ih => exact hparts hdone ih ht
  | choice hr hbody hrule hpart ih => exact ih ht
  | repetition hr hbody hrules hmax hdone hpart ih => exact hparts hdone ih ht

end Machine

namespace Language

variable {H : Host} {g : Grammar} {l : Language} {text : String} {start : Option String} {root : RuleKey}
  {fuel n : Nat} {s₀ : State} {t : Token}

/-- What a derivation matches has a kind that the grammar declares. -/
theorem kind_mem_of_asksFor (hl : ofGrammar H g = .ok l) {kind : String}
    (h : l.machine.AsksFor kind) : kind ∈ g.kinds := by
  rcases h with ⟨key, r, unification, kept, hr, hbody⟩
  have hasks := (Grammar.asksFor_of_rules (rules_of_ofGrammar hl)).get? hr
  rw [hbody] at hasks
  exact hasks

/-! ## Numbers of tokens -/

/-- The numbers of tokens that a search from a state has matched at some moment. -/
def matchedCounts (l : Language) (s₀ : State) : Set Nat :=
  {n | ∃ s, l.machine.Reaches s₀ s ∧ matchedCount s.trace = n}

/-- The numbers of first items of a text that some beginning of a derivation of a rule matches. -/
def derivableCounts (l : Language) (text : String) (root : RuleKey) : Set Nat :=
  {n | ∃ ts b, (l.items text).take n = ts.map Except.ok ∧ ts.length = n ∧
    l.machine.DerivesPart root ts b}

theorem prefix_of_take {items : List (Except LexError Token)} {ts : List Token} {n : Nat}
    (h : items.take n = ts.map Except.ok) : ts.map Except.ok <+: items :=
  h ▸ List.take_prefix n items

/-- What a parse has matched at some moment can be derived. -/
theorem matchedCounts_subset (hl : ofGrammar H g = .ok l)
    (hinitial : l.machine.initial (l.items text) l.grammar.pragmas.lookahead root = .ok s₀) :
    l.matchedCounts s₀ ⊆ l.derivableCounts text root := by
  rintro n ⟨s, hreach, rfl⟩
  have hclosed : l.machine.rules.Closed := Grammar.closed_of_rules (rules_of_ofGrammar hl)
  rcases (Machine.comes_of_reaches hclosed hinitial hreach).exists_beginning with ⟨b, hb⟩
  have hcount : matchedCount s.trace = b.yield.length := hb.matchedCount_eq
  refine ⟨b.yield, b, ?_, hcount.symm, hb.derives⟩
  have htake := List.prefix_iff_eq_take.1 hb.tokens
  rw [List.length_map] at htake
  rw [hcount, ← htake]

/-- The ending of a text cannot be derived unless the grammar declares its kind. -/
theorem lt_of_mem_derivableCounts (hl : ofGrammar H g = .ok l) (hkinds : endingKind ∉ g.kinds)
    (hn : n ∈ l.derivableCounts text root) : n < (l.items text).length := by
  rcases hn with ⟨ts, b, htake, rfl, hb⟩
  rcases l.lexicon.exists_items (Text.octets text.toList) with ⟨us, last, hends⟩
  have hitems : l.items text = us.map Except.ok ++ [last] := hends.items_eq
  have hle : ts.length ≤ (l.items text).length := by
    simpa using congrArg List.length htake
  refine Nat.lt_of_le_of_ne hle fun hall => ?_
  rw [hall, List.take_length] at htake
  have hmem : last ∈ ts.map Except.ok := by
    rw [← htake, hitems]
    exact List.mem_append_right _ (List.mem_singleton_self last)
  rcases List.mem_map.1 hmem with ⟨t, ht, rfl⟩
  rcases hends.isLast with hending | ⟨e, he⟩
  · cases hending
    rw [← hb.yield_eq] at ht
    exact hkinds (kind_mem_of_asksFor hl (hb.starts.asksFor ht))
  · cases he

/-! ## Errors of a parse -/

/-- A parse that names a token as unexpected has made a search that does. -/
theorem exists_run_of_unexpected (hroot : l.rules.get? root ≠ none)
    (hstart : l.startRule? start = some root)
    (hinitial : l.machine.initial (l.items text) l.grammar.pragmas.lookahead root = .ok s₀)
    {e : Unexpected} (h : l.parse text start fuel = some (.error (.unexpected e))) :
    ∃ t, l.machine.run fuel s₀ = some (.error (.unexpected t)) ∧
      e = .at (Text.octets text.toList) t l.lexicon.columnUnit := by
  rw [parse_eq hstart] at h
  rcases Option.map_eq_some_iff.1 h with ⟨r, hderive, hr⟩
  rcases exists_run_of_derive hinitial hderive with ⟨f | s, hrun, rfl⟩
  · cases f with
    | lex => cases hr
    | internal => cases hr
    | unexpected t =>
      cases hr
      exact ⟨t, hrun, rfl⟩
  · have hmade := treeOf_made (readable_of_run hroot hinitial hrun) text
    have htree : l.treeOf text root s.trace.reverse = .error (.unexpected e) := hr
    rw [htree] at hmade
    rcases hmade with ⟨tree, htree⟩ | htoo
    · cases htree
    · cases htoo

/-- An error names a token, and has the line and the column of the token's offset, counted from one. -/
structure Names (l : Language) (text : String) (e : Unexpected) (t : Token) : Prop where
  token_eq : e.token = t
  line_eq : e.line =
    ((Text.LineIndex.ofString text).position t.offset l.lexicon.columnUnit).line + 1
  column_eq : e.column =
    ((Text.LineIndex.ofString text).position t.offset l.lexicon.columnUnit).column + 1

/-- A parse that names a token as unexpected names the one after the greatest number of tokens that it
had matched at any moment, and with room for the text before its ending, no beginning of a derivation
matches more of its tokens. -/
theorem furthest_of_unexpected (hl : ofGrammar H g = .ok l) (hkinds : endingKind ∉ g.kinds)
    {e : Unexpected} (h : l.parse text start fuel = some (.error (.unexpected e))) :
    ∃ root s₀ n t, l.startRule? start = some root ∧
      l.machine.initial (l.items text) l.grammar.pragmas.lookahead root = .ok s₀ ∧
      IsGreatest (l.matchedCounts s₀) n ∧ (l.items text)[n]? = some (.ok t) ∧ l.Names text e t ∧
      ((l.items text).length ≤ max l.grammar.pragmas.lookahead 1 + 1 →
        IsGreatest (l.derivableCounts text root) n) := by
  rcases exists_startRule hl start with ⟨root, hstart, hroot⟩
  rcases exists_initial hroot (l.items text) l.grammar.pragmas.lookahead with ⟨s₀, hinitial⟩
  rcases exists_run_of_unexpected hroot hstart hinitial h with ⟨t, hrun, rfl⟩
  have hclosed : l.machine.rules.Closed := Grammar.closed_of_rules (rules_of_ofGrammar hl)
  have habreast := Machine.abreast_initial (l.items_ne_nil text) (l.items_ne_nil text) hinitial hinitial
  rcases Machine.furthest_of_run hclosed (l.lexicon.ordered_items _)
    (Machine.steady_initial hinitial) habreast.left hrun with ⟨n, hn⟩
  have hmatched : IsGreatest (l.matchedCounts s₀) n := by
    refine ⟨?_, fun k ⟨s, hreach, hk⟩ => hk ▸ hn.matched_le s hreach⟩
    rcases hn.reached with hnone | hreached
    · have hle := hn.matched_le s₀ .refl
      exact ⟨s₀, .refl, by omega⟩
    · exact hreached
  refine ⟨root, s₀, n, t, hstart, hinitial, hmatched, hn.item, ⟨rfl, rfl, rfl⟩,
    fun hroom => ⟨matchedCounts_subset hl hinitial hmatched.1, fun k hk => ?_⟩⟩
  by_cases hlt : n < max l.grammar.pragmas.lookahead 1
  · rcases hk with ⟨ts, b, htake, rfl, hb⟩
    rcases Machine.exists_comes_of_derivesPart hb (prefix_of_take htake) with ⟨c, hcomes, hcount⟩
    rw [← Machine.config_of_initial hinitial] at hcomes
    rcases hn.visited hlt _ List.mem_cons_self c hcomes with ⟨s, hreach, rfl⟩
    exact hcount ▸ hn.matched_le s hreach
  -- The window may have dropped a token, but then the one named is the ending of the text.
  · have hlast := lt_of_mem_derivableCounts hl hkinds hk
    omega

/-- The column of the token that a parse names as unexpected, if it names one, with the number of items of
the text. -/
def unexpectedColumn (g : Grammar) (text : String) (fuel : Nat) : Option (Nat × Nat) :=
  match ofGrammar .standard g with
  | .ok l =>
    match l.parse text none fuel with
    | some (.error (.unexpected e)) => some (e.column, (l.items text).length)
    | _ => none
  | .error _ => none

theorem exists_of_unexpectedColumn {column length : Nat}
    (h : unexpectedColumn g text fuel = some (column, length)) :
    ∃ l e, ofGrammar .standard g = .ok l ∧ l.parse text none fuel = some (.error (.unexpected e)) ∧
      e.column = column ∧ (l.items text).length = length := by
  unfold unexpectedColumn at h
  split at h
  · rename_i l hl
    split at h
    · rename_i e he
      cases h
      exact ⟨l, e, hl, he, rfl, rfl⟩
    · cases h
  · cases h

/-- Three letters are one too many: the third is named, though the second alternative stops before. -/
theorem furthest_of_unexpected_pairs :
    ∃ l e n t root, ofGrammar .standard (pairs 8) = .ok l ∧
      l.parse "abb" none 40 = some (.error (.unexpected e)) ∧ e.column = 3 ∧ l.Names "abb" e t ∧
      (l.items "abb")[n]? = some (.ok t) ∧ IsGreatest (l.derivableCounts "abb" root) n := by
  have hcolumn : unexpectedColumn (pairs 8) "abb" 40 = some (3, 4) := by decide +kernel
  rcases exists_of_unexpectedColumn hcolumn with ⟨l, e, hl, he, hthird, hlength⟩
  have hkinds : endingKind ∉ (pairs 8).kinds := by decide
  obtain ⟨root, s₀, n, t, -, -, -, hitem, hnames, hgreatest⟩ := furthest_of_unexpected hl hkinds he
  have hroom : (l.items "abb").length ≤ max l.grammar.pragmas.lookahead 1 + 1 := by
    rw [hlength, (lexicon_of_ofGrammar hl).1]
    decide
  exact ⟨l, e, n, t, root, hl, he, hthird, hnames, hitem, hgreatest hroom⟩

end Language

end Descent
