import Descent.Proofs.Search.Soundness
import Descent.Tree.Build

/-!
# Leaves of trees

Reading the events of a derivation moves trees about: they are wrapped, left in place, or joined
with the tree before, level by level.  None of this loses a leaf or changes the order of the leaves,
as long as no rule gives a node the name that leaves have.

Main results:

- `Tree.Tidy` says that tokens are at leaves only, and nothing is below them.
- `Tree.leaves_mergeDeepAll`: joining two trees puts the leaves of one after those of the other.
- `Builder.Waits.close`: ending a rule keeps the leaves that wait.
- `Tree.leaves_ofEvents`: the tree of some events has a leaf for each token kept, in order.
-/

namespace Descent

namespace Tree

/-- Tokens are at leaves only, and nothing is below them. -/
inductive Tidy : Tree → Prop
  | node {id : String} {children : List Tree} (h : ∀ c ∈ children, Tidy c) :
      Tidy (.node id none children)
  | leaf (t : LeafToken) : Tidy (leaf t)

@[simp]
theorem leavesAll_append (ts us : List Tree) :
    leavesAll (ts ++ us) = leavesAll ts ++ leavesAll us := by
  induction ts with
  | nil => rfl
  | cons t ts ih => simp [leavesAll, ih]

/-! ## Merging -/

theorem Tidy.mergeShallow {t : Tree} (ht : t.Tidy) (hid : t.id ≠ leafId) {further : List Tree}
    (hfurther : ∀ c ∈ further, Tidy c) : (t.mergeShallow further).Tidy := by
  cases ht with
  | leaf => exact absurd rfl hid
  | node hchildren =>
    refine .node ?_
    intro c hc
    rcases List.mem_append.1 hc with hc | hc
    · exact hchildren c hc
    · exact hfurther c hc

theorem leaves_mergeShallow (t : Tree) (further : List Tree) :
    (t.mergeShallow further).leaves = t.leaves ++ leavesAll further := by
  rcases t with ⟨id, token, children⟩
  simp [Tree.mergeShallow, leaves, leavesAll_append]

@[simp]
theorem id_mergeShallow (t : Tree) (further : List Tree) : (t.mergeShallow further).id = t.id := by
  rcases t with ⟨id, token, children⟩
  rfl

/-- A tree can be taken into another one without harm. -/
private structure Joins (t u : Tree) (joined : Tree) : Prop where
  tidy : joined.Tidy
  leaves : joined.leaves = t.leaves ++ u.leaves
  id : joined.id = t.id

private theorem joins_mergeShallow {t u : Tree} (ht : t.Tidy) (hid : t.id ≠ leafId)
    (hu : u.Tidy) : Joins t u (t.mergeShallow [u]) := by
  refine ⟨ht.mergeShallow hid ?_, ?_, id_mergeShallow t [u]⟩
  · intro c hc
    rw [List.mem_singleton.1 hc]
    exact hu
  · rw [leaves_mergeShallow]
    simp [leavesAll]

/-- Trees that can be taken in one by one can be taken in one after the other. -/
private theorem joins_mergeDeepAll {us : List Tree}
    (hus : ∀ u ∈ us, ∀ t : Tree, t.Tidy → t.id ≠ leafId → Joins t u (t.mergeDeep u)) {t : Tree}
    (ht : t.Tidy) (hid : t.id ≠ leafId) :
    (t.mergeDeepAll us).Tidy ∧ (t.mergeDeepAll us).leaves = t.leaves ++ leavesAll us := by
  induction us generalizing t with
  | nil => exact ⟨ht, by simp [mergeDeepAll, leavesAll]⟩
  | cons u us ih =>
    have hfirst := hus u List.mem_cons_self t ht hid
    have hrest := ih (fun v hv => hus v (List.mem_cons_of_mem _ hv)) hfirst.tidy
      (by rw [hfirst.id]; exact hid)
    refine ⟨hrest.1, ?_⟩
    rw [mergeDeepAll, hrest.2, hfirst.leaves, leavesAll, List.append_assoc]

private theorem joins_mergeDeep {u : Tree} (hu : u.Tidy) (t : Tree) (ht : t.Tidy)
    (hid : t.id ≠ leafId) : Joins t u (t.mergeDeep u) := by
  induction hu generalizing t with
  | leaf v =>
    unfold leaf mergeDeep
    exact joins_mergeShallow ht hid (.leaf v)
  | @node id children hchildren ih =>
    have hu : (Tree.node id none children).Tidy := .node hchildren
    have hshallow := joins_mergeShallow ht hid hu
    cases ht with
    | leaf => exact absurd rfl hid
    | @node top parts hparts =>
      by_cases hleaf : (id == leafId) = true
      · rw [mergeDeep, if_pos hleaf]
        exact hshallow
      · rw [mergeDeep, if_neg hleaf]
        rcases hlast : parts.getLast? with _ | last
        · simp only [Tree.children, hlast]
          exact hshallow
        · simp only [Tree.children, hlast]
          rcases List.getLast?_eq_some_iff.1 hlast with ⟨front, rfl⟩
          by_cases hsame : (last.id == id) = true
          · rw [if_pos hsame, List.dropLast_concat]
            have hlastid : last.id ≠ leafId := by
              intro heq
              apply hleaf
              rw [← beq_iff_eq.1 hsame, heq]
              exact beq_self_eq_true _
            have hjoined :=
              joins_mergeDeepAll ih (hparts last (List.mem_append_right _ List.mem_cons_self))
                hlastid
            refine ⟨.node ?_, ?_, rfl⟩
            · intro c hc
              rcases List.mem_append.1 hc with hc | hc
              · exact hparts c (List.mem_append_left _ hc)
              · rw [List.mem_singleton.1 hc]
                exact hjoined.1
            · simp only [leaves, leavesAll_append, leavesAll, hjoined.2, List.append_nil,
                Option.toList_none, List.nil_append, List.append_assoc, Tree.token]
          · rw [if_neg hsame]
            exact hshallow

theorem Tidy.mergeDeepAll {t : Tree} (ht : t.Tidy) (hid : t.id ≠ leafId) {us : List Tree}
    (hus : ∀ u ∈ us, Tidy u) : (t.mergeDeepAll us).Tidy :=
  (joins_mergeDeepAll (fun u hu => joins_mergeDeep (hus u hu)) ht hid).1

/-- Joining trees level by level puts their leaves one after the other. -/
theorem leaves_mergeDeepAll {t : Tree} (ht : t.Tidy) (hid : t.id ≠ leafId) {us : List Tree}
    (hus : ∀ u ∈ us, Tidy u) : (t.mergeDeepAll us).leaves = t.leaves ++ leavesAll us :=
  (joins_mergeDeepAll (fun u hu => joins_mergeDeep (hus u hu)) ht hid).2

end Tree

/-! ## What waits -/

/-- The names that a rule gives to nodes are no names of leaves. -/
structure Rule.NamesNodes (r : Rule) : Prop where
  node : ∀ n, r.nodeId = some n → n.id ≠ Tree.leafId
  default : ∀ n, r.defaultId = some n → n.id ≠ Tree.leafId

namespace Builder

variable {waiting : List Waiting}

@[simp]
theorem trees_nil : trees [] = [] :=
  rfl

@[simp]
theorem trees_tree (t : Tree) : trees (.tree t :: waiting) = trees waiting ++ [t] := by
  simp [trees]

@[simp]
theorem trees_mark (rule : RuleKey) : trees (.mark rule :: waiting) = trees waiting := by
  simp [trees]

@[simp]
theorem trees_name (n : NodeId) : trees (.name n :: waiting) = trees waiting := by
  simp [trees]

theorem trees_map_append (ts : List Tree) :
    trees (ts.reverse.map Waiting.tree ++ waiting) = trees waiting ++ ts := by
  induction ts generalizing waiting with
  | nil => simp
  | cons t ts ih =>
    rw [List.reverse_cons, List.map_append, List.append_assoc, ih]
    simp

/-- What waits: trees with some leaves in order, and names of nodes. -/
structure Waits (waiting : List Waiting) (ls : List LeafToken) : Prop where
  tidy : ∀ t ∈ trees waiting, t.Tidy
  names : ∀ n, Waiting.name n ∈ waiting → n.id ≠ Tree.leafId
  leaves : Tree.leavesAll (trees waiting) = ls

/-- What was taken from inside a rule, and what waits before it. -/
structure Taken (waiting : List Waiting) (acc : List Tree) (name : Option NodeId)
    (result : List Tree × Option NodeId × List Waiting) : Prop where
  trees : trees result.2.2 ++ result.1 = trees waiting ++ acc
  name : ∀ n, result.2.1 = some n → name = some n ∨ Waiting.name n ∈ waiting
  rest : ∀ w ∈ result.2.2, w ∈ waiting

theorem taken_takeInside (rule : RuleKey) (acc : List Tree) (name : Option NodeId)
    (waiting : List Waiting) : Taken waiting acc name (takeInside rule acc name waiting) := by
  induction waiting generalizing acc name with
  | nil => exact ⟨rfl, fun n hn => .inl hn, fun w hw => hw⟩
  | cons w waiting ih =>
    cases w with
    | tree t =>
      rcases ih (t :: acc) name with ⟨htrees, hname, hrest⟩
      refine ⟨?_, fun n hn => (hname n hn).imp_right (List.mem_cons_of_mem _),
        fun w hw => List.mem_cons_of_mem _ (hrest w hw)⟩
      rw [takeInside, htrees, trees_tree, List.append_assoc]
      rfl
    | name n =>
      rcases ih acc (name.or (some n)) with ⟨htrees, hname, hrest⟩
      refine ⟨?_, ?_, fun w hw => List.mem_cons_of_mem _ (hrest w hw)⟩
      · rw [takeInside, htrees, trees_name]
      · intro k hk
        rcases hname k hk with hor | hmem
        · rcases Option.or_eq_some_iff.1 hor with hfirst | ⟨-, hsecond⟩
          · exact .inl hfirst
          · cases hsecond
            exact .inr List.mem_cons_self
        · exact .inr (List.mem_cons_of_mem _ hmem)
    | mark r =>
      rw [takeInside]
      split
      · exact ⟨by simp, fun n hn => .inl hn, fun w hw => List.mem_cons_of_mem _ hw⟩
      · rcases ih acc name with ⟨htrees, hname, hrest⟩
        refine ⟨?_, fun n hn => (hname n hn).imp_right (List.mem_cons_of_mem _),
          fun w hw => List.mem_cons_of_mem _ (hrest w hw)⟩
        rw [htrees, trees_mark]

theorem Waits.addMark {ls : List LeafToken} (h : Waits waiting ls) (rule : RuleKey) :
    Waits (.mark rule :: waiting) ls where
  tidy := by simpa using h.tidy
  names n hn := by
    rcases List.mem_cons.1 hn with hn | hn
    · cases hn
    · exact h.names n hn
  leaves := by simpa using h.leaves

theorem Waits.addName {ls : List LeafToken} (h : Waits waiting ls) {n : NodeId}
    (hn : n.id ≠ Tree.leafId) : Waits (.name n :: waiting) ls where
  tidy := by simpa using h.tidy
  names k hk := by
    rcases List.mem_cons.1 hk with hk | hk
    · cases hk
      exact hn
    · exact h.names k hk
  leaves := by simpa using h.leaves

theorem Waits.addTree {ls : List LeafToken} (h : Waits waiting ls) {t : Tree} (ht : t.Tidy) :
    Waits (.tree t :: waiting) (ls ++ t.leaves) where
  tidy := by
    rw [trees_tree]
    exact List.forall_mem_append.2 ⟨h.tidy, List.forall_mem_singleton.2 ht⟩
  names n hn := by
    rcases List.mem_cons.1 hn with hn | hn
    · cases hn
    · exact h.names n hn
  leaves := by
    rw [trees_tree, Tree.leavesAll_append, h.leaves]
    simp [Tree.leavesAll]

theorem Waits.addTrees {ls : List LeafToken} (h : Waits waiting ls) {ts : List Tree}
    (hts : ∀ t ∈ ts, t.Tidy) : Waits (ts.reverse.map Waiting.tree ++ waiting) (ls ++ Tree.leavesAll ts) where
  tidy := by
    rw [trees_map_append]
    exact List.forall_mem_append.2 ⟨h.tidy, hts⟩
  names n hn := by
    rcases List.mem_append.1 hn with hn | hn
    · rcases List.mem_map.1 hn with ⟨t, -, ht⟩
      cases ht
    · exact h.names n hn
  leaves := by rw [trees_map_append, Tree.leavesAll_append, h.leaves]

/-- The tree that waits last is replaced by one with further leaves. -/
private theorem Waits.replace {t t' : Tree} {ls more : List LeafToken}
    (h : Waits (.tree t :: waiting) ls) (ht' : t'.Tidy) (hleaves : t'.leaves = t.leaves ++ more) :
    Waits (.tree t' :: waiting) (ls ++ more) := by
  rcases h with ⟨htidy, hnames, hls⟩
  rw [trees_tree] at htidy hls
  have hbefore : Waits waiting (Tree.leavesAll (trees waiting)) :=
    ⟨(List.forall_mem_append.1 htidy).1, fun n hn => hnames n (List.mem_cons_of_mem _ hn), rfl⟩
  have hafter := hbefore.addTree ht'
  rw [hleaves, ← List.append_assoc] at hafter
  rw [Tree.leavesAll_append] at hls
  simpa [← hls, Tree.leavesAll] using hafter

/-- What waits splits into what is taken from inside a rule and what waits before it. -/
theorem Waits.of_taken {ls : List LeafToken} {ts : List Tree} {name : Option NodeId}
    {rest : List Waiting} (h : Waits waiting ls) (htaken : Taken waiting [] none (ts, name, rest)) :
    ∃ before, Waits rest before ∧ (∀ t ∈ ts, t.Tidy) ∧ before ++ Tree.leavesAll ts = ls ∧
      ∀ n, name = some n → n.id ≠ Tree.leafId := by
  rcases htaken with ⟨htrees, hname, hrest⟩
  dsimp only at htrees hname hrest
  rw [List.append_nil] at htrees
  have htidy := h.tidy
  rw [← htrees] at htidy
  refine ⟨_, ⟨(List.forall_mem_append.1 htidy).1, fun n hn => h.names n (hrest _ hn), rfl⟩,
    (List.forall_mem_append.1 htidy).2, ?_, fun n hn => ?_⟩
  · rw [← Tree.leavesAll_append, htrees]
    exact h.leaves
  · rcases hname n hn with hnone | hmem
    · cases hnone
    · exact h.names n hmem

/-- Joining trees with the tree before keeps their leaves. -/
theorem Waits.mergeIntoLast? {ls : List LeafToken} {id : NodeId} {ts : List Tree}
    {joined : List Waiting} (h : Waits waiting ls) (hid : id.id ≠ Tree.leafId)
    (hts : ∀ t ∈ ts, t.Tidy) (hjoined : Builder.mergeIntoLast? id ts waiting = some joined) :
    Waits joined (ls ++ Tree.leavesAll ts) := by
  unfold Builder.mergeIntoLast? at hjoined
  split at hjoined
  · rename_i last rest
    have hlast : last.Tidy := h.tidy last (by simp)
    split at hjoined
    · rename_i hsame
      have hlastid : last.id ≠ Tree.leafId := by
        rw [hsame]
        exact hid
      split at hjoined
      · cases hjoined
        exact h.replace (hlast.mergeShallow hlastid hts) (Tree.leaves_mergeShallow last ts)
      · split at hjoined
        · cases hjoined
          exact h.replace (hlast.mergeDeepAll hlastid hts)
            (Tree.leaves_mergeDeepAll hlast hlastid hts)
        · cases hjoined
    · cases hjoined
  · cases hjoined

/-- Ending a rule keeps the leaves that wait. -/
theorem Waits.close {ls : List LeafToken} {r : Rule} (h : Waits waiting ls) (hr : r.NamesNodes) :
    Waits (Builder.close r waiting) ls := by
  have htaken := taken_takeInside r.name [] none waiting
  unfold Builder.close
  generalize takeInside r.name [] none waiting = taken at htaken ⊢
  rcases taken with ⟨ts, name, rest⟩
  rcases h.of_taken htaken with ⟨before, hbefore, hts, rfl, hname⟩
  dsimp only
  rcases hid : name.or r.defaultId with _ | id
  · exact hbefore.addTrees hts
  · have hidok : id.id ≠ Tree.leafId := by
      rcases Option.or_eq_some_iff.1 hid with hfirst | ⟨-, hsecond⟩
      · exact hname id hfirst
      · exact hr.default id hsecond
    dsimp only
    split
    · rename_i joined hjoined
      exact hbefore.mergeIntoLast? hidok hts hjoined
    · simpa [Tree.leaves] using hbefore.addTree (.node hts)

/-! ## Reading events -/

/-- The leaf that the match of a token becomes. -/
def leafOf (t : MatchedToken) : LeafToken :=
  ⟨t.kind, t.value, t.space⟩

/-- The leaves that the tokens kept in some events become. -/
def keptLeaves (events : List Event) : List LeafToken :=
  ((matchedTokens events).filter MatchedToken.kept).map leafOf

/-- What a builder has made of some events: trees with the leaves of the tokens kept. -/
structure Holds (b : Builder) (ls : List LeafToken) : Prop where
  waits : Waits b.waiting ls
  opened : ∀ e ∈ b.opened, e.1.NamesNodes

theorem Holds.beginRule {b : Builder} {ls : List LeafToken} (h : b.Holds ls) {r : Rule}
    (hr : r.NamesNodes) (call : Call) : (b.beginRule r call).Holds ls := by
  have hmarked : Waits (if call.transitional then b.waiting else .mark call.rule :: b.waiting)
      ls := by
    split
    · exact h.waits
    · exact h.waits.addMark _
  constructor
  · unfold Builder.beginRule
    dsimp only
    split
    · rename_i n hn
      exact hmarked.addName (hr.node n hn)
    · exact hmarked
  · intro e he
    rcases List.mem_cons.1 he with rfl | he
    · exact hr
    · exact h.opened e he

theorem Holds.endRule {b b' : Builder} {ls : List LeafToken} (h : b.Holds ls)
    (hb' : b.endRule = .ok b') : b'.Holds ls := by
  unfold Builder.endRule at hb'
  split at hb'
  · cases hb'
  · rename_i r transitional rest hopened
    cases hb'
    have hall := h.opened
    rw [hopened] at hall
    refine ⟨?_, fun e he => hall e (List.mem_cons_of_mem _ he)⟩
    dsimp only
    split
    · exact h.waits
    · exact h.waits.close (hall _ List.mem_cons_self)

theorem Holds.addToken {b : Builder} {ls : List LeafToken} (h : b.Holds ls) (t : MatchedToken) :
    (b.addToken t).Holds (ls ++ if t.kept then [leafOf t] else []) := by
  unfold Builder.addToken
  split
  · exact ⟨h.waits.addTree (.leaf _), h.opened⟩
  · simpa using h

theorem keptLeaves_token (t : MatchedToken) (events : List Event) :
    keptLeaves (.token t :: events) = (if t.kept then [leafOf t] else []) ++ keptLeaves events := by
  unfold keptLeaves
  rw [matchedTokens_token, List.filter_cons]
  split <;> rfl

/-- Reading events adds a leaf for every token kept; where an event is passed over, it is one that
leaves a rule. -/
theorem Holds.readEvents {rules : RuleTable} (hrules : ∀ key r, rules.get? key = some r →
      r.NamesNodes) {events : List Event} {skipping : Bool} {b b' : Builder} {ls : List LeafToken}
    (h : b.Holds ls) (hskip : skipping = true → ∃ rule, leavesNext rule events = true)
    (hb' : Builder.readEvents rules skipping b events = .ok b') :
    b'.Holds (ls ++ keptLeaves events) := by
  induction events generalizing skipping b ls with
  | nil =>
    cases hb'
    simpa [keptLeaves] using h
  | cons e events ih =>
    unfold Builder.readEvents at hb'
    split at hb'
    · rename_i hskipping
      rcases hskip hskipping with ⟨rule, hleaves⟩
      cases e with
      | leave c depth todo => exact ih h (fun hfalse => by cases hfalse) hb'
      | enter c depth todo => cases hleaves
      | token t => cases hleaves
    · cases e with
      | token t =>
        rw [keptLeaves_token, ← List.append_assoc]
        exact ih (h.addToken t) (fun hfalse => by cases hfalse) hb'
      | leave c depth todo =>
        dsimp only at hb'
        rcases hend : b.endRule with f | b₁
        · rw [hend] at hb'
          cases hb'
        · rw [hend] at hb'
          exact ih (h.endRule hend) (fun hfalse => by cases hfalse) hb'
      | enter c depth todo =>
        dsimp only at hb'
        split at hb'
        · rename_i hleaves
          exact ih h (fun _ => ⟨c.rule, hleaves⟩) hb'
        · rcases hr : rules.get? c.rule with _ | r
          · rw [hr] at hb'
            cases hb'
          · rw [hr] at hb'
            exact ih (h.beginRule (hrules _ r hr) c) (fun hfalse => by cases hfalse) hb'

end Builder

/-! ## Trees of derivations -/

namespace Tree

theorem tidy_ofTrees {rules : RuleTable} {root : RuleKey} {ts : List Tree} {t : Tree}
    (hts : ∀ u ∈ ts, Tidy u) (ht : ofTrees rules root ts = .ok t) :
    t.Tidy ∧ t.leaves = leavesAll ts := by
  unfold ofTrees at ht
  split at ht
  · cases ht
    exact ⟨hts _ List.mem_cons_self, by simp [leavesAll]⟩
  · split at ht
    · cases ht
    · cases ht
      exact ⟨.node hts, by simp [leaves]⟩

/-- The tree of some events has a leaf for each token kept, in order. -/
theorem leaves_ofEvents {rules : RuleTable} (hrules : ∀ key r, rules.get? key = some r →
      r.NamesNodes) {root : RuleKey} {events : List Event} {t : Tree}
    (ht : ofEvents rules root events = .ok t) :
    t.Tidy ∧ t.leaves = Builder.keptLeaves events := by
  unfold ofEvents at ht
  rcases hread : Builder.readEvents rules false ⟨[], []⟩ events with f | b
  · rw [hread] at ht
    cases ht
  · rw [hread] at ht
    dsimp only at ht
    have hempty : Builder.Holds ⟨[], []⟩ [] :=
      ⟨⟨fun u hu => absurd hu List.not_mem_nil, fun n hn => absurd hn List.not_mem_nil, rfl⟩,
        fun e he => absurd he List.not_mem_nil⟩
    have hholds := hempty.readEvents hrules (fun hfalse => by cases hfalse) hread
    split at ht
    · rcases tidy_ofTrees hholds.waits.tidy ht with ⟨htidy, hleaves⟩
      refine ⟨htidy, ?_⟩
      rw [hleaves, hholds.waits.leaves, List.nil_append]
    · cases ht

end Tree

end Descent
