import Descent.Proofs.Tree.Linked
import Descent.Proofs.Tree.Nodes

/-!
# Counting nodes

The nodes that are merged into others stay in the arena, but where no name of a node asks for a merge
there are none.  The arena has as many nodes then as the trees that wait, and since these only grow,
linking a tree fails just if the tree itself has too many nodes.

Main results:

- `Builder.weight` counts the nodes of the trees that wait, and `Builder.Plain` says that nothing asks for
  a merge.
- `Counted` says of a result that it has a given number of nodes, or that there are too many.
- `LinkedBuilder.counted_readEvents`: reading events makes as many nodes as the trees have.
- `LinkedTree.counted_ofEvents`: so does linking the tree of a derivation.
-/

namespace Descent

/-- No name that a rule gives to nodes asks for a merge. -/
def Rule.Plain (r : Rule) : Prop :=
  ∀ n, r.nodeId = some n ∨ r.defaultId = some n → n.merges = false

/-- A result has a number of nodes, or else these are too many. -/
inductive Counted {α : Type} (size : α → Nat) (n : Nat) : Except Error α → Prop
  | tooLarge (h : maxNodes + 1 < n) : Counted size n (.error .treeTooLarge)
  | ok {x : α} (hsize : size x = n) (hle : n ≤ maxNodes + 1) : Counted size n (.ok x)

theorem Tree.sizeAll_append (ts us : List Tree) : sizeAll (ts ++ us) = sizeAll ts + sizeAll us := by
  induction ts with
  | nil => simp [sizeAll]
  | cons t ts ih => simp [sizeAll, ih, Nat.add_assoc]

/-! ## Trees that wait -/

namespace Builder

variable {rules : RuleTable} {b b' : Builder} {waiting : List Waiting} {r : Rule}

/-- The number of nodes of the trees that wait. -/
def weight (waiting : List Waiting) : Nat :=
  Tree.sizeAll (trees waiting)

@[simp]
theorem weight_tree (t : Tree) : weight (.tree t :: waiting) = weight waiting + t.size := by
  simp [weight, Tree.sizeAll_append, Tree.sizeAll]

@[simp]
theorem weight_mark (rule : RuleKey) : weight (.mark rule :: waiting) = weight waiting := by
  simp [weight]

@[simp]
theorem weight_name (n : NodeId) : weight (.name n :: waiting) = weight waiting := by
  simp [weight]

theorem weight_append_trees (ts : List Tree) :
    weight (ts.reverse.map Waiting.tree ++ waiting) = weight waiting + Tree.sizeAll ts := by
  rw [weight, trees_map_append, Tree.sizeAll_append, weight]

/-- No name that waits asks for a merge, nor does a name of a rule that is open. -/
structure Plain (b : Builder) : Prop where
  names : ∀ n, Waiting.name n ∈ b.waiting → n.merges = false
  opened : ∀ p ∈ b.opened, p.1.Plain

/-- The name under which the end of a declared rule makes a node. -/
def label? (r : Rule) (waiting : List Waiting) : Option NodeId :=
  (takeInside r.name [] none waiting).2.1.or r.defaultId

/-- The number of nodes that the end of a declared rule makes. -/
def made (r : Rule) (waiting : List Waiting) : Nat :=
  if (label? r waiting).isSome then 1 else 0

theorem merges_of_label? {n : NodeId} (hr : r.Plain)
    (hnames : ∀ n, Waiting.name n ∈ waiting → n.merges = false) (h : label? r waiting = some n) :
    n.merges = false := by
  rcases Option.or_eq_some_iff.1 h with hname | ⟨-, hdefault⟩
  · rcases (taken_takeInside r.name [] none waiting).name n hname with hnone | hmem
    · cases hnone
    · exact hnames n hmem
  · exact hr n (.inr hdefault)

/-- The end of a declared rule adds the node that it makes to the trees that wait. -/
theorem weight_close (hr : r.Plain) (hnames : ∀ n, Waiting.name n ∈ waiting → n.merges = false) :
    weight (close r waiting) = weight waiting + made r waiting := by
  have htaken := taken_takeInside r.name [] none waiting
  have hplain {n : NodeId} := merges_of_label? (n := n) hr hnames
  unfold close made
  unfold label? at hplain ⊢
  generalize takeInside r.name [] none waiting = taken at htaken hplain ⊢
  rcases taken with ⟨ts, name, rest⟩
  have htrees : trees waiting = trees rest ++ ts := by simpa using htaken.trees.symm
  have hweight : weight waiting = weight rest + Tree.sizeAll ts := by
    rw [weight, htrees, Tree.sizeAll_append, weight]
  dsimp only at hplain ⊢
  rcases hlabel : name.or r.defaultId with _ | n
  · rw [hweight]
    exact weight_append_trees ts
  · dsimp only
    rw [mergeIntoLast?_of_not_merges (hplain hlabel), hweight]
    simp [Tree.size, Nat.add_assoc]

theorem names_close (hr : r.Plain) (hnames : ∀ n, Waiting.name n ∈ waiting → n.merges = false) :
    ∀ n, Waiting.name n ∈ close r waiting → n.merges = false := by
  have htaken := taken_takeInside r.name [] none waiting
  have hplain {n : NodeId} := merges_of_label? (n := n) hr hnames
  unfold close
  unfold label? at hplain
  generalize takeInside r.name [] none waiting = taken at htaken hplain ⊢
  rcases taken with ⟨ts, name, rest⟩
  have hrest : ∀ n, Waiting.name n ∈ rest → n.merges = false :=
    fun n hn => hnames n (htaken.rest _ hn)
  dsimp only at hplain ⊢
  rcases hlabel : name.or r.defaultId with _ | n
  · simpa using hrest
  · dsimp only
    rw [mergeIntoLast?_of_not_merges (hplain hlabel)]
    simpa using hrest

namespace Plain

theorem addToken (h : b.Plain) (t : MatchedToken) : (b.addToken t).Plain := by
  unfold Builder.addToken
  split
  · exact ⟨by simpa using h.names, h.opened⟩
  · exact h

theorem beginRule (h : b.Plain) (hr : r.Plain) (c : Call) : (b.beginRule r c).Plain := by
  constructor
  · have hmarked : ∀ n, Waiting.name n ∈
        (if c.transitional then b.waiting else .mark c.rule :: b.waiting) → n.merges = false := by
      split
      · exact h.names
      · simpa using h.names
    unfold Builder.beginRule
    dsimp only
    rcases hname : r.nodeId with _ | n
    · exact hmarked
    · intro k hk
      rcases List.mem_cons.1 hk with hk | hk
      · cases hk
        exact hr n (.inl hname)
      · exact hmarked k hk
  · exact List.forall_mem_cons.2 ⟨hr, h.opened⟩

/-- The end of a rule makes nothing that asks for a merge, and no tree that waits gets smaller. -/
theorem endRule (h : b.Plain) (hend : b.endRule = .ok b') :
    b'.Plain ∧ weight b.waiting ≤ weight b'.waiting := by
  unfold Builder.endRule at hend
  split at hend
  · cases hend
  · rename_i r transitional rest hopened
    have hall := h.opened
    rw [hopened, List.forall_mem_cons] at hall
    cases hend
    rcases transitional with _ | _
    · refine ⟨⟨names_close hall.1 h.names, hall.2⟩, ?_⟩
      rw [if_neg Bool.false_ne_true, weight_close hall.1 h.names]
      exact Nat.le_add_right _ _
    · exact ⟨⟨h.names, hall.2⟩, Nat.le_refl _⟩

end Plain

theorem weight_addToken (b : Builder) (t : MatchedToken) :
    weight (b.addToken t).waiting = weight b.waiting + if t.kept then 1 else 0 := by
  unfold addToken
  split <;> simp [Tree.leaf, Tree.size, Tree.sizeAll]

@[simp]
theorem weight_beginRule (b : Builder) (r : Rule) (c : Call) :
    weight (b.beginRule r c).waiting = weight b.waiting := by
  unfold beginRule
  dsimp only
  split <;> split <;> simp

/-- While events are read, the trees that wait only grow. -/
theorem weight_le_of_readEvents (hrules : rules.All fun _ r => r.Plain) (skipping : Bool)
    (events : List Event) (h : b.Plain) (hread : readEvents rules skipping b events = .ok b') :
    weight b.waiting ≤ weight b'.waiting := by
  induction events generalizing b skipping with
  | nil =>
    cases hread
    exact Nat.le_refl _
  | cons e events ih =>
    unfold readEvents at hread
    rcases skipping with _ | _
    · rw [if_neg Bool.false_ne_true] at hread
      cases e with
      | token t =>
        have hgrown := ih false (h.addToken t) hread
        rw [weight_addToken] at hgrown
        exact Nat.le_of_add_right_le hgrown
      | leave c depth todo =>
        dsimp only at hread
        rcases hend : b.endRule with f | b₁
        · rw [hend] at hread
          cases hread
        · rw [hend] at hread
          exact Nat.le_trans (h.endRule hend).2 (ih false (h.endRule hend).1 hread)
      | enter c depth todo =>
        dsimp only at hread
        split at hread
        · exact ih true h hread
        · rcases hr : rules.get? c.rule with _ | r
          · rw [hr] at hread
            cases hread
          · rw [hr] at hread
            have hgrown := ih false (h.beginRule (hrules.get? hr) c) hread
            rwa [weight_beginRule] at hgrown
    · rw [if_pos rfl] at hread
      exact ih false h hread

end Builder

/-! ## Nodes that are made -/

/-- A new node is counted. -/
theorem Arena.counted_alloc (a : Arena) (id : String) (token : Option LeafToken) :
    Counted (fun made => made.2.nodes.size) (a.nodes.size + 1) (a.alloc id token) := by
  unfold alloc
  split
  · rename_i hfull
    exact .tooLarge (Nat.add_lt_add_right hfull 1)
  · rename_i hroom
    exact .ok (Array.size_push _) (Nat.add_le_add_right (Nat.le_of_not_lt hroom) 1)

theorem Arena.size_appendAll (a : Arena) (i : Nat) (is : List Nat) :
    (a.appendAll i is).nodes.size = a.nodes.size := by
  unfold appendAll
  induction is generalizing a with
  | nil => rfl
  | cons j is ih =>
    rw [List.foldl_cons, ih]
    simp [append]

namespace LinkedBuilder

variable {rules : RuleTable} {lb : LinkedBuilder} {b b' : Builder} {r : Rule}

/-- The number of nodes made. -/
def size (lb : LinkedBuilder) : Nat :=
  lb.arena.nodes.size

/-- The leaf of a token is counted. -/
theorem counted_addToken (hsize : lb.size = Builder.weight b.waiting)
    (hle : Builder.weight b.waiting ≤ maxNodes + 1) (t : MatchedToken) :
    Counted size (Builder.weight (b.addToken t).waiting) (lb.addToken t) := by
  rw [Builder.weight_addToken]
  unfold addToken
  split
  · have hcounted := lb.arena.counted_alloc Tree.leafId (some ⟨t.kind, t.value, t.space⟩)
    rw [show lb.arena.nodes.size = _ from hsize] at hcounted
    generalize lb.arena.alloc Tree.leafId (some ⟨t.kind, t.value, t.space⟩) = made at hcounted ⊢
    cases hcounted with
    | tooLarge h => exact .tooLarge h
    | ok hmade hmore => exact .ok hmade hmore
  · exact .ok hsize hle

/-- So is the node that the end of a declared rule makes. -/
theorem counted_close {a : Arena} {slots : List Planted} (hr : r.Plain)
    (hnames : ∀ n, Waiting.name n ∈ slots.map Planted.waiting → n.merges = false)
    (hle : a.nodes.size ≤ maxNodes + 1) :
    Counted (fun closed => closed.1.nodes.size)
      (a.nodes.size + Builder.made r (slots.map Planted.waiting))
      (close r a (slots.map Planted.pending)) := by
  have hwaiting := Planted.waiting_takeInside r.name [] none slots
  have hpending := Planted.pending_takeInside r.name [] none slots
  have hplain {n : NodeId} := Builder.merges_of_label? (n := n) hr hnames
  rw [List.map_nil] at hwaiting hpending
  unfold close Builder.made
  unfold Builder.label? at hplain ⊢
  rw [hwaiting] at hplain ⊢
  rw [hpending]
  generalize Planted.takeInside r.name [] none slots = taken at hplain ⊢
  rcases taken with ⟨ts, name, rest⟩
  dsimp only at hplain ⊢
  rcases hlabel : name.or r.defaultId with _ | n
  · exact .ok rfl hle
  · have hnone : mergeIntoLast? n (ts.map Noted.note) a (rest.map Planted.pending) = none := by
      rcases Bool.or_eq_false_iff.1 (hplain hlabel) with ⟨hshallow, hdeep⟩
      unfold mergeIntoLast?
      split
      · simp [hshallow, hdeep]
      · rfl
    dsimp only
    rw [hnone]
    dsimp only
    have hcounted := a.counted_alloc (r.nodeId.getD n).id none
    generalize a.alloc (r.nodeId.getD n).id none = made at hcounted ⊢
    cases hcounted with
    | tooLarge h => exact .tooLarge h
    | ok hmade hmore => exact .ok ((Arena.size_appendAll _ _ _).trans hmade) hmore

theorem counted_endRule (h : Follows lb b) (hplain : b.Plain)
    (hsize : lb.size = Builder.weight b.waiting)
    (hle : Builder.weight b.waiting ≤ maxNodes + 1) (hend : b.endRule = .ok b') :
    Counted size (Builder.weight b'.waiting) lb.endRule := by
  rcases h with ⟨hopened, slots, hpending, hwaiting, -⟩
  unfold Builder.endRule at hend
  split at hend
  · cases hend
  · rename_i r transitional rest hrules
    cases hend
    have hr : r.Plain := hplain.opened (r, transitional) (hrules ▸ List.mem_cons_self)
    unfold endRule
    rw [hopened, hrules]
    dsimp only
    rcases transitional with _ | _
    · have hnames := hplain.names
      rw [← hsize] at hle
      rw [if_neg Bool.false_ne_true, if_neg Bool.false_ne_true, Builder.weight_close hr hnames, ← hsize]
      rw [hwaiting] at hnames ⊢
      rw [hpending]
      have hcounted := counted_close hr hnames hle
      generalize close r lb.arena (slots.map Planted.pending) = closed at hcounted ⊢
      cases hcounted with
      | tooLarge h => exact .tooLarge h
      | ok hmade hmore => exact .ok hmade hmore
    · rw [if_pos rfl, if_pos rfl]
      exact .ok hsize hle

/-- Reading events makes as many nodes as the trees have in the end. -/
theorem counted_readEvents (hrules : rules.All fun _ r => r.Plain) (skipping : Bool)
    (events : List Event) (h : Follows lb b) (hplain : b.Plain)
    (hsize : lb.size = Builder.weight b.waiting) (hle : Builder.weight b.waiting ≤ maxNodes + 1)
    (hread : Builder.readEvents rules skipping b events = .ok b') :
    Counted size (Builder.weight b'.waiting) (readEvents rules skipping lb events) := by
  induction events generalizing lb b skipping with
  | nil =>
    cases hread
    exact .ok hsize hle
  | cons e events ih =>
    unfold Builder.readEvents at hread
    unfold readEvents
    rcases skipping with _ | _
    · rw [if_neg Bool.false_ne_true] at hread ⊢
      cases e with
      | token t =>
        dsimp only
        have hadded := h.addToken t
        have hcounted := counted_addToken hsize hle t
        generalize lb.addToken t = r at hadded hcounted ⊢
        cases hcounted with
        | tooLarge hmany =>
          -- The trees only grow from here on.
          have hgrown := Builder.weight_le_of_readEvents hrules false events (hplain.addToken t) hread
          exact .tooLarge (Nat.lt_of_lt_of_le hmany hgrown)
        | ok hmade hmore =>
          cases hadded with
          | ok h' => exact ih false h' (hplain.addToken t) hmade hmore hread
      | leave c depth todo =>
        dsimp only at hread ⊢
        have hended := h.endRule
        rcases hend : b.endRule with f | b₁
        · rw [hend] at hread
          cases hread
        · rw [hend] at hread hended
          have hcounted := counted_endRule h hplain hsize hle hend
          generalize lb.endRule = r at hended hcounted ⊢
          have hplain' := (hplain.endRule hend).1
          cases hcounted with
          | tooLarge hmany =>
            have hgrown := Builder.weight_le_of_readEvents hrules false events hplain' hread
            exact .tooLarge (Nat.lt_of_lt_of_le hmany hgrown)
          | ok hmade hmore =>
            cases hended with
            | ok h' => exact ih false h' hplain' hmade hmore hread
      | enter c depth todo =>
        dsimp only at hread ⊢
        by_cases hleaves : Builder.leavesNext c.rule events = true
        · rw [if_pos hleaves] at hread ⊢
          exact ih true h hplain hsize hle hread
        · rw [if_neg hleaves] at hread ⊢
          rcases hr : rules.get? c.rule with _ | r
          · rw [hr] at hread
            cases hread
          · rw [hr] at hread
            have hweight := b.weight_beginRule r c
            exact ih false (h.beginRule r c) (hplain.beginRule (hrules.get? hr) c)
              (hsize.trans hweight.symm) (hweight.symm ▸ hle) hread
    · rw [if_pos rfl] at hread ⊢
      exact ih false h hplain hsize hle hread

end LinkedBuilder

/-! ## Trees that are linked -/

namespace LinkedTree

variable {rules : RuleTable} {root : RuleKey} {events : List Event} {t : Tree}

/-- The number of nodes made. -/
def size (l : LinkedTree) : Nat :=
  l.arena.nodes.size

/-- A tree that is made of several has no fewer nodes. -/
theorem sizeAll_le_of_ofTrees {ts : List Tree} (ht : Tree.ofTrees rules root ts = .ok t) :
    Tree.sizeAll ts ≤ t.size := by
  unfold Tree.ofTrees at ht
  split at ht
  · cases ht
    exact Nat.le_refl _
  · split at ht
    · cases ht
    · cases ht
      exact Nat.le_succ _

theorem counted_ofNodes {a : Arena} {is : List Nat} {ts : List Tree}
    (hsize : a.nodes.size = Tree.sizeAll ts) (hle : a.nodes.size ≤ maxNodes + 1)
    (hlength : is.length = ts.length) (ht : Tree.ofTrees rules root ts = .ok t) :
    Counted size t.size (ofNodes rules root a is) := by
  by_cases hone : ts.length = 1
  · rcases List.length_eq_one_iff.1 hone with ⟨t', rfl⟩
    rcases List.length_eq_one_iff.1 hlength with ⟨i, rfl⟩
    cases ht
    have hsize' : a.nodes.size = t.size := hsize
    exact .ok hsize' (hsize' ▸ hle)
  · rw [ofTrees_eq_of_many hone] at ht
    rw [ofNodes_of_many (by rwa [hlength])]
    rcases hr : rules.get? root with _ | r
    · rw [hr] at ht
      cases ht
    · rw [hr] at ht
      cases ht
      rw [Tree.size, ← hsize]
      have hcounted := a.counted_alloc (topName root r) none
      dsimp only
      generalize a.alloc (topName root r) none = made at hcounted ⊢
      cases hcounted with
      | tooLarge h => exact .tooLarge h
      | ok hmade hmore => exact .ok ((Arena.size_appendAll _ _ _).trans hmade) hmore

/-- Where no name of a node asks for a merge, linking a tree makes as many nodes as the tree has. -/
theorem counted_ofEvents (hrules : rules.All fun _ r => r.Plain)
    (ht : Tree.ofEvents rules root events = .ok t) :
    Counted size t.size (ofEvents rules root events) := by
  have hstart : LinkedBuilder.Follows ⟨.empty, [], []⟩ ⟨[], []⟩ :=
    ⟨rfl, [], rfl, rfl, by simp, List.nodup_nil⟩
  have houtcome := @LinkedBuilder.Follows.readEvents _ _ rules hstart false events
  unfold Tree.ofEvents at ht
  unfold ofEvents
  rcases hread : Builder.readEvents rules false ⟨[], []⟩ events with f | b
  · rw [hread] at ht
    cases ht
  · rw [hread] at ht houtcome
    have hcounted := LinkedBuilder.counted_readEvents hrules false events hstart ⟨by simp, by simp⟩ rfl
      (Nat.zero_le _) hread
    dsimp only at ht
    generalize LinkedBuilder.readEvents rules false ⟨.empty, [], []⟩ events = r at houtcome hcounted ⊢
    split at ht
    · rename_i hclosed
      cases hcounted with
      | tooLarge hmany => exact .tooLarge (Nat.lt_of_lt_of_le hmany (sizeAll_le_of_ofTrees ht))
      | ok hmade hmore =>
        cases houtcome with
        | ok h =>
          rcases h with ⟨hopened, slots, hpending, hwaiting, -⟩
          dsimp only
          rw [hopened, if_pos hclosed]
          refine counted_ofNodes hmade (Nat.le_trans (Nat.le_of_eq hmade) hmore) ?_ ht
          rw [hpending, hwaiting, nodes_pending, trees_waiting, List.length_map, List.length_map]
    · cases ht

end LinkedTree

end Descent
