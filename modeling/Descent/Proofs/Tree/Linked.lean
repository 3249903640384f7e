import Descent.Proofs.Tree.Held

/-!
# Linking follows building

A linked tree is built by the same steps as a tree: what waits are the numbers of the nodes on top of
trees that the arena holds, and no two of these trees have a number in common.  Nodes that were merged into
others stay in the arena, but belong to none of the trees.

Main results:

- `Planted` is what waits, with trees that carry the numbers of their nodes, and `Mirrors` says that an
  arena holds them, each number once.
- `Planted.follows_close`: ending a declared rule does the same to nodes as to trees.
- `Builder.follows_readEvents`: so does reading events.
- `LinkedTree.Holds` says that a linked tree is a given tree, and `LinkedTree.ofEvents_cases` that the
  linked tree of events is their tree, unless it is too large.
-/

namespace Descent

open Arena (Numbered)

/-- What waits, with trees that carry the numbers of their nodes. -/
inductive Planted where
  | tree (t : Numbered)
  | mark (rule : RuleKey)
  | name (n : NodeId)

namespace Planted

/-- What waits as trees. -/
def waiting : Planted → Waiting
  | tree t => .tree t.bare
  | mark rule => .mark rule
  | name n => .name n

/-- What waits as nodes. -/
def pending : Planted → Unplaced
  | tree t => .node t.note
  | mark rule => .mark rule
  | name n => .name n

/-- The numbers of the nodes that wait. -/
def notes : Planted → List Nat
  | tree t => t.notes
  | mark _ | name _ => []

end Planted

/-- An arena holds the trees that wait, and no number belongs to two nodes of them. -/
structure Mirrors (a : Arena) (slots : List Planted) : Prop where
  holds : ∀ t, Planted.tree t ∈ slots → a.Holds none t
  nodup : (slots.flatMap Planted.notes).Nodup

namespace Mirrors

variable {a : Arena} {slots : List Planted}

theorem push_mark (h : Mirrors a slots) (rule : RuleKey) : Mirrors a (.mark rule :: slots) :=
  ⟨fun t ht => h.holds t (by simpa using ht), h.nodup⟩

theorem push_name (h : Mirrors a slots) (n : NodeId) : Mirrors a (.name n :: slots) :=
  ⟨fun t ht => h.holds t (by simpa using ht), h.nodup⟩

end Mirrors

namespace Planted

variable {a a' : Arena} {slots rest : List Planted} {ts : List Numbered} {t t' : Numbered} {r : Rule}

/-! ## What is taken from inside a rule -/

/-- What waits after the beginning of a rule: the trees in order, the name that came last, and what
waits before it. -/
def takeInside (rule : RuleKey) (ts : List Numbered) (name : Option NodeId) :
    List Planted → List Numbered × Option NodeId × List Planted
  | [] => (ts, name, [])
  | .tree t :: rest => takeInside rule (t :: ts) name rest
  | .name n :: rest => takeInside rule ts (name.or (some n)) rest
  | .mark r :: rest => if r = rule then (ts, name, rest) else takeInside rule ts name rest

theorem waiting_takeInside (rule : RuleKey) (ts : List Numbered) (name : Option NodeId)
    (slots : List Planted) :
    Builder.takeInside rule (ts.map Noted.bare) name (slots.map waiting) =
      ((takeInside rule ts name slots).1.map Noted.bare, (takeInside rule ts name slots).2.1,
        (takeInside rule ts name slots).2.2.map waiting) := by
  induction slots generalizing ts name with
  | nil => rfl
  | cons slot slots ih =>
    cases slot with
    | tree t => exact ih (t :: ts) name
    | name n => exact ih ts (name.or (some n))
    | mark r =>
      rw [List.map_cons, waiting, Builder.takeInside, takeInside]
      by_cases h : r = rule
      · rw [if_pos h, if_pos h]
      · rw [if_neg h, if_neg h]
        exact ih ts name

theorem pending_takeInside (rule : RuleKey) (ts : List Numbered) (name : Option NodeId)
    (slots : List Planted) :
    LinkedBuilder.takeInside rule (ts.map Noted.note) name (slots.map pending) =
      ((takeInside rule ts name slots).1.map Noted.note, (takeInside rule ts name slots).2.1,
        (takeInside rule ts name slots).2.2.map pending) := by
  induction slots generalizing ts name with
  | nil => rfl
  | cons slot slots ih =>
    cases slot with
    | tree t => exact ih (t :: ts) name
    | name n => exact ih ts (name.or (some n))
    | mark r =>
      rw [List.map_cons, pending, LinkedBuilder.takeInside, takeInside]
      by_cases h : r = rule
      · rw [if_pos h, if_pos h]
      · rw [if_neg h, if_neg h]
        exact ih ts name

/-- Nothing is lost or comes twice when what waits is taken from inside a rule. -/
structure Taken (slots : List Planted) (ts : List Numbered) (taken : List Numbered)
    (rest : List Planted) : Prop where
  notes : (Noted.notesAll taken ++ rest.flatMap Planted.notes).Perm
    (Noted.notesAll ts ++ slots.flatMap Planted.notes)
  taken : ∀ t ∈ taken, t ∈ ts ∨ .tree t ∈ slots
  rest : ∀ slot ∈ rest, slot ∈ slots

theorem taken_takeInside (rule : RuleKey) (ts : List Numbered) (name : Option NodeId)
    (slots : List Planted) :
    Taken slots ts (takeInside rule ts name slots).1 (takeInside rule ts name slots).2.2 := by
  induction slots generalizing ts name with
  | nil => exact ⟨List.Perm.refl _, fun t ht => .inl ht, fun slot hslot => hslot⟩
  | cons slot slots ih =>
    cases slot with
    | tree t =>
      rcases ih (t :: ts) name with ⟨hnotes, htaken, hrest⟩
      refine ⟨hnotes.trans ?_, ?_, fun slot hslot => List.mem_cons_of_mem _ (hrest slot hslot)⟩
      · rw [Noted.notesAll, List.flatMap_cons, Planted.notes, ← List.append_assoc]
        exact List.perm_append_comm.append_right _
      · intro u hu
        rcases htaken u hu with hu | hu
        · rcases List.mem_cons.1 hu with rfl | hu
          · exact .inr List.mem_cons_self
          · exact .inl hu
        · exact .inr (List.mem_cons_of_mem _ hu)
    | name n =>
      rcases ih ts (name.or (some n)) with ⟨hnotes, htaken, hrest⟩
      exact ⟨hnotes, fun t ht => (htaken t ht).imp_right (List.mem_cons_of_mem _),
        fun slot hslot => List.mem_cons_of_mem _ (hrest slot hslot)⟩
    | mark r =>
      rw [takeInside]
      split
      · exact ⟨List.Perm.refl _, fun t ht => .inl ht,
          fun slot hslot => List.mem_cons_of_mem _ hslot⟩
      · rcases ih ts name with ⟨hnotes, htaken, hrest⟩
        exact ⟨hnotes, fun t ht => (htaken t ht).imp_right (List.mem_cons_of_mem _),
          fun slot hslot => List.mem_cons_of_mem _ (hrest slot hslot)⟩

/-- Trees that were taken from what waits, and what waits before them. -/
structure Apart (a : Arena) (ts : List Numbered) (rest : List Planted) : Prop where
  trees : ∀ t ∈ ts, a.Holds none t
  before : ∀ t, Planted.tree t ∈ rest → a.Holds none t
  nodup : (Noted.notesAll ts ++ rest.flatMap Planted.notes).Nodup

theorem apart_takeInside (h : Mirrors a slots) (rule : RuleKey) :
    Apart a (takeInside rule [] none slots).1 (takeInside rule [] none slots).2.2 := by
  rcases taken_takeInside rule [] none slots with ⟨hnotes, htaken, hrest⟩
  refine ⟨?_, fun t ht => h.holds t (hrest _ ht), hnotes.nodup_iff.2 h.nodup⟩
  intro t ht
  rcases htaken t ht with hnone | hmem
  · cases hnone
  · exact h.holds t hmem

/-! ## Ending a rule -/

theorem notes_subset_of_mem {slot : Planted} (h : slot ∈ slots) :
    slot.notes ⊆ slots.flatMap Planted.notes :=
  fun _ hi => List.mem_flatMap.2 ⟨slot, h, hi⟩

/-- A tree takes the place of what trees were taken into it. -/
theorem Apart.replace (h : Apart a ts (.tree t :: rest)) (htaken : Arena.TakesIn a a' none t ts t')
    (hnotes : Noted.KeepsNotes t t' (Noted.notesAll ts)) : Mirrors a' (.tree t' :: rest) := by
  have hperm : (t.notes ++ Noted.notesAll ts ++ rest.flatMap Planted.notes).Nodup := by
    refine List.Perm.nodup ?_ h.nodup
    rw [List.flatMap_cons, ← List.append_assoc]
    exact List.perm_append_comm.append_right _
  rcases hnotes with ⟨kept, hsub, hkept⟩
  constructor
  · intro u hu
    rcases List.mem_cons.1 hu with hu | hu
    · cases hu
      exact htaken.holds
    · apply (h.before u (List.mem_cons_of_mem _ hu)).of_changes htaken.changes
      intro i hi hchanged
      exact List.disjoint_of_nodup_append hperm hchanged (notes_subset_of_mem hu hi)
  · rw [List.flatMap_cons, Planted.notes, hkept]
    refine hperm.sublist ?_
    exact ((List.Sublist.refl _).append hsub).append (List.Sublist.refl _)

/-- Trees that were taken may be put back. -/
theorem Apart.append (h : Apart a ts rest) : Mirrors a (ts.reverse.map Planted.tree ++ rest) := by
  constructor
  · intro t ht
    rcases List.mem_append.1 ht with ht | ht
    · rcases List.mem_map.1 ht with ⟨u, hu, heq⟩
      cases heq
      exact h.trees t (List.mem_reverse.1 hu)
    · exact h.before t ht
  · rw [List.flatMap_append]
    refine List.Perm.nodup ?_ h.nodup
    apply List.Perm.append_right
    rw [Noted.notesAll_eq_flatMap, List.flatMap_map]
    exact (List.reverse_perm ts).symm.flatMap_right _

/-- A new node of trees that were taken. -/
theorem Apart.wrap {id : String} {i : Nat} (h : Apart a ts rest)
    (halloc : a.alloc id none = .ok (i, a')) :
    Mirrors (a'.appendAll i (ts.map Noted.note)) (.tree (.node i id none ts) :: rest) := by
  rcases Arena.holds_alloc halloc with ⟨hnew, hold⟩
  have hfresh : ∀ {u : Numbered}, a.Holds none u → i ∉ u.notes := fun hu => (hold hu).2
  have hrest : ∀ u, Planted.tree u ∈ rest → a'.Holds none u := fun u hu => (hold (h.before u hu)).1
  have hts : ∀ u ∈ ts, a'.Holds none u := fun u hu => (hold (h.trees u hu)).1
  have happart : Apart a' ts (.tree (.node i id none []) :: rest) := by
    refine ⟨hts, ?_, ?_⟩
    · intro u hu
      rcases List.mem_cons.1 hu with hu | hu
      · cases hu
        exact hnew
      · exact hrest u hu
    · rw [List.flatMap_cons]
      refine List.Perm.nodup List.perm_middle.symm (List.nodup_cons.2 ⟨?_, h.nodup⟩)
      intro hmem
      rcases List.mem_append.1 hmem with hmem | hmem
      · rw [Noted.notesAll_eq_flatMap] at hmem
        rcases List.mem_flatMap.1 hmem with ⟨u, hu, hi⟩
        exact hfresh (h.trees u hu) hi
      · rcases List.mem_flatMap.1 hmem with ⟨slot, hslot, hi⟩
        cases slot with
        | tree u => exact hfresh (h.before u hslot) hi
        | mark rule | name n => cases hi
  have hnodup : ((Noted.node i id none []).notes ++ Noted.notesAll ts).Nodup := by
    have hall := happart.nodup
    rw [List.flatMap_cons, ← List.append_assoc] at hall
    exact List.Perm.nodup List.perm_append_comm (List.nodup_append.1 hall).1
  have htaken := Arena.takesIn_appendAll hnew (fun u hu => ⟨_, hts u hu⟩) hnodup
  apply happart.replace htaken
  exact ⟨_, List.Sublist.refl _, Noted.notes_mergeShallow _ _⟩

/-- Taking nodes into the one that waits last follows taking trees into the tree that does. -/
theorem follows_mergeIntoLast? (h : Apart a ts rest) (n : NodeId) :
    (Builder.mergeIntoLast? n (ts.map Noted.bare) (rest.map waiting) = none ∧
      LinkedBuilder.mergeIntoLast? n (ts.map Noted.note) a (rest.map pending) = none) ∨
    ∃ a' rest', Builder.mergeIntoLast? n (ts.map Noted.bare) (rest.map waiting) =
        some (rest'.map waiting) ∧
      LinkedBuilder.mergeIntoLast? n (ts.map Noted.note) a (rest.map pending) = some a' ∧
      rest'.map pending = rest.map pending ∧ Mirrors a' rest' := by
  rcases rest with _ | ⟨t | _ | _, rest⟩
  · exact .inl ⟨rfl, rfl⟩
  · have ht : a.Holds none t := h.before t List.mem_cons_self
    have hnodup : (t.notes ++ Noted.notesAll ts).Nodup := by
      have hall := h.nodup
      rw [List.flatMap_cons, ← List.append_assoc] at hall
      exact List.Perm.nodup List.perm_append_comm (List.nodup_append.1 hall).1
    have hts : ∀ u ∈ ts, ∃ q, a.Holds q u := fun u hu => ⟨_, h.trees u hu⟩
    simp only [List.map_cons, waiting, pending, Builder.mergeIntoLast?, LinkedBuilder.mergeIntoLast?,
      ht.idAt, Noted.id_bare]
    by_cases hid : t.id = n.id
    · rw [if_pos hid, if_pos hid]
      by_cases hshallow : n.mergesShallow = true
      · rw [if_pos hshallow, if_pos hshallow]
        have htaken := Arena.takesIn_appendAll ht hts hnodup
        have hkeeps : Noted.KeepsNotes t (t.mergeShallow ts) (Noted.notesAll ts) :=
          ⟨_, List.Sublist.refl _, Noted.notes_mergeShallow _ _⟩
        refine .inr ⟨_, .tree (t.mergeShallow ts) :: rest, ?_, rfl, ?_, h.replace htaken hkeeps⟩
        · rw [List.map_cons, waiting, Noted.bare_mergeShallow]
        · rw [List.map_cons, pending, Noted.note_mergeShallow]
      · rw [if_neg hshallow, if_neg hshallow]
        by_cases hdeep : n.mergesDeep = true
        · rw [if_pos hdeep, if_pos hdeep]
          have htaken := Arena.takesIn_mergeDeepAll ht hts hnodup
          refine .inr ⟨_, .tree (t.mergeDeepAll ts) :: rest, ?_, rfl, ?_,
            h.replace htaken (Noted.keepsNotes_mergeDeepAll t ts)⟩
          · rw [List.map_cons, waiting, Noted.bare_mergeDeepAll]
          · rw [List.map_cons, pending, (Noted.sameTop_mergeDeepAll t ts).note]
        · rw [if_neg hdeep, if_neg hdeep]
          exact .inl ⟨rfl, rfl⟩
    · rw [if_neg hid, if_neg hid]
      exact .inl ⟨rfl, rfl⟩
  · exact .inl ⟨rfl, rfl⟩
  · exact .inl ⟨rfl, rfl⟩

/-- Ending a declared rule does the same to nodes as to trees, unless there are too many. -/
theorem follows_close (h : Mirrors a slots) (r : Rule) :
    LinkedBuilder.close r a (slots.map pending) = .error .treeTooLarge ∨
    ∃ a' slots', LinkedBuilder.close r a (slots.map pending) = .ok (a', slots'.map pending) ∧
      Builder.close r (slots.map waiting) = slots'.map waiting ∧ Mirrors a' slots' := by
  have hwaiting := waiting_takeInside r.name [] none slots
  have hpending := pending_takeInside r.name [] none slots
  have hapart := apart_takeInside h r.name
  rw [List.map_nil] at hwaiting hpending
  unfold LinkedBuilder.close Builder.close
  rw [hwaiting, hpending]
  generalize takeInside r.name [] none slots = taken at hapart ⊢
  rcases taken with ⟨ts, name, rest⟩
  dsimp only at hapart ⊢
  rcases name.or r.defaultId with _ | n
  · refine .inr ⟨a, ts.reverse.map Planted.tree ++ rest, ?_, ?_, hapart.append⟩
    · simp [List.map_reverse, Function.comp_def, pending]
    · simp [List.map_reverse, Function.comp_def, waiting]
  · dsimp only
    rcases follows_mergeIntoLast? hapart n with ⟨hnone, hnone'⟩ | ⟨a', rest', hsome, hsome', hsame, hmirrors⟩
    · rw [hnone, hnone']
      dsimp only
      rcases halloc : a.alloc (r.nodeId.getD n).id none with e | ⟨i, a'⟩
      · left
        unfold Arena.alloc at halloc
        split at halloc <;> cases halloc
        rfl
      · refine .inr ⟨_, .tree (.node i (r.nodeId.getD n).id none ts) :: rest, rfl, ?_, hapart.wrap halloc⟩
        rw [List.map_cons, waiting, Noted.bare_node]
    · rw [hsome, hsome']
      refine .inr ⟨a', rest', ?_, rfl, hmirrors⟩
      rw [hsame]

end Planted

/-! ## Reading events -/

/-- A builder of linked trees has the nodes of the trees of another builder. -/
structure LinkedBuilder.Follows (lb : LinkedBuilder) (b : Builder) : Prop where
  opened : lb.opened = b.opened
  slots : ∃ slots : List Planted, lb.pending = slots.map Planted.pending ∧
    b.waiting = slots.map Planted.waiting ∧ Mirrors lb.arena slots

/-- What becomes of linked nodes and of trees by one operation: it fails for both alike, or there are too
many nodes, or the nodes are those of the trees again. -/
inductive Outcome {α β : Type} (Follows : α → β → Prop) : Except Error α → Except Failure β → Prop
  | tooLarge (r : Except Failure β) : Outcome Follows (.error .treeTooLarge) r
  | internal (detail : String) : Outcome Follows (.error (.internal detail)) (.error (.internal detail))
  | ok {x : α} {y : β} (h : Follows x y) : Outcome Follows (.ok x) (.ok y)

namespace LinkedBuilder.Follows

variable {lb : LinkedBuilder} {b : Builder} {rules : RuleTable}

theorem beginRule (h : Follows lb b) (r : Rule) (c : Call) :
    Follows (lb.beginRule r c) (b.beginRule r c) := by
  rcases lb with ⟨a, pending, opened⟩
  rcases b with ⟨waiting, opened'⟩
  rcases h with ⟨hopened, slots, hpending, hwaiting, hmirrors⟩
  dsimp only at hopened hpending hwaiting hmirrors
  subst hopened hpending hwaiting
  have hmarked : Mirrors a (.mark c.rule :: slots) := hmirrors.push_mark c.rule
  unfold LinkedBuilder.beginRule Builder.beginRule
  dsimp only
  rcases c.transitional with _ | _ <;> rcases r.nodeId with _ | n
  · exact ⟨rfl, .mark c.rule :: slots, rfl, rfl, hmarked⟩
  · exact ⟨rfl, .name n :: .mark c.rule :: slots, rfl, rfl, hmarked.push_name n⟩
  · exact ⟨rfl, slots, rfl, rfl, hmirrors⟩
  · exact ⟨rfl, .name n :: slots, rfl, rfl, hmirrors.push_name n⟩

theorem endRule (h : Follows lb b) : Outcome Follows lb.endRule b.endRule := by
  rcases h with ⟨hopened, slots, hpending, hwaiting, hmirrors⟩
  unfold LinkedBuilder.endRule Builder.endRule
  rw [hopened, hpending, hwaiting]
  rcases b.opened with _ | ⟨⟨r, transitional⟩, opened⟩
  · exact .internal _
  · dsimp only
    rcases transitional with _ | _
    · rw [if_neg Bool.false_ne_true, if_neg Bool.false_ne_true]
      rcases Planted.follows_close hmirrors r with hlarge | ⟨a', slots', hclose, hclose', hmirrors'⟩
      · rw [hlarge]
        exact .tooLarge _
      · rw [hclose, hclose']
        exact .ok ⟨rfl, slots', rfl, rfl, hmirrors'⟩
    · rw [if_pos rfl, if_pos rfl]
      exact .ok ⟨rfl, slots, rfl, rfl, hmirrors⟩

theorem addToken (h : Follows lb b) (t : MatchedToken) :
    Outcome Follows (lb.addToken t) (.ok (b.addToken t)) := by
  rcases h with ⟨hopened, slots, hpending, hwaiting, hmirrors⟩
  unfold LinkedBuilder.addToken Builder.addToken
  by_cases hkept : t.kept = true
  · rw [if_pos hkept, if_pos hkept]
    rcases halloc : lb.arena.alloc Tree.leafId (some ⟨t.kind, t.value, t.space⟩) with e | ⟨i, a⟩
    · unfold Arena.alloc at halloc
      split at halloc <;> cases halloc
      exact .tooLarge _
    · rcases Arena.holds_alloc halloc with ⟨hnew, hold⟩
      refine .ok ⟨hopened, .tree (.node i Tree.leafId (some ⟨t.kind, t.value, t.space⟩) []) :: slots, ?_, ?_,
        ?_, ?_⟩
      · simp [hpending, Planted.pending]
      · simp [hwaiting, Planted.waiting, Noted.bare_node, Tree.leaf]
      · intro u hu
        rcases List.mem_cons.1 hu with hu | hu
        · cases hu
          exact hnew
        · exact (hold (hmirrors.holds u hu)).1
      · rw [List.flatMap_cons]
        refine List.nodup_cons.2 ⟨?_, hmirrors.nodup⟩
        intro hmem
        rcases List.mem_flatMap.1 hmem with ⟨slot, hslot, hi⟩
        cases slot with
        | tree u => exact (hold (hmirrors.holds u hslot)).2 hi
        | mark rule | name n => cases hi
  · rw [if_neg hkept, if_neg hkept]
    exact .ok ⟨hopened, slots, hpending, hwaiting, hmirrors⟩

/-- Reading events does the same to nodes as to trees. -/
theorem readEvents (h : Follows lb b) (skipping : Bool) (events : List Event) :
    Outcome Follows (LinkedBuilder.readEvents rules skipping lb events)
      (Builder.readEvents rules skipping b events) := by
  induction events generalizing lb b skipping with
  | nil => exact .ok h
  | cons e events ih =>
    unfold LinkedBuilder.readEvents Builder.readEvents
    rcases skipping with _ | _
    · rw [if_neg Bool.false_ne_true, if_neg Bool.false_ne_true]
      cases e with
      | token t =>
        dsimp only
        have hadded := h.addToken t
        generalize lb.addToken t = r at hadded ⊢
        cases hadded with
        | tooLarge => exact .tooLarge _
        | ok h' => exact ih h' false
      | leave c depth todo =>
        dsimp only
        have hended := h.endRule
        generalize lb.endRule = r at hended ⊢
        generalize b.endRule = r' at hended ⊢
        cases hended with
        | tooLarge => exact .tooLarge _
        | internal => exact .internal _
        | ok h' => exact ih h' false
      | enter c depth todo =>
        dsimp only
        by_cases hleaves : Builder.leavesNext c.rule events = true
        · rw [if_pos hleaves, if_pos hleaves]
          exact ih h true
        · rw [if_neg hleaves, if_neg hleaves]
          rcases rules.get? c.rule with _ | r
          · exact .internal _
          · exact ih (h.beginRule r c) false
    · rw [if_pos rfl, if_pos rfl]
      exact ih h false

end LinkedBuilder.Follows

/-! ## Linked trees -/

namespace LinkedTree

variable {rules : RuleTable} {root : RuleKey} {slots : List Planted}

/-- A linked tree is a given tree: its arena holds it, each number once, and the node on top has no
parent. -/
structure Holds (l : LinkedTree) (t : Numbered) : Prop where
  holds : l.arena.Holds none t
  root_eq : l.root = t.note
  nodup : t.notes.Nodup

/-- The trees that wait. -/
def numbered (slots : List Planted) : List Numbered :=
  (slots.filterMap fun slot => match slot with
    | .tree t => some t
    | _ => none).reverse

theorem nodes_pending (slots : List Planted) :
    LinkedBuilder.nodes (slots.map Planted.pending) = (numbered slots).map Noted.note := by
  unfold LinkedBuilder.nodes numbered
  rw [List.map_reverse, List.filterMap_map, List.map_filterMap]
  congr 2
  funext slot
  cases slot <;> rfl

theorem trees_waiting (slots : List Planted) :
    Builder.trees (slots.map Planted.waiting) = (numbered slots).map Noted.bare := by
  unfold Builder.trees numbered
  rw [List.map_reverse, List.filterMap_map, List.map_filterMap]
  congr 2
  funext slot
  cases slot <;> rfl

theorem apart_numbered {a : Arena} (h : Mirrors a slots) : Planted.Apart a (numbered slots) [] := by
  refine ⟨?_, by simp, ?_⟩
  · intro t ht
    apply h.holds
    rcases List.mem_filterMap.1 (List.mem_reverse.1 ht) with ⟨slot, hslot, hsome⟩
    cases slot with
    | tree u =>
      cases hsome
      exact hslot
    | mark rule | name n => cases hsome
  · have hnotes : slots.flatMap Planted.notes =
        (slots.filterMap fun slot => match slot with
          | .tree t => some t
          | _ => none).flatMap Noted.notes := by
      clear h
      induction slots with
      | nil => rfl
      | cons slot slots ih => cases slot <;> simp [ih, Planted.notes]
    have hall := h.nodup
    rw [hnotes] at hall
    rw [List.flatMap_nil, List.append_nil, Noted.notesAll_eq_flatMap]
    exact List.Perm.nodup ((List.reverse_perm _).symm.flatMap_right _) hall

/-- The name of a node on top of several nodes, or of none. -/
def topName (root : RuleKey) (r : Rule) : String :=
  match r.nodeId.or r.defaultId with
  | some n => n.id
  | none => "#" ++ root.render

theorem ofNodes_of_many {is : List Nat} (h : is.length ≠ 1) (a : Arena) :
    ofNodes rules root a is =
      match rules.get? root with
      | none => .error (.internal ("trace refers to unknown rule " ++ root.render))
      | some r =>
        match a.alloc (topName root r) none with
        | .error e => .error e
        | .ok (i, a) => .ok ⟨a.appendAll i is, i⟩ := by
  unfold ofNodes
  split
  · exact absurd rfl h
  · rfl

theorem ofTrees_eq_of_many {ts : List Tree} (h : ts.length ≠ 1) :
    Tree.ofTrees rules root ts =
      match rules.get? root with
      | none => .error (.internal ("trace refers to unknown rule " ++ root.render))
      | some r => .ok (.node (topName root r) none ts) := by
  unfold Tree.ofTrees
  split
  · exact absurd rfl h
  · rfl

/-- One linked tree of nodes is one tree of their trees. -/
theorem ofNodes_cases {a : Arena} {ts : List Numbered} (h : Planted.Apart a ts []) (rules : RuleTable)
    (root : RuleKey) :
    Outcome (fun l t => ∃ u, Holds l u ∧ t = u.bare) (ofNodes rules root a (ts.map Noted.note))
      (Tree.ofTrees rules root (ts.map Noted.bare)) := by
  by_cases hone : ts.length = 1
  · rcases List.length_eq_one_iff.1 hone with ⟨t, rfl⟩
    refine .ok ⟨t, ⟨h.trees t List.mem_cons_self, rfl, ?_⟩, rfl⟩
    have hnodup := h.nodup
    simpa [Noted.notesAll] using hnodup
  · rw [ofNodes_of_many (by rwa [List.length_map]), ofTrees_eq_of_many (by rwa [List.length_map])]
    rcases rules.get? root with _ | r
    · exact .internal _
    · dsimp only
      rcases halloc : a.alloc (topName root r) none with e | ⟨i, a'⟩
      · unfold Arena.alloc at halloc
        split at halloc <;> cases halloc
        exact .tooLarge _
      · have hmirrors := h.wrap halloc
        have hnodup := hmirrors.nodup
        rw [List.flatMap_cons, List.flatMap_nil, List.append_nil] at hnodup
        refine .ok ⟨.node i (topName root r) none ts,
          ⟨hmirrors.holds _ List.mem_cons_self, rfl, hnodup⟩, ?_⟩
        rw [Noted.bare_node]

/-- The linked tree of events is their tree, unless there are too many nodes. -/
theorem ofEvents_cases (rules : RuleTable) (root : RuleKey) (events : List Event) :
    Outcome (fun l t => ∃ u, Holds l u ∧ t = u.bare) (ofEvents rules root events)
      (Tree.ofEvents rules root events) := by
  have hstart : LinkedBuilder.Follows ⟨.empty, [], []⟩ ⟨[], []⟩ :=
    ⟨rfl, [], rfl, rfl, by simp, List.nodup_nil⟩
  have hread := @LinkedBuilder.Follows.readEvents _ _ rules hstart false events
  unfold ofEvents Tree.ofEvents
  generalize LinkedBuilder.readEvents rules false ⟨.empty, [], []⟩ events = r at hread ⊢
  generalize Builder.readEvents rules false ⟨[], []⟩ events = r' at hread ⊢
  cases hread with
  | tooLarge => exact .tooLarge _
  | internal => exact .internal _
  | @ok lb b h =>
    rcases h with ⟨hopened, slots, hpending, hwaiting, hmirrors⟩
    dsimp only
    rw [hopened, hpending, hwaiting]
    by_cases hclosed : b.opened.isEmpty = true
    · rw [if_pos hclosed, if_pos hclosed, nodes_pending, trees_waiting]
      exact ofNodes_cases (apart_numbered hmirrors) rules root
    · rw [if_neg hclosed, if_neg hclosed]
      exact .internal _

end LinkedTree

end Descent
