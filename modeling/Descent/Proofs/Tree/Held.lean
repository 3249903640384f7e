import Mathlib.Data.List.Nodup
import Mathlib.Data.List.Perm.Subperm
import Descent.Proofs.Tree.Noted
import Descent.Tree.Arena

/-!
# Trees that an arena holds

An arena holds a tree whose notes are numbers if under each number it has the node that the tree has there,
with the numbers of the children in order and that of the node above as the parent.  Numbers that do not
belong to the tree may have any nodes, so that what is done to other trees leaves it in place.

Main results:

- `Arena.Holds` says that an arena holds a tree.
- `Arena.Changes` says that nodes are changed under given numbers only.
- `Arena.holds_appendAll` and `Arena.holds_mergeDeepAll`: making nodes the children of another one holds
  the tree that they are taken into.
-/

namespace Descent.Arena

/-- A tree whose notes are the numbers of its nodes. -/
abbrev Numbered :=
  Noted Nat

variable {a a' a'' : Arena} {p q : Option Nat} {t u : Numbered} {us : List Numbered} {i j : Nat}

/-- An arena holds a tree below a parent. -/
inductive Holds (a : Arena) : (parent : Option Nat) → Numbered → Prop
  | node {parent : Option Nat} {i : Nat} {id : String} {token : Option LeafToken}
      {children : List Numbered} (hnode : a.get? i = some ⟨id, token, children.map Noted.note, parent⟩)
      (hbelow : ∀ c ∈ children, Holds a (some i) c) : Holds a parent (.node i id token children)

/-- The nodes of all numbers but some are the same. -/
structure Changes (a a' : Arena) (is : List Nat) : Prop where
  size_eq : a'.nodes.size = a.nodes.size
  get?_eq : ∀ i ∉ is, a'.get? i = a.get? i

theorem Changes.refl (a : Arena) (is : List Nat) : Changes a a is :=
  ⟨rfl, fun _ _ => rfl⟩

theorem Changes.trans {is : List Nat} (h : Changes a a' is) (h' : Changes a' a'' is) :
    Changes a a'' is :=
  ⟨h'.size_eq.trans h.size_eq, fun i hi => (h'.get?_eq i hi).trans (h.get?_eq i hi)⟩

theorem Changes.mono {is js : List Nat} (h : Changes a a' is) (hsub : is ⊆ js) : Changes a a' js :=
  ⟨h.size_eq, fun i hi => h.get?_eq i (mt (hsub ·) hi)⟩

namespace Holds

theorem get?_note (h : Holds a p t) :
    a.get? t.note = some ⟨t.id, t.token, t.children.map Noted.note, p⟩ := by
  cases h
  assumption

theorem child (h : Holds a p t) : ∀ c ∈ t.children, Holds a (some t.note) c := by
  cases h
  assumption

theorem of_get? (hnode : a.get? t.note = some ⟨t.id, t.token, t.children.map Noted.note, p⟩)
    (hbelow : ∀ c ∈ t.children, Holds a (some t.note) c) : Holds a p t := by
  cases t
  exact .node hnode hbelow

theorem idAt (h : Holds a p t) : a.idAt t.note = t.id := by
  rw [Arena.idAt, h.get?_note]
  rfl

theorem childrenAt (h : Holds a p t) : a.childrenAt t.note = t.children.map Noted.note := by
  rw [Arena.childrenAt, h.get?_note]
  rfl

/-- A tree is held as long as its own nodes do not change. -/
theorem congr (h : Holds a p t) (hsame : ∀ i ∈ t.notes, a'.get? i = a.get? i) : Holds a' p t := by
  induction h with
  | @node parent i id token children hnode hbelow ih =>
    refine .node ?_ fun c hc => ih c hc fun j hj => hsame j ?_
    · rw [hsame i (by simp [Noted.notes])]
      exact hnode
    · rw [Noted.notes, Noted.notesAll_eq_flatMap]
      exact List.mem_cons_of_mem _ (List.mem_flatMap.2 ⟨c, hc, hj⟩)

/-- A tree is held if nodes change under other numbers only. -/
theorem of_changes {is : List Nat} (h : Holds a p t) (hchanges : Changes a a' is)
    (hdisjoint : t.notes.Disjoint is) : Holds a' p t :=
  h.congr fun i hi => hchanges.get?_eq i fun his => hdisjoint hi his

theorem lt_size (h : Holds a p t) : ∀ i ∈ t.notes, i < a.nodes.size := by
  induction h with
  | @node parent i id token children hnode hbelow ih =>
    intro j hj
    rw [Noted.notes, Noted.notesAll_eq_flatMap] at hj
    rcases List.mem_cons.1 hj with rfl | hj
    · exact (Array.getElem?_eq_some_iff.1 hnode).1
    · rcases List.mem_flatMap.1 hj with ⟨c, hc, hj⟩
      exact ih c hc j hj

end Holds

theorem note_mem_notes (t : Numbered) : t.note ∈ t.notes := by
  cases t
  exact List.mem_cons_self

theorem notes_eq (t : Numbered) : t.notes = t.note :: Noted.notesAll t.children := by
  cases t
  rfl

/-- Trees below a node are held if nodes change under other numbers only. -/
theorem below_of_changes {is : List Nat} (h : ∀ u ∈ us, Holds a p u) (hchanges : Changes a a' is)
    (hdisjoint : (Noted.notesAll us).Disjoint is) : ∀ u ∈ us, Holds a' p u := by
  intro u hu
  apply (h u hu).of_changes hchanges
  intro i hi
  apply hdisjoint
  rw [Noted.notesAll_eq_flatMap]
  exact List.mem_flatMap.2 ⟨u, hu, hi⟩

/-! ## New nodes -/

theorem alloc_eq_ok {id : String} {token : Option LeafToken} (h : a.alloc id token = .ok (i, a')) :
    i = a.nodes.size ∧ a' = ⟨a.nodes.push ⟨id, token, [], none⟩⟩ := by
  unfold alloc at h
  split at h
  · cases h
  · cases h
    exact ⟨rfl, rfl⟩

/-- A new node is a tree of its own, and all trees stay in place. -/
theorem holds_alloc {id : String} {token : Option LeafToken} (h : a.alloc id token = .ok (i, a')) :
    Holds a' none (.node i id token []) ∧ ∀ {p t}, Holds a p t → Holds a' p t ∧ i ∉ t.notes := by
  rcases alloc_eq_ok h with ⟨rfl, rfl⟩
  constructor
  · refine .node ?_ (by simp)
    simp [get?]
  · intro p t ht
    constructor
    · apply ht.congr
      intro j hj
      have hlt := ht.lt_size j hj
      simp [get?, Array.getElem?_push, Nat.ne_of_lt hlt]
    · intro hmem
      exact Nat.lt_irrefl _ (ht.lt_size _ hmem)

/-! ## New children -/

theorem get?_append (a : Arena) (i j k : Nat) :
    (a.append i j).get? k = (a.get? k).map fun n =>
      { n with
        children := if i = k then n.children ++ [j] else n.children
        parent := if j = k then some i else n.parent } := by
  unfold append get?
  simp only [Array.getElem?_modify]
  by_cases hi : i = k <;> by_cases hj : j = k <;> rcases a.nodes[k]? with _ | n <;> simp [hi, hj]

theorem changes_append (a : Arena) (i j : Nat) : Changes a (a.append i j) [i, j] := by
  constructor
  · simp [append]
  · intro k hk
    rw [get?_append]
    have hi : i ≠ k := fun h => hk (by simp [h])
    have hj : j ≠ k := fun h => hk (by simp [h])
    rcases a.get? k with _ | n
    · rfl
    · simp [hi, hj]

/-- What an operation does that takes trees into one: it holds the tree that comes of it, and changes no
nodes but theirs. -/
structure TakesIn (a a' : Arena) (p : Option Nat) (t : Numbered) (us : List Numbered)
    (t' : Numbered) : Prop where
  holds : Holds a' p t'
  changes : Changes a a' (t.notes ++ Noted.notesAll us)

/-- A tree becomes the last child of another one. -/
theorem takesIn_append (ht : Holds a p t) (hu : Holds a q u) (hnodup : (t.notes ++ u.notes).Nodup) :
    TakesIn a (a.append t.note u.note) p t [u] (t.mergeShallow [u]) := by
  rw [notes_eq t, notes_eq u] at hnodup
  rcases List.nodup_append'.1 hnodup with ⟨htown, huown, hdisjoint⟩
  rcases List.nodup_cons.1 htown with ⟨htop, -⟩
  rcases List.nodup_cons.1 huown with ⟨hutop, -⟩
  have hne : t.note ≠ u.note := by
    intro h
    exact hdisjoint List.mem_cons_self (h ▸ List.mem_cons_self)
  have hchanges := changes_append a t.note u.note
  have htbelow : (Noted.notesAll t.children).Disjoint [t.note, u.note] := by
    simp only [List.disjoint_cons_right, List.disjoint_nil_right, and_true]
    exact ⟨htop, fun h => hdisjoint (List.mem_cons_of_mem _ h) List.mem_cons_self⟩
  have hubelow : (Noted.notesAll u.children).Disjoint [t.note, u.note] := by
    simp only [List.disjoint_cons_right, List.disjoint_nil_right, and_true]
    exact ⟨fun h => hdisjoint List.mem_cons_self (List.mem_cons_of_mem _ h), hutop⟩
  have hparts := below_of_changes ht.child hchanges htbelow
  -- Of the tree that is added, only the parent of the node on top is new.
  have hadded : Holds (a.append t.note u.note) (some t.note) u := by
    refine .of_get? ?_ (below_of_changes hu.child hchanges hubelow)
    rw [get?_append, hu.get?_note]
    simp [hne]
  constructor
  · apply Holds.of_get?
    · rw [Noted.note_mergeShallow, get?_append, ht.get?_note]
      simp [hne.symm]
    · intro c hc
      rw [Noted.note_mergeShallow]
      rw [Noted.children_mergeShallow] at hc
      rcases List.mem_append.1 hc with hc | hc
      · exact hparts c hc
      · rw [List.mem_singleton.1 hc]
        exact hadded
  · apply hchanges.mono
    simp [notes_eq t, notes_eq u, Noted.notesAll]

/-- An operation on two nodes follows one that takes a tree into another one: it does so in every arena
that holds both. -/
def Follows (op : Arena → (node further : Nat) → Arena) (take : Numbered → Numbered → Numbered)
    (u : Numbered) : Prop :=
  ∀ {a : Arena} {p q : Option Nat} {t : Numbered}, Holds a p t → Holds a q u →
    (t.notes ++ u.notes).Nodup → TakesIn a (op a t.note u.note) p t [u] (take t u)

/-- Taking in trees one after the other. -/
theorem takesIn_foldl {op : Arena → (node further : Nat) → Arena}
    {take : Numbered → Numbered → Numbered} (hnote : ∀ t u, (take t u).note = t.note)
    (hnotes : ∀ t u : Numbered, Noted.KeepsNotes t (take t u) u.notes)
    (hop : ∀ u ∈ us, Follows op take u) (ht : Holds a p t) (hus : ∀ u ∈ us, ∃ q, Holds a q u)
    (hnodup : (t.notes ++ Noted.notesAll us).Nodup) :
    TakesIn a ((us.map Noted.note).foldl (fun a i => op a t.note i) a) p t us (us.foldl take t) := by
  induction us generalizing a t with
  | nil => exact ⟨ht, Changes.refl a _⟩
  | cons u us ih =>
    rw [Noted.notesAll, ← List.append_assoc] at hnodup
    rcases List.nodup_append'.1 hnodup with ⟨hfirst, -, hdisjoint⟩
    rcases hus u List.mem_cons_self with ⟨q, hu⟩
    have hstep := hop u List.mem_cons_self ht hu hfirst
    rcases hnotes t u with ⟨kept, hsub, hkept⟩
    have hsingle : Noted.notesAll [u] = u.notes := by simp [Noted.notesAll]
    have hrest : ∀ v ∈ us, ∃ q, Holds (op a t.note u.note) q v := by
      intro v hv
      rcases hus v (List.mem_cons_of_mem _ hv) with ⟨q, hheld⟩
      refine ⟨q, hheld.of_changes hstep.changes ?_⟩
      intro i hi hchanged
      rw [hsingle] at hchanged
      apply hdisjoint hchanged
      rw [Noted.notesAll_eq_flatMap]
      exact List.mem_flatMap.2 ⟨v, hv, hi⟩
    have hsublist : ((take t u).notes ++ Noted.notesAll us).Sublist
        (t.notes ++ u.notes ++ Noted.notesAll us) := by
      rw [hkept]
      exact ((List.Sublist.refl _).append hsub).append (List.Sublist.refl _)
    have hmore := ih (fun v hv => hop v (List.mem_cons_of_mem _ hv)) hstep.holds hrest
      (hnodup.sublist hsublist)
    rw [hnote] at hmore
    refine ⟨hmore.holds, ?_⟩
    rw [Noted.notesAll, ← List.append_assoc]
    have hfirstChanges := hstep.changes
    rw [hsingle] at hfirstChanges
    exact (hfirstChanges.mono (List.subset_append_left _ _)).trans (hmore.changes.mono hsublist.subset)

/-- Trees become the last children of another one. -/
theorem takesIn_appendAll (ht : Holds a p t) (hus : ∀ u ∈ us, ∃ q, Holds a q u)
    (hnodup : (t.notes ++ Noted.notesAll us).Nodup) :
    TakesIn a (a.appendAll t.note (us.map Noted.note)) p t us (t.mergeShallow us) := by
  rw [← Noted.foldl_mergeShallow]
  refine takesIn_foldl (fun t u => Noted.note_mergeShallow t [u]) ?_ ?_ ht hus hnodup
  · intro t u
    refine ⟨u.notes, List.Sublist.refl _, ?_⟩
    rw [Noted.notes_mergeShallow]
    simp [Noted.notesAll]
  · intro u _ a p q t ht hu hnodup
    exact takesIn_append ht hu hnodup

/-! ## Merging level by level -/

/-- The last child of a node may be replaced by a tree with the same node on top. -/
theorem takesIn_last {front : List Numbered} {last last' : Numbered} (ht : Holds a p t)
    (hfront : t.children = front ++ [last]) (hsame : Noted.SameTop last last')
    (hnodup : (t.notes ++ Noted.notesAll us).Nodup)
    (htaken : TakesIn a a' (some t.note) last us last') :
    TakesIn a a' p t us (.node t.note t.id t.token (front ++ [last'])) := by
  rw [notes_eq t, hfront, Noted.notesAll_append, List.cons_append, List.append_assoc] at hnodup
  have hlast : Noted.notesAll [last] = last.notes := by simp [Noted.notesAll]
  rw [hlast] at hnodup
  rcases List.nodup_cons.1 hnodup with ⟨htop, hbelow⟩
  rcases List.nodup_append'.1 hbelow with ⟨-, -, hdisjoint⟩
  have hparts := ht.child
  rw [hfront] at hparts
  constructor
  · apply Holds.of_get?
    · have hkeeps : t.note ∉ last.notes ++ Noted.notesAll us := fun h =>
        htop (List.mem_append_right _ h)
      rw [Noted.note_node, htaken.changes.get?_eq _ hkeeps, ht.get?_note, hfront]
      simp [hsame.note]
    · intro c hc
      rcases List.mem_append.1 hc with hc | hc
      · have hheld : ∀ c ∈ front, Holds a (some t.note) c := fun c hc =>
          hparts c (List.mem_append_left _ hc)
        exact below_of_changes hheld htaken.changes hdisjoint c hc
      · rw [List.mem_singleton.1 hc]
        exact htaken.holds
  · apply htaken.changes.mono
    rw [notes_eq t, hfront, Noted.notesAll_append, hlast]
    intro i hi
    simp only [List.mem_append, List.mem_cons] at hi ⊢
    tauto

/-- With fuel for the way down, taking a node into another one follows taking a tree into another one. -/
theorem follows_mergeDeep {fuel : Nat} (h : u.height ≤ fuel) :
    Follows (mergeDeep fuel) Noted.mergeDeep u := by
  induction u using Noted.induct generalizing fuel with
  | node j id token children ih =>
    intro a p q t ht hu hnodup
    rw [Noted.height] at h
    rcases fuel with _ | fuel
    · omega
    · have hadd := takesIn_append ht hu hnodup
      rw [mergeDeep, Noted.mergeDeep, hu.idAt, ht.childrenAt, List.getLast?_map]
      by_cases hleaf : (id == Tree.leafId) = true
      · rw [if_pos hleaf, Noted.id_node, if_pos hleaf]
        exact hadd
      · rw [if_neg hleaf, Noted.id_node, if_neg hleaf]
        rcases hlast : t.children.getLast? with _ | last
        · exact hadd
        · dsimp only [Option.map_some]
          rcases List.getLast?_eq_some_iff.1 hlast with ⟨front, hfront⟩
          have hheld : Holds a (some t.note) last := by
            apply ht.child
            rw [hfront]
            exact List.mem_append_right _ List.mem_cons_self
          rw [hheld.idAt]
          by_cases hsame : (last.id == id) = true
          · rw [if_pos hsame, if_pos hsame, hu.childrenAt, Noted.children_node, hfront,
              List.dropLast_concat, Noted.mergeDeepAll_eq_foldl]
            have hinner : (t.notes ++ Noted.notesAll children).Nodup := by
              refine hnodup.sublist ?_
              exact (List.Sublist.refl _).append (List.sublist_cons_self _ _)
            have hfollows : ∀ c ∈ children, Follows (mergeDeep fuel) Noted.mergeDeep c := by
              intro c hc
              have hle := Noted.height_le_of_mem hc
              exact @ih c hc fuel (by omega)
            have htaken := takesIn_foldl (fun t u => (Noted.sameTop_mergeDeep t u).note)
              (fun t u => Noted.keepsNotes_mergeDeep u t) hfollows hheld
              (fun c hc => ⟨_, hu.child c hc⟩) ?_
            · have hwhole := takesIn_last ht hfront ?_ hinner htaken
              · refine ⟨hwhole.holds, hwhole.changes.mono ?_⟩
                intro i hi
                simp only [Noted.notesAll, Noted.notes, List.mem_append, List.mem_cons] at hi ⊢
                tauto
              · rw [← Noted.mergeDeepAll_eq_foldl]
                exact Noted.sameTop_mergeDeepAll last children
            · refine hinner.sublist ?_
              rw [notes_eq t, hfront, Noted.notesAll_append]
              refine List.Sublist.append ?_ (List.Sublist.refl _)
              refine (List.sublist_append_of_sublist_right ?_).cons _
              simp [Noted.notesAll]
          · rw [if_neg hsame, if_neg hsame]
            exact hadd

/-- An arena has at least as many nodes as a tree that it holds. -/
theorem length_notes_le_size (h : Holds a p t) (hnodup : t.notes.Nodup) :
    t.notes.length ≤ a.nodes.size := by
  have hsub : t.notes ⊆ List.range a.nodes.size := by
    intro i hi
    exact List.mem_range.2 (h.lt_size i hi)
  have hle := (List.subperm_of_subset hnodup hsub).length_le
  rwa [List.length_range] at hle

/-- Trees are taken into another one, level by level. -/
theorem takesIn_mergeDeepAll (ht : Holds a p t) (hus : ∀ u ∈ us, ∃ q, Holds a q u)
    (hnodup : (t.notes ++ Noted.notesAll us).Nodup) :
    TakesIn a (a.mergeDeepAll t.note (us.map Noted.note)) p t us (t.mergeDeepAll us) := by
  rw [Noted.mergeDeepAll_eq_foldl]
  have hfollows : ∀ u ∈ us, Follows (mergeDeep a.nodes.size) Noted.mergeDeep u := by
    intro u hu
    apply follows_mergeDeep
    rcases hus u hu with ⟨q, hheld⟩
    have hown : u.notes.Nodup := by
      refine (List.nodup_append.1 hnodup).2.1.sublist ?_
      rw [Noted.notesAll_eq_flatMap]
      exact List.sublist_flatten_of_mem (List.mem_map_of_mem hu)
    exact Nat.le_trans u.height_le_length_notes (length_notes_le_size hheld hown)
  exact takesIn_foldl (fun t u => (Noted.sameTop_mergeDeep t u).note)
    (fun t u => Noted.keepsNotes_mergeDeep u t) hfollows ht hus hnodup

end Descent.Arena
