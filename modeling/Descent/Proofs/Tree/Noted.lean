import Descent.Tree.Basic

/-!
# Trees with notes

A tree may carry a note at each of its nodes: what the node was made by, or the number that it is stored
under.  Merging treats such trees like those without notes.  A node keeps its note when further nodes are
taken into it, and the note of a node whose parts go into another one is lost.

Main results:

- `Noted` is a tree with notes, `Noted.bare` the tree without them, and `Noted.notes` lists the notes.
- `Noted.bare_mergeShallow` and `Noted.bare_mergeDeepAll`: merging does not look at notes.
- `Noted.notes_mergeDeepAll`: no note comes from elsewhere, and the order of the notes that are kept does
  not change.
-/

namespace Descent

/-- A tree whose nodes carry notes. -/
inductive Noted (α : Type) where
  | node (note : α) (id : String) (token : Option LeafToken) (children : List (Noted α))

namespace Noted

variable {α : Type}

/-- Induction over trees with notes, with the children of a node taken together. -/
@[elab_as_elim, induction_eliminator]
theorem induct {motive : Noted α → Prop}
    (node : ∀ note id token children, (∀ c ∈ children, motive c) →
      motive (.node note id token children)) (t : Noted α) : motive t := by
  refine @Noted.rec α motive (fun ts => ∀ t ∈ ts, motive t) node ?_ ?_ t
  · intro t ht
    cases ht
  · intro head tail hhead htail t ht
    rcases List.mem_cons.1 ht with rfl | ht
    · exact hhead
    · exact htail t ht

/-- The note of the node on top. -/
def note : Noted α → α
  | node note _ _ _ => note

/-- The name of the node on top. -/
def id : Noted α → String
  | node _ id _ _ => id

/-- The token of the node on top. -/
def token : Noted α → Option LeafToken
  | node _ _ token _ => token

/-- The trees below the node on top. -/
def children : Noted α → List (Noted α)
  | node _ _ _ children => children

@[simp]
theorem note_node (note : α) (id : String) (token : Option LeafToken) (cs : List (Noted α)) :
    (node note id token cs).note = note :=
  rfl

@[simp]
theorem id_node (note : α) (id : String) (token : Option LeafToken) (cs : List (Noted α)) :
    (node note id token cs).id = id :=
  rfl

@[simp]
theorem token_node (note : α) (id : String) (token : Option LeafToken) (cs : List (Noted α)) :
    (node note id token cs).token = token :=
  rfl

@[simp]
theorem children_node (note : α) (id : String) (token : Option LeafToken) (cs : List (Noted α)) :
    (node note id token cs).children = cs :=
  rfl

mutual

/-- The tree without its notes. -/
def bare : Noted α → Tree
  | node _ id token children => .node id token (bareAll children)

/-- Some trees without their notes. -/
def bareAll : List (Noted α) → List Tree
  | [] => []
  | t :: rest => bare t :: bareAll rest

end

mutual

/-- The notes of a tree, that of a node before those below it. -/
def notes : Noted α → List α
  | node note _ _ children => note :: notesAll children

/-- The notes of some trees. -/
def notesAll : List (Noted α) → List α
  | [] => []
  | t :: rest => notes t ++ notesAll rest

end

mutual

/-- The number of nodes between the top and the deepest leaf, with both. -/
def height : Noted α → Nat
  | node _ _ _ children => heightAll children + 1

/-- The greatest height of some trees. -/
def heightAll : List (Noted α) → Nat
  | [] => 0
  | t :: rest => max (height t) (heightAll rest)

end

theorem bareAll_eq_map (ts : List (Noted α)) : bareAll ts = ts.map bare := by
  induction ts with
  | nil => rfl
  | cons t ts ih => rw [bareAll, ih, List.map_cons]

theorem notesAll_eq_flatMap (ts : List (Noted α)) : notesAll ts = ts.flatMap notes := by
  induction ts with
  | nil => rfl
  | cons t ts ih => rw [notesAll, ih, List.flatMap_cons]

theorem notesAll_append (ts us : List (Noted α)) :
    notesAll (ts ++ us) = notesAll ts ++ notesAll us := by
  simp only [notesAll_eq_flatMap, List.flatMap_append]

@[simp]
theorem id_bare (t : Noted α) : t.bare.id = t.id := by
  cases t
  rfl

@[simp]
theorem token_bare (t : Noted α) : t.bare.token = t.token := by
  cases t
  rfl

@[simp]
theorem children_bare (t : Noted α) : t.bare.children = t.children.map bare := by
  cases t
  exact bareAll_eq_map _

theorem bare_node (note : α) (id : String) (token : Option LeafToken) (cs : List (Noted α)) :
    (node note id token cs).bare = .node id token (cs.map bare) := by
  rw [bare, bareAll_eq_map]

theorem height_le_of_mem {t : Noted α} {ts : List (Noted α)} (h : t ∈ ts) :
    t.height ≤ heightAll ts := by
  induction ts with
  | nil => cases h
  | cons u ts ih =>
    rw [heightAll]
    rcases List.mem_cons.1 h with rfl | h
    · exact Nat.le_max_left _ _
    · exact Nat.le_trans (ih h) (Nat.le_max_right _ _)

/-- No way down is longer than there are nodes. -/
theorem height_le_length_notes (t : Noted α) : t.height ≤ t.notes.length := by
  induction t with
  | node note id token children ih =>
    have hall : ∀ ts : List (Noted α), (∀ c ∈ ts, c.height ≤ c.notes.length) →
        heightAll ts ≤ (notesAll ts).length := by
      intro ts hts
      induction ts with
      | nil => exact Nat.le_refl _
      | cons c ts ih =>
        have hhead := hts c List.mem_cons_self
        have htail := ih fun d hd => hts d (List.mem_cons_of_mem _ hd)
        rw [heightAll, notesAll, List.length_append]
        omega
    have hchildren := hall children ih
    rw [height, notes, List.length_cons]
    omega

/-! ## Merging -/

/-- Adds trees after those below the node on top. -/
def mergeShallow (t : Noted α) (further : List (Noted α)) : Noted α :=
  match t with
  | node note id token children => node note id token (children ++ further)

theorem mergeShallow_nil (t : Noted α) : t.mergeShallow [] = t := by
  cases t
  simp [mergeShallow]

theorem mergeShallow_mergeShallow (t : Noted α) (us vs : List (Noted α)) :
    (t.mergeShallow us).mergeShallow vs = t.mergeShallow (us ++ vs) := by
  cases t
  simp [mergeShallow]

/-- Trees may be added one by one. -/
theorem foldl_mergeShallow (t : Noted α) (us : List (Noted α)) :
    us.foldl (fun t u => t.mergeShallow [u]) t = t.mergeShallow us := by
  induction us generalizing t with
  | nil => exact (mergeShallow_nil t).symm
  | cons u us ih => rw [List.foldl_cons, ih, mergeShallow_mergeShallow, List.singleton_append]

mutual

/-- Takes a further tree into one: its parts go into the last child if that has the same name, and
else the tree itself becomes the last child. -/
def mergeDeep (t : Noted α) : Noted α → Noted α
  | node note id token children =>
    if id == Tree.leafId then t.mergeShallow [node note id token children]
    else
      match t.children.getLast? with
      | none => t.mergeShallow [node note id token children]
      | some last =>
        if last.id == id then
          node t.note t.id t.token (t.children.dropLast ++ [mergeDeepAll last children])
        else t.mergeShallow [node note id token children]

/-- Takes further trees into one, one after the other. -/
def mergeDeepAll (t : Noted α) : List (Noted α) → Noted α
  | [] => t
  | c :: rest => mergeDeepAll (mergeDeep t c) rest

end

theorem mergeDeepAll_eq_foldl (t : Noted α) (us : List (Noted α)) :
    t.mergeDeepAll us = us.foldl mergeDeep t := by
  induction us generalizing t with
  | nil => rfl
  | cons u us ih => rw [mergeDeepAll, List.foldl_cons, ih]

/-- What becomes of two trees when one is taken into the other: it is added, or its parts go into the
last child. -/
theorem mergeDeep_cases (t u : Noted α) :
    ((∀ last ∈ t.children.getLast?, last.id = u.id → u.id = Tree.leafId) ∧
      t.mergeDeep u = t.mergeShallow [u]) ∨
    ∃ front last, t.children = front ++ [last] ∧ last.id = u.id ∧ u.id ≠ Tree.leafId ∧
      t.mergeDeep u = .node t.note t.id t.token (front ++ [last.mergeDeepAll u.children]) := by
  rcases u with ⟨note, id, token, children⟩
  rw [mergeDeep]
  by_cases hleaf : id = Tree.leafId
  · rw [if_pos (beq_iff_eq.2 hleaf)]
    exact .inl ⟨fun _ _ _ => hleaf, rfl⟩
  · rw [if_neg (mt beq_iff_eq.1 hleaf)]
    rcases hlast : t.children.getLast? with _ | last
    · exact .inl ⟨by simp, rfl⟩
    · dsimp only
      by_cases hsame : last.id = id
      · rw [if_pos (beq_iff_eq.2 hsame)]
        rcases List.getLast?_eq_some_iff.1 hlast with ⟨front, hfront⟩
        refine .inr ⟨front, last, hfront, hsame, hleaf, ?_⟩
        rw [hfront, List.dropLast_concat]
        rfl
      · rw [if_neg (mt beq_iff_eq.1 hsame)]
        refine .inl ⟨?_, rfl⟩
        intro other hother heq
        rw [Option.mem_some_iff.1 hother] at hsame
        exact absurd heq hsame

@[simp]
theorem note_mergeShallow (t : Noted α) (us : List (Noted α)) :
    (t.mergeShallow us).note = t.note := by
  cases t
  rfl

@[simp]
theorem id_mergeShallow (t : Noted α) (us : List (Noted α)) : (t.mergeShallow us).id = t.id := by
  cases t
  rfl

@[simp]
theorem token_mergeShallow (t : Noted α) (us : List (Noted α)) :
    (t.mergeShallow us).token = t.token := by
  cases t
  rfl

@[simp]
theorem children_mergeShallow (t : Noted α) (us : List (Noted α)) :
    (t.mergeShallow us).children = t.children ++ us := by
  cases t
  rfl

@[simp]
theorem bare_mergeShallow (t : Noted α) (us : List (Noted α)) :
    (t.mergeShallow us).bare = t.bare.mergeShallow (us.map bare) := by
  rcases t with ⟨note, id, token, children⟩
  simp [mergeShallow, Tree.mergeShallow, bare_node]

theorem notes_mergeShallow (t : Noted α) (us : List (Noted α)) :
    (t.mergeShallow us).notes = t.notes ++ notesAll us := by
  rcases t with ⟨note, id, token, children⟩
  simp [mergeShallow, notes, notesAll_append]

private theorem bare_mergeDeepAll_of {us : List (Noted α)}
    (h : ∀ u ∈ us, ∀ t : Noted α, (t.mergeDeep u).bare = t.bare.mergeDeep u.bare) (t : Noted α) :
    (t.mergeDeepAll us).bare = t.bare.mergeDeepAll (us.map bare) := by
  induction us generalizing t with
  | nil => rfl
  | cons u us ih =>
    rw [mergeDeepAll, List.map_cons, Tree.mergeDeepAll, ih fun v hv => h v (List.mem_cons_of_mem _ hv),
      h u List.mem_cons_self]

theorem bare_mergeDeep (u t : Noted α) : (t.mergeDeep u).bare = t.bare.mergeDeep u.bare := by
  induction u generalizing t with
  | node note id token children ih =>
    have hadded : (t.mergeShallow [node note id token children]).bare =
        t.bare.mergeShallow [.node id token (children.map bare)] := by
      rw [bare_mergeShallow, List.map_singleton, bare_node]
    rw [mergeDeep, bare_node, Tree.mergeDeep, children_bare, List.getLast?_map]
    by_cases hleaf : (id == Tree.leafId) = true
    · rw [if_pos hleaf, if_pos hleaf]
      exact hadded
    · rw [if_neg hleaf, if_neg hleaf]
      rcases t.children.getLast? with _ | last
      · exact hadded
      · dsimp only [Option.map_some]
        rw [id_bare]
        by_cases hsame : (last.id == id) = true
        · rw [if_pos hsame, if_pos hsame, bare_node, List.map_append, List.map_singleton,
            bare_mergeDeepAll_of ih, List.map_dropLast, id_bare, token_bare]
        · rw [if_neg hsame, if_neg hsame]
          exact hadded

/-- Merging does not look at notes. -/
@[simp]
theorem bare_mergeDeepAll (t : Noted α) (us : List (Noted α)) :
    (t.mergeDeepAll us).bare = t.bare.mergeDeepAll (us.map bare) :=
  bare_mergeDeepAll_of (fun u _ t => bare_mergeDeep u t) t

/-- The node on top stays what it is when further trees are taken into it. -/
structure SameTop (t t' : Noted α) : Prop where
  note : t'.note = t.note
  id : t'.id = t.id
  token : t'.token = t.token

theorem SameTop.trans {t t' t'' : Noted α} (h : SameTop t t') (h' : SameTop t' t'') :
    SameTop t t'' :=
  ⟨h'.note.trans h.note, h'.id.trans h.id, h'.token.trans h.token⟩

theorem sameTop_mergeDeep (t u : Noted α) : SameTop t (t.mergeDeep u) := by
  rcases mergeDeep_cases t u with ⟨-, hmerge⟩ | ⟨front, last, -, -, -, hmerge⟩
  · rw [hmerge]
    exact ⟨note_mergeShallow t [u], id_mergeShallow t [u], token_mergeShallow t [u]⟩
  · rw [hmerge]
    exact ⟨rfl, rfl, rfl⟩

theorem sameTop_mergeDeepAll (t : Noted α) (us : List (Noted α)) :
    SameTop t (t.mergeDeepAll us) := by
  induction us generalizing t with
  | nil => exact ⟨rfl, rfl, rfl⟩
  | cons u us ih => exact (sameTop_mergeDeep t u).trans (ih _)

/-! ## Notes that are kept -/

/-- The notes of a tree that another one was taken into: its own, and after them some of the other
one's, in order. -/
def KeepsNotes (t t' : Noted α) (further : List α) : Prop :=
  ∃ kept, kept.Sublist further ∧ t'.notes = t.notes ++ kept

theorem KeepsNotes.trans {t t' t'' : Noted α} {xs ys : List α} (h : KeepsNotes t t' xs)
    (h' : KeepsNotes t' t'' ys) : KeepsNotes t t'' (xs ++ ys) := by
  rcases h with ⟨kept, hsub, hnotes⟩
  rcases h' with ⟨kept', hsub', hnotes'⟩
  refine ⟨kept ++ kept', hsub.append hsub', ?_⟩
  rw [hnotes', hnotes, List.append_assoc]

private theorem keepsNotes_mergeDeepAll_of {us : List (Noted α)}
    (h : ∀ u ∈ us, ∀ t : Noted α, KeepsNotes t (t.mergeDeep u) u.notes) (t : Noted α) :
    KeepsNotes t (t.mergeDeepAll us) (notesAll us) := by
  induction us generalizing t with
  | nil => exact ⟨[], List.Sublist.refl _, (List.append_nil _).symm⟩
  | cons u us ih =>
    exact (h u List.mem_cons_self t).trans (ih (fun v hv => h v (List.mem_cons_of_mem _ hv)) _)

theorem keepsNotes_mergeDeep (u t : Noted α) : KeepsNotes t (t.mergeDeep u) u.notes := by
  induction u generalizing t with
  | node note id token children ih =>
    rcases mergeDeep_cases t (node note id token children) with
      ⟨-, hmerge⟩ | ⟨front, last, hfront, -, -, hmerge⟩
    · refine ⟨_, List.Sublist.refl _, ?_⟩
      rw [hmerge, notes_mergeShallow]
      simp [notesAll]
    · rcases keepsNotes_mergeDeepAll_of ih last with ⟨kept, hsub, hnotes⟩
      refine ⟨kept, hsub.trans (List.sublist_cons_self _ _), ?_⟩
      have htop : t.notes = t.note :: notesAll t.children := by
        cases t
        rfl
      rw [hmerge, htop, hfront, notes, notesAll_append, notesAll_append]
      simp [notesAll, hnotes]

/-- Merging keeps the notes of the tree that others are taken into, and adds some of theirs, in
order. -/
theorem keepsNotes_mergeDeepAll (t : Noted α) (us : List (Noted α)) :
    KeepsNotes t (t.mergeDeepAll us) (notesAll us) :=
  keepsNotes_mergeDeepAll_of (fun u _ t => keepsNotes_mergeDeep u t) t

end Noted

end Descent
