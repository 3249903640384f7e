import Descent.Proofs.Tree.Noted

/-!
# Trees in which neighbours of one name are excused

Whether a tree may stand directly behind one of its own name is said by its note.  Merging keeps this
everywhere in a tree: shallow merging makes a new neighbour of a tree that came first, and merging level
by level makes new neighbours only of trees with different names.

Main results:

- `Noted.Spaced` says that a tree that comes first, or has the name of the one before, is excused.
- `Noted.Sound` says so of the trees below every node, and that every node is made as its note says.
- `Noted.Sound.mergeShallow` and `Noted.Sound.mergeDeepAll`: merging keeps it.
-/

namespace Descent

namespace Noted

variable {α : Type} {Made : α → String → Option LeafToken → Prop} {Excused : α → Prop}

/-- A tree that comes first, or has the name of the one before it, is excused by its note. -/
def Spaced (Excused : α → Prop) : (before : Option String) → List (Noted α) → Prop
  | _, [] => True
  | before, t :: rest =>
    ((∀ id ∈ before, id = t.id) → Excused t.note) ∧ Spaced Excused (some t.id) rest

/-- Every node of a tree is made as its note says, and below every node the trees are spaced. -/
inductive Sound (Made : α → String → Option LeafToken → Prop) (Excused : α → Prop) : Noted α → Prop
  | node {note : α} {id : String} {token : Option LeafToken} {children : List (Noted α)}
      (hmade : Made note id token) (hspaced : Spaced Excused none children)
      (hbelow : ∀ c ∈ children, Sound Made Excused c) : Sound Made Excused (.node note id token children)

/-- Where all may come first, they may come after anything. -/
theorem Spaced.after {ts : List (Noted α)} (h : Spaced Excused none ts) (before : Option String) :
    Spaced Excused before ts := by
  cases ts with
  | nil => trivial
  | cons t rest => exact ⟨fun _ => h.1 (by simp), h.2⟩

theorem spaced_append {before : Option String} {ts us : List (Noted α)} :
    Spaced Excused before (ts ++ us) ↔
      Spaced Excused before ts ∧ Spaced Excused ((ts.getLast?.map id).or before) us := by
  induction ts generalizing before with
  | nil => simp [Spaced]
  | cons t ts ih =>
    rw [List.cons_append, Spaced, Spaced, ih, and_assoc]
    cases ts with
    | nil => simp
    | cons u ts => simp [List.getLast?_cons]

/-- Neighbours of one name. -/
theorem Spaced.excused {front back : List (Noted α)} {x y : Noted α} {before : Option String}
    (h : Spaced Excused before (front ++ x :: y :: back)) (hsame : x.id = y.id) : Excused y.note := by
  rw [spaced_append] at h
  apply h.2.2.1
  intro id hid
  rw [← Option.mem_some_iff.1 hid]
  exact hsame

/-- What is asked of the last tree depends on the node on top of it only. -/
theorem Spaced.replace {front : List (Noted α)} {t t' : Noted α} {before : Option String}
    (h : Spaced Excused before (front ++ [t])) (htop : SameTop t t') :
    Spaced Excused before (front ++ [t']) := by
  rw [spaced_append] at h ⊢
  refine ⟨h.1, ?_, trivial⟩
  rw [htop.id, htop.note]
  exact h.2.1

namespace Sound

variable {t u : Noted α} {us : List (Noted α)}

theorem made (h : Sound Made Excused t) : Made t.note t.id t.token := by
  cases h
  assumption

theorem spaced (h : Sound Made Excused t) : Spaced Excused none t.children := by
  cases h
  assumption

theorem child (h : Sound Made Excused t) : ∀ c ∈ t.children, Sound Made Excused c := by
  cases h
  assumption

/-- Further trees may be added below a node if they are spaced from the last child on. -/
theorem mergeShallow (ht : Sound Made Excused t) (hus : ∀ u ∈ us, Sound Made Excused u)
    (hspaced : Spaced Excused (t.children.getLast?.map id) us) :
    Sound Made Excused (t.mergeShallow us) := by
  rcases t with ⟨note, id, token, children⟩
  apply Sound.node ht.made
  · rw [spaced_append, Option.or_none]
    exact ⟨ht.spaced, hspaced⟩
  · intro c hc
    rcases List.mem_append.1 hc with hc | hc
    · exact ht.child c hc
    · exact hus c hc

/-- A tree that another one was taken into is sound, and its last child has the name of the other
one. -/
private structure Joins (Made : α → String → Option LeafToken → Prop) (Excused : α → Prop)
    (u joined : Noted α) : Prop where
  sound : Sound Made Excused joined
  last : joined.children.getLast?.map id = some u.id

private theorem mergeDeepAll_of
    (hus : ∀ u ∈ us, Sound Made Excused u ∧ ∀ t : Noted α, Sound Made Excused t →
      Spaced Excused (t.children.getLast?.map id) [u] → Joins Made Excused u (t.mergeDeep u))
    (ht : Sound Made Excused t) (hspaced : Spaced Excused (t.children.getLast?.map id) us) :
    Sound Made Excused (t.mergeDeepAll us) := by
  induction us generalizing t with
  | nil => exact ht
  | cons u us ih =>
    have hjoins := (hus u List.mem_cons_self).2 t ht ⟨hspaced.1, trivial⟩
    apply ih (fun v hv => hus v (List.mem_cons_of_mem _ hv)) hjoins.sound
    rw [hjoins.last]
    exact hspaced.2

private theorem mergeDeep_of (hu : Sound Made Excused u) (t : Noted α) (ht : Sound Made Excused t)
    (hspaced : Spaced Excused (t.children.getLast?.map id) [u]) :
    Joins Made Excused u (t.mergeDeep u) := by
  induction hu generalizing t with
  | @node note id token children hmade hchildren hbelow ih =>
    have hu : Sound Made Excused (.node note id token children) := .node hmade hchildren hbelow
    rcases mergeDeep_cases t (.node note id token children) with
      ⟨-, hmerge⟩ | ⟨front, last, hfront, hsame, -, hmerge⟩
    · -- The tree is added as it is.
      rw [hmerge]
      constructor
      · apply ht.mergeShallow _ hspaced
        intro v hv
        rw [List.mem_singleton.1 hv]
        exact hu
      · simp
    · -- Its parts go into the last child, which keeps its place among its neighbours.
      have hbefore := ht.spaced
      have hparts := ht.child
      rw [hfront] at hbefore hparts
      have hlast : Sound Made Excused last := hparts last (by simp)
      have hjoined : Sound Made Excused (last.mergeDeepAll children) := by
        apply mergeDeepAll_of (fun c hc => ⟨hbelow c hc, ih c hc⟩) hlast
        exact hchildren.after _
      rw [hmerge]
      constructor
      · apply Sound.node ht.made
        · exact hbefore.replace (sameTop_mergeDeepAll last children)
        · intro c hc
          rcases List.mem_append.1 hc with hc | hc
          · exact hparts c (List.mem_append_left _ hc)
          · rw [List.mem_singleton.1 hc]
            exact hjoined
      · have hid := (sameTop_mergeDeepAll last children).id
        simp [hid, hsame]

/-- Trees that are spaced from the last child on may be taken into a tree, level by level. -/
theorem mergeDeepAll (ht : Sound Made Excused t) (hus : ∀ u ∈ us, Sound Made Excused u)
    (hspaced : Spaced Excused (t.children.getLast?.map id) us) :
    Sound Made Excused (t.mergeDeepAll us) :=
  mergeDeepAll_of (fun u hu => ⟨hus u hu, mergeDeep_of (hus u hu)⟩) ht hspaced

end Sound

mutual

/-- The trees below each node of a tree, and the tree itself. -/
def subtrees : Noted α → List (Noted α)
  | node note id token children => node note id token children :: subtreesAll children

/-- The trees below each node of some trees, and these trees. -/
def subtreesAll : List (Noted α) → List (Noted α)
  | [] => []
  | t :: rest => subtrees t ++ subtreesAll rest

end

theorem mem_subtreesAll {s : Noted α} {ts : List (Noted α)} :
    s ∈ subtreesAll ts ↔ ∃ t ∈ ts, s ∈ t.subtrees := by
  induction ts with
  | nil => simp [subtreesAll]
  | cons t ts ih => simp [subtreesAll, ih]

/-- What lies below a sound tree is sound. -/
theorem Sound.of_mem_subtrees {t s : Noted α} (h : Sound Made Excused t) (hs : s ∈ t.subtrees) :
    Sound Made Excused s := by
  induction h with
  | node hmade hspaced hbelow ih =>
    rw [subtrees] at hs
    rcases List.mem_cons.1 hs with rfl | hs
    · exact .node hmade hspaced hbelow
    · rcases mem_subtreesAll.1 hs with ⟨c, hc, hs⟩
      exact ih c hc hs

end Noted

end Descent
