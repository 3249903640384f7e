import Mathlib.Data.List.Induction
import Descent.Language
import Descent.Proofs.Tree.Linked

/-!
# Links of the tree of a text

Going down from the top of a linked tree, every node is reached in one way.  Its parent link leads back to
the node it was reached from, so that going up comes to the top again after as many steps as going down
took.  Nodes that were merged into others may still list children that belong elsewhere by now, but no way
leads to them.

Main results:

- `LinkedTree.Reaches` says that child lists lead from the top to a node, and `LinkedTree.WellLinked`
  that links, depths and what is shown agree.
- `Noted.at?` is the tree at a place, and `LinkedTree.Holds.follow?_eq` says that lists of children lead
  there.
- `LinkedTree.Holds.wellLinked`: an arena that holds a tree is well linked.
- `Language.parseLinked_cases`: linking nodes gives what building trees gives.
- `Language.wellLinked_of_parseLinked`: the linked tree of a text is well linked, and it is the tree of the
  text.
-/

namespace Descent

/-! ## Places in trees with notes -/

namespace Noted

variable {α : Type} {t s s' : Noted α} {path path' : List Nat}

/-- The tree that a list of numbers of children leads to. -/
def at? (t : Noted α) : List Nat → Option (Noted α)
  | [] => some t
  | k :: rest =>
    match t.children[k]? with
    | none => none
    | some c => c.at? rest

theorem at?_cons (t : Noted α) (k : Nat) (path : List Nat) :
    t.at? (k :: path) = t.children[k]?.bind fun c => c.at? path := by
  rw [at?]
  rcases t.children[k]? with _ | c <;> rfl

/-- The last step to a place. -/
theorem at?_concat (t : Noted α) (path : List Nat) (k : Nat) :
    t.at? (path ++ [k]) = (t.at? path).bind fun s => s.children[k]? := by
  induction path generalizing t with
  | nil =>
    rw [List.nil_append, at?_cons]
    rcases h : t.children[k]? with _ | c <;> simp [at?, h]
  | cons j path ih =>
    rw [List.cons_append, at?_cons, at?_cons, Option.bind_assoc]
    simp only [ih]

theorem notes_sublist_of_mem {ts : List (Noted α)} (h : s ∈ ts) : s.notes.Sublist (notesAll ts) := by
  rw [notesAll_eq_flatMap]
  exact List.sublist_flatten_of_mem (List.mem_map_of_mem h)

/-- The notes at a place are among those of the whole tree. -/
theorem notes_subset_of_at? (h : t.at? path = some s) : s.notes ⊆ t.notes := by
  induction path generalizing t with
  | nil =>
    cases h
    exact List.Subset.refl _
  | cons k path ih =>
    rw [at?_cons] at h
    rcases Option.bind_eq_some_iff.1 h with ⟨c, hc, hs⟩
    rcases t with ⟨note, id, token, children⟩
    have hsub := (notes_sublist_of_mem (List.mem_of_getElem? hc)).subset
    exact fun i hi => List.mem_cons_of_mem _ (hsub (ih hs hi))

/-- Every note is that of a node at some place. -/
theorem exists_at?_of_mem_notes {i : α} (h : i ∈ t.notes) : ∃ path s, t.at? path = some s ∧ s.note = i := by
  induction t with
  | node note id token children ih =>
    rw [notes, notesAll_eq_flatMap] at h
    rcases List.mem_cons.1 h with rfl | h
    · exact ⟨[], _, rfl, rfl⟩
    · rcases List.mem_flatMap.1 h with ⟨c, hc, hi⟩
      rcases ih c hc hi with ⟨path, s, hs, hnote⟩
      rcases List.mem_iff_getElem?.1 hc with ⟨k, hk⟩
      refine ⟨k :: path, s, ?_, hnote⟩
      rw [at?_cons, children_node, hk]
      exact hs

/-- A place is less deep than the tree is high. -/
theorem length_lt_height (h : t.at? path = some s) : path.length < t.height := by
  induction path generalizing t with
  | nil =>
    cases t
    rw [height]
    exact Nat.succ_pos _
  | cons k path ih =>
    rw [at?_cons] at h
    rcases Option.bind_eq_some_iff.1 h with ⟨c, hc, hs⟩
    rcases t with ⟨note, id, token, children⟩
    have hlt := ih hs
    rw [children_node] at hc
    have hle := height_le_of_mem (List.mem_of_getElem? hc)
    rw [height, List.length_cons]
    omega

/-- Trees side by side that have a note in common are the same one. -/
theorem index_eq_of_mem_notes {ts : List (Noted α)} (hnodup : (notesAll ts).Nodup) {j k : Nat} {i : α}
    (hj : ts[j]? = some s) (hk : ts[k]? = some s') (hs : i ∈ s.notes) (hs' : i ∈ s'.notes) : j = k := by
  rw [notesAll_eq_flatMap, List.nodup_flatMap] at hnodup
  have hpairs := List.pairwise_iff_getElem.1 hnodup.2
  rcases List.getElem?_eq_some_iff.1 hj with ⟨hjlt, rfl⟩
  rcases List.getElem?_eq_some_iff.1 hk with ⟨hklt, rfl⟩
  rcases Nat.lt_trichotomy j k with hlt | heq | hlt
  · exact absurd hs' (hpairs j k hjlt hklt hlt hs)
  · exact heq
  · exact absurd hs (hpairs k j hklt hjlt hlt hs')

/-- Where no note comes twice, no node is at two places. -/
theorem at?_injective (hnodup : t.notes.Nodup) (h : t.at? path = some s) (h' : t.at? path' = some s')
    (hsame : s.note = s'.note) : path = path' := by
  induction path generalizing t path' with
  | nil =>
    obtain rfl : t = s := Option.some.inj h
    cases path' with
    | nil => rfl
    | cons k path' =>
      exfalso
      rw [at?_cons] at h'
      rcases Option.bind_eq_some_iff.1 h' with ⟨c, hc, hs'⟩
      rcases t with ⟨note, id, token, children⟩
      apply (List.nodup_cons.1 hnodup).1
      apply (notes_sublist_of_mem (List.mem_of_getElem? hc)).subset
      apply notes_subset_of_at? hs'
      rw [note_node] at hsame
      rw [hsame]
      cases s'
      exact List.mem_cons_self
  | cons j path ih =>
    rw [at?_cons] at h
    rcases Option.bind_eq_some_iff.1 h with ⟨c, hc, hs⟩
    have hmem : s.note ∈ c.notes := by
      apply notes_subset_of_at? hs
      cases s
      exact List.mem_cons_self
    rcases t with ⟨note, id, token, children⟩
    rcases List.nodup_cons.1 hnodup with ⟨htop, hbelow⟩
    cases path' with
    | nil =>
      cases h'
      exfalso
      apply htop
      rw [note_node] at hsame
      rw [← hsame]
      exact (notes_sublist_of_mem (List.mem_of_getElem? hc)).subset hmem
    | cons k path' =>
      rw [at?_cons] at h'
      rcases Option.bind_eq_some_iff.1 h' with ⟨c', hc', hs'⟩
      have hmem' : s.note ∈ c'.notes := by
        rw [hsame]
        apply notes_subset_of_at? hs'
        cases s'
        exact List.mem_cons_self
      obtain rfl := index_eq_of_mem_notes hbelow hc hc' hmem hmem'
      obtain rfl : c = c' := Option.some.inj (hc.symm.trans hc')
      have hinner : c.notes.Nodup := hbelow.sublist (notes_sublist_of_mem (List.mem_of_getElem? hc))
      rw [ih hinner hs hs']

end Noted

/-! ## Well linked trees -/

namespace LinkedTree

open Arena (Numbered)

/-- Lists of children lead from the top to a node. -/
inductive Reaches (l : LinkedTree) : Nat → Prop
  | root : Reaches l l.root
  | child {p c : Nat} (hp : Reaches l p) (hc : c ∈ l.children p) : Reaches l c

/-- The line that shows a node, with one mark more than there are nodes above it. -/
def line (l : LinkedTree) (i : Nat) : String :=
  Tree.renderLine ((l.depth? i).getD 0 + 1) (l.view i).label

/-- Links, depths and what is shown agree. -/
structure WellLinked (l : LinkedTree) : Prop where
  /-- Every node that is reached is reached in one way. -/
  reached_once : ∀ i, l.Reaches i → ∃! path, l.follow? l.root path = some i
  root_parent : l.parent? l.root = none
  /-- The parent of every other node that is reached is the only one of these nodes that lists it. -/
  parent : ∀ i, l.Reaches i → i ≠ l.root → ∃ p, l.parent? i = some p ∧ l.Reaches p ∧ i ∈ l.children p ∧
    ∀ q, l.Reaches q → i ∈ l.children q → q = p
  /-- Going up from a node comes to an end after as many steps as lead down to it. -/
  depth : ∀ i path, l.follow? l.root path = some i → l.depth? i = some path.length
  /-- Every node that is reached is shown once, and no other one. -/
  shown : ∃ order : List Nat, order.Nodup ∧ (∀ i, i ∈ order ↔ l.Reaches i) ∧
    l.render? = some (String.join (order.map l.line))

namespace Holds

variable {l : LinkedTree} {t s : Numbered} {p : Option Nat} {path : List Nat} {i : Nat}

theorem children_eq (h : l.arena.Holds p t) : l.children t.note = t.children.map Noted.note :=
  h.childrenAt

theorem parent?_eq (h : l.arena.Holds p t) : l.parent? t.note = p := by
  rw [parent?, h.get?_note]
  rfl

/-- Lists of children lead to the nodes of a tree. -/
theorem follow?_eq (h : l.arena.Holds p t) (path : List Nat) :
    l.follow? t.note path = (t.at? path).map Noted.note := by
  induction path generalizing p t with
  | nil => rfl
  | cons k path ih =>
    rw [follow?, children_eq h, List.getElem?_map, Noted.at?]
    rcases hk : t.children[k]? with _ | c
    · rfl
    · exact ih (h.child c (List.mem_of_getElem? hk))

/-- The tree at a place is held, below the node that the last step comes from. -/
theorem holds_at? (h : l.arena.Holds p t) (hs : t.at? path = some s) : ∃ q, l.arena.Holds q s := by
  induction path generalizing p t with
  | nil =>
    cases hs
    exact ⟨p, h⟩
  | cons k path ih =>
    rw [Noted.at?_cons] at hs
    rcases Option.bind_eq_some_iff.1 hs with ⟨c, hc, hs⟩
    exact ih (h.child c (List.mem_of_getElem? hc)) hs

theorem holds_at?_concat {k : Nat} (h : l.arena.Holds p t) (hs : t.at? (path ++ [k]) = some s) :
    ∃ above, t.at? path = some above ∧ above.children[k]? = some s ∧
      l.arena.Holds (some above.note) s := by
  rw [Noted.at?_concat] at hs
  rcases Option.bind_eq_some_iff.1 hs with ⟨above, habove, hk⟩
  rcases holds_at? h habove with ⟨q, hq⟩
  exact ⟨above, habove, hk, hq.child s (List.mem_of_getElem? hk)⟩

/-- A place of a tree is reached. -/
theorem reaches_of_at? (h : l.Holds t) (hs : t.at? path = some s) : l.Reaches s.note := by
  induction path using List.reverseRecOn generalizing s with
  | nil =>
    cases hs
    rw [← h.root_eq]
    exact .root
  | append_singleton path k ih =>
    rcases holds_at?_concat h.holds hs with ⟨above, habove, hk, -⟩
    rcases holds_at? h.holds habove with ⟨q, hq⟩
    apply Reaches.child (ih habove)
    rw [children_eq hq]
    exact List.mem_map_of_mem (List.mem_of_getElem? hk)

/-- The nodes that are reached are those of the tree. -/
theorem reaches_iff (h : l.Holds t) : l.Reaches i ↔ i ∈ t.notes := by
  constructor
  · intro hreaches
    induction hreaches with
    | root =>
      rw [h.root_eq]
      exact Arena.note_mem_notes t
    | @child p c hp hc ih =>
      rcases Noted.exists_at?_of_mem_notes ih with ⟨path, s, hs, rfl⟩
      rcases holds_at? h.holds hs with ⟨q, hq⟩
      rw [children_eq hq] at hc
      rcases List.mem_map.1 hc with ⟨u, hu, rfl⟩
      apply Noted.notes_subset_of_at? hs
      rw [Arena.notes_eq s]
      apply List.mem_cons_of_mem
      exact (Noted.notes_sublist_of_mem hu).subset (Arena.note_mem_notes u)
  · intro hmem
    rcases Noted.exists_at?_of_mem_notes hmem with ⟨path, s, hs, rfl⟩
    exact reaches_of_at? h hs

/-- The place of a node that is reached. -/
theorem exists_at? (h : l.Holds t) (hi : l.Reaches i) : ∃ path s, t.at? path = some s ∧ s.note = i :=
  Noted.exists_at?_of_mem_notes ((reaches_iff h).1 hi)

theorem follow?_root (h : l.Holds t) (path : List Nat) :
    l.follow? l.root path = (t.at? path).map Noted.note := by
  rw [h.root_eq]
  exact follow?_eq h.holds path

/-! ### Going up -/

theorem exists_ancestors? (h : l.Holds t) (hs : t.at? path = some s) {fuel : Nat}
    (hfuel : path.length < fuel) :
    ∃ above, l.ancestors? fuel s.note = some above ∧ above.length = path.length := by
  induction path using List.reverseRecOn generalizing s fuel with
  | nil =>
    cases hs
    rcases fuel with _ | fuel
    · cases hfuel
    · refine ⟨[], ?_, rfl⟩
      rw [ancestors?, parent?_eq h.holds]
  | append_singleton path k ih =>
    rcases holds_at?_concat h.holds hs with ⟨above, habove, -, hheld⟩
    rw [List.length_append, List.length_singleton] at hfuel
    rcases fuel with _ | fuel
    · omega
    · rcases ih habove (by omega : path.length < fuel) with ⟨further, hfurther, hlength⟩
      refine ⟨above.note :: further, ?_, ?_⟩
      · rw [ancestors?, parent?_eq hheld]
        dsimp only
        rw [hfurther]
        rfl
      · simp [hlength]

/-- The depth of a node is the number of steps that lead to it. -/
theorem depth?_eq (h : l.Holds t) (hs : t.at? path = some s) : l.depth? s.note = some path.length := by
  have hlt : path.length < l.arena.nodes.size := by
    have hheight := Noted.length_lt_height hs
    have hnotes := t.height_le_length_notes
    have hsize := Arena.length_notes_le_size h.holds h.nodup
    omega
  rcases exists_ancestors? h hs hlt with ⟨above, habove, hlength⟩
  rw [depth?, habove, Option.map_some, hlength]

/-! ### Showing -/

theorem mapM_eq_some {α β : Type} {xs : List α} {f : α → Option β} {g : α → β}
    (h : ∀ x ∈ xs, f x = some (g x)) : xs.mapM f = some (xs.map g) := by
  induction xs with
  | nil => rfl
  | cons x xs ih =>
    rw [List.mapM_cons, h x List.mem_cons_self, ih fun y hy => h y (List.mem_cons_of_mem _ hy)]
    rfl

/-- The lines of a node and of those below it, each with its own depth. -/
theorem linesFrom?_eq (h : l.Holds t) (hs : t.at? path = some s) {fuel : Nat} (hfuel : s.height ≤ fuel) :
    l.linesFrom? fuel (path.length + 1) s.note = some (s.notes.map l.line) := by
  induction s using Noted.induct generalizing path fuel with
  | node i id token children ih =>
    rcases holds_at? h.holds hs with ⟨q, hq⟩
    have hdepth := depth?_eq h hs
    rw [Noted.height] at hfuel
    rcases fuel with _ | fuel
    · omega
    · have hbelow : ∀ c ∈ children,
          l.linesFrom? fuel (path.length + 1 + 1) c.note = some (c.notes.map l.line) := by
        intro c hc
        rcases List.mem_iff_getElem?.1 hc with ⟨k, hk⟩
        have hat : t.at? (path ++ [k]) = some c := by
          rw [Noted.at?_concat, hs]
          exact hk
        have hle := Noted.height_le_of_mem hc
        have hlines := @ih c hc (path ++ [k]) hat fuel (by omega)
        rwa [List.length_append, List.length_singleton] at hlines
      have hnote : (Noted.node i id token children).note = i := rfl
      have hmapM : (children.map Noted.note).mapM (fun c => l.linesFrom? fuel (path.length + 1 + 1) c) =
          some (children.map fun c => c.notes.map l.line) := by
        rw [List.mapM_map]
        exact mapM_eq_some hbelow
      have hown : l.line i = Tree.renderLine (path.length + 1) (l.view i).label := by
        rw [hnote] at hdepth
        rw [line, hdepth, Option.getD_some]
      rw [linesFrom?, children_eq hq, Noted.children_node, hmapM, Option.map_some, hnote, ← hown,
        Noted.notes, List.map_cons, Noted.notesAll_eq_flatMap, List.map_flatMap]
      rfl

/-! ### All links -/

/-- An arena that holds a tree is well linked. -/
theorem wellLinked (h : l.Holds t) : l.WellLinked := by
  constructor
  · intro i hi
    rcases exists_at? h hi with ⟨path, s, hs, rfl⟩
    refine ⟨path, ?_, ?_⟩
    · show l.follow? l.root path = some s.note
      rw [follow?_root h, hs]
      rfl
    · intro path' hpath'
      rw [follow?_root h] at hpath'
      rcases Option.map_eq_some_iff.1 hpath' with ⟨s', hs', hsame⟩
      exact Noted.at?_injective h.nodup hs' hs hsame
  · rw [h.root_eq]
    exact parent?_eq h.holds
  · intro i hi hne
    rcases exists_at? h hi with ⟨path, s, hs, rfl⟩
    rcases List.eq_nil_or_concat path with rfl | ⟨front, k, rfl⟩
    · cases hs
      exact absurd h.root_eq.symm hne
    · rw [List.concat_eq_append] at hs
      rcases holds_at?_concat h.holds hs with ⟨above, habove, hk, hheld⟩
      rcases holds_at? h.holds habove with ⟨q, hq⟩
      refine ⟨above.note, parent?_eq hheld, reaches_of_at? h habove, ?_, ?_⟩
      · rw [children_eq hq]
        exact List.mem_map_of_mem (List.mem_of_getElem? hk)
      · -- Another node that lists it would be one more way to it.
        intro other hother hlists
        rcases exists_at? h hother with ⟨path', s', hs', rfl⟩
        rcases holds_at? h.holds hs' with ⟨q', hq'⟩
        rw [children_eq hq'] at hlists
        rcases List.mem_map.1 hlists with ⟨c, hc, hsame⟩
        rcases List.mem_iff_getElem?.1 hc with ⟨k', hk'⟩
        have hat : t.at? (path' ++ [k']) = some c := by
          rw [Noted.at?_concat, hs']
          exact hk'
        have hpaths := Noted.at?_injective h.nodup hat hs hsame
        have hfront : path' = front := (List.append_inj' hpaths rfl).1
        rw [hfront, habove] at hs'
        rw [Option.some.inj hs']
  · intro i path hpath
    rw [follow?_root h] at hpath
    rcases Option.map_eq_some_iff.1 hpath with ⟨s, hs, rfl⟩
    exact depth?_eq h hs
  · refine ⟨t.notes, h.nodup, fun i => (reaches_iff h).symm, ?_⟩
    have hsize : t.height ≤ l.arena.nodes.size :=
      Nat.le_trans t.height_le_length_notes (Arena.length_notes_le_size h.holds h.nodup)
    have hlines := @linesFrom?_eq l t t [] h rfl _ hsize
    rw [List.length_nil, Nat.zero_add] at hlines
    rw [render?, renderFrom?, h.root_eq, hlines, Option.map_some]

end Holds

end LinkedTree

/-! ## Trees of texts -/

namespace Language

variable {l : Language} {text : String} {start : Option String} {fuel : Nat}

/-- A text has a linked tree just if it has a tree, and then the two have the same nodes; where there is
none, the error is the same. -/
theorem parseLinked_cases (l : Language) (text : String) (start : Option String) (fuel : Nat) :
    (l.parseLinked text start fuel = none ∧ l.parse text start fuel = none) ∨
    (∃ e, l.parseLinked text start fuel = some (.error e) ∧
      l.parse text start fuel = some (.error e)) ∨
    ∃ linked u, l.parseLinked text start fuel = some (.ok linked) ∧ linked.Holds u ∧
      l.parse text start fuel = some (.ok u.bare) := by
  unfold parseLinked parse
  rcases l.startRule? start with _ | root
  · exact .inr (.inl ⟨_, rfl, rfl⟩)
  · dsimp only
    rcases l.derive text root fuel with _ | f | events
    · exact .inl ⟨rfl, rfl⟩
    · exact .inr (.inl ⟨_, rfl, rfl⟩)
    · have houtcome := LinkedTree.ofEvents_cases l.rules root events
      dsimp only [Option.map_some, treeOf]
      generalize LinkedTree.ofEvents l.rules root events = r at houtcome ⊢
      generalize Tree.ofEvents l.rules root events = r' at houtcome ⊢
      cases houtcome with
      | tooLarge | internal => exact .inr (.inl ⟨_, rfl, rfl⟩)
      | ok hholds =>
        rcases hholds with ⟨u, hu, rfl⟩
        exact .inr (.inr ⟨_, u, rfl, hu, rfl⟩)

/-- In the linked tree of a text the links between the nodes that are reached from the top agree, whatever
was merged, and the tree of the text has just these nodes. -/
theorem wellLinked_of_parseLinked {linked : LinkedTree}
    (h : l.parseLinked text start fuel = some (.ok linked)) :
    linked.WellLinked ∧ ∃ u, linked.Holds u ∧ l.parse text start fuel = some (.ok u.bare) := by
  rcases parseLinked_cases l text start fuel with ⟨hnone, -⟩ | ⟨e, herror, -⟩ | ⟨linked', u, hok, hu, hparse⟩
  · rw [hnone] at h
    cases h
  · rw [herror] at h
    cases h
  · rw [hok] at h
    cases h
    exact ⟨hu.wellLinked, u, hu, hparse⟩

/-- Groups with one inner group each; neighbours are merged level by level. -/
def mergedGroups : Grammar :=
  .ofParts ⟨[("default", ⟨[("b", "b")]⟩)]⟩
    ⟨[("root", "group()+"), ("group", "inner() #group:m"), ("inner", "<b> #inner")]⟩ .empty

/-- The number of nodes that were made for a text, and the lines of its tree. -/
def madeAndShown (g : Grammar) (text : String) (fuel : Nat) : Option (Nat × Option String) :=
  match ofGrammar .standard g with
  | .ok l =>
    match l.parseLinked text none fuel with
    | some (.ok linked) => some (linked.arena.nodes.size, linked.render?)
    | _ => none
  | .error _ => none

private theorem exists_of_madeAndShown {g : Grammar} {made : Nat} {shown : Option String}
    (h : madeAndShown g text fuel = some (made, shown)) :
    ∃ l linked, ofGrammar .standard g = .ok l ∧ l.parseLinked text none fuel = some (.ok linked) ∧
      linked.arena.nodes.size = made ∧ linked.render? = shown := by
  unfold madeAndShown at h
  split at h
  · rename_i l hl
    split at h
    · rename_i linked hlinked
      cases h
      exact ⟨l, linked, hl, hlinked, rfl, rfl⟩
    · cases h
  · cases h

/-- Two of seven nodes are left behind when inner groups are merged, and the others are well linked. -/
theorem wellLinked_of_parseLinked_mergedGroups :
    ∃ l linked u, ofGrammar .standard mergedGroups = .ok l ∧ l.parseLinked "bbb" none 80 = some (.ok linked) ∧
      linked.WellLinked ∧ linked.Holds u ∧ linked.arena.nodes.size = 7 ∧
      linked.render? = some (">  #group\n>  >  #inner\n" ++
        ">  >  >  token(b, b)\n>  >  >  token(b, b)\n>  >  >  token(b, b)\n") := by
  have hrun : madeAndShown mergedGroups "bbb" 80 = some (7, some (">  #group\n>  >  #inner\n" ++
      ">  >  >  token(b, b)\n>  >  >  token(b, b)\n>  >  >  token(b, b)\n")) := by
    decide +kernel
  rcases exists_of_madeAndShown hrun with ⟨l, linked, hl, hlinked, hsize, hshown⟩
  rcases wellLinked_of_parseLinked hlinked with ⟨hwell, u, hu, -⟩
  exact ⟨l, linked, u, hl, hlinked, hwell, hu, hsize, hshown⟩

end Language

end Descent
