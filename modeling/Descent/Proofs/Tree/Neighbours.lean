import Mathlib.Data.List.Induction
import Descent.Proofs.Tree.Placed
import Descent.Proofs.Tree.Spaced

/-!
# Neighbours of one name

A marked rule may ask for its node to be merged with the neighbour before it if that has the same name.
Where two neighbours of one name are left nevertheless, the second of them was not merged for one of two
reasons: a name from a part of the rule's body was noted after the rule's own one, and has decided
instead of it; or no tree waited directly before the use of the rule, since a name of a part of a body
around it, or the beginning of a use around it, came in between.

Main results:

- `Excused` says when the use of a rule may have a neighbour of its name.
- `Level.Sound` says of a level that all of its trees are excused where they have to be, and
  `Derivation.sound_placed` that whatever is put on a level keeps it so.
- `Language.neighbours_of_parse`: neighbours of one name in the tree of a text.
-/

namespace Descent

/-! ## Levels -/

namespace Level

variable {Made : Option Making → String → Option LeafToken → Prop} {Excused : Option Making → Prop}
  {level inside : Level} {n : NodeId} {ts : List Grown}

/-- The trees of a level are sound, and one that no tree waits directly before, or one of its own name, is
excused. -/
def Sound (Made : Option Making → String → Option LeafToken → Prop) (Excused : Option Making → Prop) :
    Level → Prop
  | [] => True
  | .name _ :: rest => Sound Made Excused rest
  | .tree t :: rest =>
    ((∀ id ∈ (last? rest).map Noted.id, id = t.id) → Excused t.note) ∧
      Noted.Sound Made Excused t ∧ Sound Made Excused rest

theorem sound_own (r : Rule) : Sound Made Excused (own r) := by
  unfold own
  cases r.nodeId <;> trivial

theorem Sound.own_append (h : Sound Made Excused level) (r : Rule) :
    Sound Made Excused (own r ++ level) := by
  unfold own
  rcases r.nodeId with _ | n
  · exact h
  · exact h

/-- The tree that waits last is the last of the trees. -/
theorem getLast?_trees_of_last? {t : Grown} (h : level.last? = some t) :
    level.trees.getLast? = some t := by
  unfold last? at h
  split at h
  · cases h
    simp
  · cases h

/-- The trees of a level are spaced, whatever was noted between them. -/
theorem Sound.trees (h : Sound Made Excused level) :
    Noted.Spaced Excused none level.trees ∧ ∀ t ∈ level.trees, Noted.Sound Made Excused t := by
  induction level with
  | nil => exact ⟨trivial, by simp⟩
  | cons slot level ih =>
    cases slot with
    | name n => exact ih h
    | tree t =>
      rcases h with ⟨hexcused, ht, hrest⟩
      rcases ih hrest with ⟨hspaced, hsound⟩
      rw [trees_tree]
      constructor
      · rw [Noted.spaced_append, Option.or_none]
        refine ⟨hspaced, ?_, trivial⟩
        intro hsame
        apply hexcused
        intro id hid
        rcases hlast : last? level with _ | x
        · rw [hlast] at hid
          cases hid
        · apply hsame
          rw [getLast?_trees_of_last? hlast, ← hlast]
          exact hid
      · intro u hu
        rcases List.mem_append.1 hu with hu | hu
        · exact hsound u hu
        · rw [List.mem_singleton.1 hu]
          exact ht

/-- Trees that may come first may be put on a level. -/
theorem Sound.append (hspaced : Noted.Spaced Excused none ts)
    (hts : ∀ t ∈ ts, Noted.Sound Made Excused t) (h : Sound Made Excused level) :
    Sound Made Excused (ts.reverse.map Slot.tree ++ level) := by
  induction ts using List.reverseRecOn with
  | nil => exact h
  | append_singleton ts t ih =>
    rw [Noted.spaced_append, Option.or_none] at hspaced
    rw [List.reverse_append, List.reverse_singleton, List.singleton_append, List.map_cons,
      List.cons_append]
    refine ⟨?_, hts t (by simp), ih hspaced.1 fun u hu => hts u (List.mem_append_left _ hu)⟩
    intro hsame
    apply hspaced.2.1
    intro id hid
    rcases Option.map_eq_some_iff.1 hid with ⟨x, hx, rfl⟩
    rcases List.getLast?_eq_some_iff.1 hx with ⟨front, rfl⟩
    apply hsame
    simp [last?]

/-- A level stays sound when trees are taken into its last one. -/
theorem Sound.mergeIntoLast? {merged : Level} (h : Sound Made Excused level)
    (hspaced : Noted.Spaced Excused none ts) (hts : ∀ t ∈ ts, Noted.Sound Made Excused t)
    (hmerged : level.mergeIntoLast? n ts = some merged) : Sound Made Excused merged := by
  unfold Level.mergeIntoLast? at hmerged
  split at hmerged
  · rename_i last rest
    rcases h with ⟨hexcused, hlast, hrest⟩
    have hkeeps {t : Grown} (htop : Noted.SameTop last t) (ht : Noted.Sound Made Excused t) :
        Sound Made Excused (.tree t :: rest) := by
      refine ⟨?_, ht, hrest⟩
      rw [htop.id, htop.note]
      exact hexcused
    split at hmerged
    · split at hmerged
      · cases hmerged
        apply hkeeps
        · exact ⟨Noted.note_mergeShallow _ _, Noted.id_mergeShallow _ _, Noted.token_mergeShallow _ _⟩
        · exact hlast.mergeShallow hts (hspaced.after _)
      · split at hmerged
        · cases hmerged
          apply hkeeps (Noted.sameTop_mergeDeepAll _ _)
          exact hlast.mergeDeepAll hts (hspaced.after _)
        · cases hmerged
    · cases hmerged
  · cases hmerged

/-- A name that asks for a merge is refused by a level only if no tree waits last there, or one with
another name. -/
theorem ne_of_mergeIntoLast? (hn : n.merges = true) (h : level.mergeIntoLast? n ts = none) {t : Grown}
    (ht : level.last? = some t) : t.id ≠ n.id := by
  unfold last? at ht
  split at ht
  · cases ht
    intro hsame
    rw [mergeIntoLast?, if_pos hsame] at h
    rcases Bool.or_eq_true_iff.1 hn with hmerges | hmerges
    · rw [if_pos hmerges] at h
      cases h
    · rw [if_pos hmerges] at h
      split at h <;> cases h
  · cases ht

end Level

/-! ## What is put on a level -/

/-- The name that decides about the node of a declared rule, given the names of nodes of the parts of its
body that were entered: the last of those, or else its own, or else the one by default. -/
def Rule.deciding? (r : Rule) (names : List NodeId) : Option NodeId :=
  (names.getLast?.or r.nodeId).or r.defaultId

/-- A node was made by a use of a declared rule: it has the name of the rule, or else the one that has
decided. -/
structure Making.Of (m : Machine) (d : Derivation) (made : Making) (id : String) : Prop where
  mem_uses : made.use ∈ d.uses
  rule : ∃ r, m.rules.get? made.use.rule = some r ∧ r.transitional = false ∧
    r.deciding? (Derivation.partNamesAll m made.use.parts) = some made.name ∧
    id = (r.nodeId.getD made.name).id

/-- A node is a leaf of a token, or was made as its note says. -/
def MadeIn (m : Machine) (d : Derivation) (note : Option Making) (id : String)
    (token : Option LeafToken) : Prop :=
  match note with
  | none => token.isSome = true
  | some made => made.Of m d id

/-- The use of a rule that asks for a merge may have a neighbour of its name: another name has decided, or
no tree waits directly before it. -/
def Excused (m : Machine) (note : Option Making) : Prop :=
  ∀ made ∈ note, ∀ r n, m.rules.get? made.use.rule = some r → r.nodeId = some n → n.merges = true →
    made.name ≠ n ∨ made.behind = none

namespace Derivation

variable {m : Machine} {d whole : Derivation} {ds : List Derivation} {level : Level}

/-! ### Names -/

theorem name?_mergeIntoLast? {n : NodeId} {ts : List Grown} {merged : Level}
    (h : level.mergeIntoLast? n ts = some merged) : merged.name? = level.name? := by
  unfold Level.mergeIntoLast? at h
  repeat' split at h
  all_goals cases h
  all_goals rfl

theorem name?_map_tree (ts : List Grown) (level : Level) :
    Level.name? (ts.map Slot.tree ++ level) = level.name? := by
  induction ts with
  | nil => rfl
  | cons t ts ih => exact ih

/-- A declared rule leaves no name on the level around it. -/
theorem name?_close (r : Rule) (use : Derivation) (inside level : Level) :
    (Level.close r use inside level).name? = level.name? := by
  unfold Level.close
  split
  · exact name?_map_tree _ _
  · split
    · rename_i hmerged
      exact name?_mergeIntoLast? hmerged
    · rfl

theorem name?_own (r : Rule) (level : Level) :
    Level.name? (Level.own r ++ level) = r.nodeId.or level.name? := by
  unfold Level.own
  cases r.nodeId <;> rfl

private theorem name?_placedAll_of
    (h : ∀ d ∈ ds, ∀ level, (d.placed m level).name? = (d.partNames m).getLast?.or level.name?)
    (level : Level) :
    (placedAll m ds level).name? = (partNamesAll m ds).getLast?.or level.name? := by
  induction ds generalizing level with
  | nil => rfl
  | cons d ds ih =>
    rw [placedAll, ih fun e he => h e (List.mem_cons_of_mem _ he), h d List.mem_cons_self, partNamesAll,
      List.getLast?_append, Option.or_assoc]

/-- The name noted last on a level is the last one of the parts of bodies that were entered, if there is
one. -/
theorem name?_placed (d : Derivation) (level : Level) :
    (d.placed m level).name? = (d.partNames m).getLast?.or level.name? := by
  induction d using induct_parts generalizing level with
  | step d ih =>
    by_cases hparts : d.parts = []
    · cases d with
      | token key t =>
        rw [placed]
        split <;> rfl
      | concatenation key parts | repetition key parts =>
        cases hparts
        rfl
      | choice key index part => cases hparts
    · have hall := name?_placedAll_of ih
      rw [placed_of_parts hparts, partNames_of_parts hparts]
      unfold Machine.place Machine.namesOf
      rcases m.rules.get? d.rule with _ | r
      · exact hall level
      · dsimp only
        rcases r.transitional with _ | _
        · rw [if_neg Bool.false_ne_true, if_neg Bool.false_ne_true, name?_close]
          rfl
        · rw [if_pos rfl, if_pos rfl, hall, name?_own, ← Option.or_assoc]
          rcases r.nodeId with _ | n
          · simp
          · rw [Option.toList_some, List.singleton_append, List.getLast?_cons]
            rcases (partNamesAll m d.parts).getLast? with _ | k <;> rfl

theorem name?_placedAll (ds : List Derivation) (level : Level) :
    (placedAll m ds level).name? = (partNamesAll m ds).getLast?.or level.name? :=
  name?_placedAll_of (fun d _ => name?_placed d) level

/-! ### Soundness -/

/-- A level is sound with respect to a whole derivation. -/
private abbrev SoundLevel (m : Machine) (whole : Derivation) (level : Level) : Prop :=
  Level.Sound (MadeIn m whole) (Excused m) level

/-- Ending the use of a declared rule keeps levels sound. -/
theorem sound_close {r : Rule} (hr : m.rules.get? d.rule = some r) (hdeclared : r.transitional = false)
    (hd : d ∈ whole.uses)
    (hinside : SoundLevel m whole (placedAll m d.parts (Level.own r))) (hlevel : SoundLevel m whole level) :
    SoundLevel m whole (Level.close r d (placedAll m d.parts (Level.own r)) level) := by
  rcases hinside.trees with ⟨hspaced, hts⟩
  have hname : (placedAll m d.parts (Level.own r)).name?.or r.defaultId =
      r.deciding? (partNamesAll m d.parts) := by
    have hown := name?_own r []
    rw [List.append_nil] at hown
    rw [name?_placedAll, hown, Level.name?, List.findSome?_nil, Option.or_none]
    rfl
  unfold Level.close
  rw [hname]
  rcases hdeciding : r.deciding? (partNamesAll m d.parts) with _ | n
  · exact Level.Sound.append hspaced hts hlevel
  · dsimp only
    rcases hmerged : level.mergeIntoLast? n (Level.trees (placedAll m d.parts (Level.own r))) with
      _ | merged
    · refine ⟨?_, ?_, hlevel⟩
      · -- A tree of the name directly before would have taken the new one in.
        intro hsame made hmade r' k hr' hk hmerges
        rw [Noted.note_node, Option.mem_some_iff] at hmade
        subst hmade
        rw [hr, Option.some.injEq] at hr'
        subst hr'
        by_cases hown : n = k
        · right
          rcases hlast : level.last? with _ | x
          · rfl
          · have hne := Level.ne_of_mergeIntoLast? (hown ▸ hmerges) hmerged hlast
            have hid : x.id = (r.nodeId.getD n).id := hsame x.id (by rw [hlast]; rfl)
            rw [hk, Option.getD_some, ← hown] at hid
            exact absurd hid hne
        · exact .inl hown
      · apply Noted.Sound.node _ hspaced hts
        exact ⟨hd, r, hr, hdeclared, hdeciding, rfl⟩
    · exact hlevel.mergeIntoLast? hspaced hts hmerged

private theorem sound_placedAll_of
    (h : ∀ d ∈ ds, ∀ level, SoundLevel m whole level → SoundLevel m whole (d.placed m level))
    (hlevel : SoundLevel m whole level) : SoundLevel m whole (placedAll m ds level) := by
  induction ds generalizing level with
  | nil => exact hlevel
  | cons d ds ih =>
    exact ih (fun e he => h e (List.mem_cons_of_mem _ he)) (h d List.mem_cons_self level hlevel)

/-- What is put on a sound level leaves it sound. -/
theorem sound_placed (hd : ∀ u ∈ d.uses, u ∈ whole.uses) (hlevel : SoundLevel m whole level) :
    SoundLevel m whole (d.placed m level) := by
  induction d using induct_parts generalizing level with
  | step d ih =>
    by_cases hparts : d.parts = []
    · cases d with
      | token key t =>
        rw [placed]
        split
        · refine ⟨?_, Noted.Sound.node rfl trivial (by simp), hlevel⟩
          intro _ made hmade
          cases hmade
        · exact hlevel
      | concatenation key parts | repetition key parts =>
        cases hparts
        exact hlevel
      | choice key index part => cases hparts
    · rw [uses_eq] at hd
      have hall {level : Level} (hlevel : SoundLevel m whole level) :
          SoundLevel m whole (placedAll m d.parts level) := by
        refine sound_placedAll_of (fun part hpart level hlevel => ih part hpart ?_ hlevel) hlevel
        intro u hu
        exact hd u (List.mem_cons_of_mem _ (mem_usesAll.2 ⟨part, hpart, hu⟩))
      rw [placed_of_parts hparts]
      unfold Machine.place
      rcases hr : m.rules.get? d.rule with _ | r
      · exact hall hlevel
      · dsimp only
        rcases hdeclared : r.transitional with _ | _
        · rw [if_neg Bool.false_ne_true]
          exact sound_close hr hdeclared (hd d List.mem_cons_self) (hall (Level.sound_own r)) hlevel
        · rw [if_pos rfl]
          exact hall (hlevel.own_append r)

/-- In the tree of a derivation, every node but a leaf was made by the use of a declared rule, or is on
top of several trees, and neighbours of one name are excused. -/
theorem sound_grown (d : Derivation) {s : Grown} (hs : s ∈ (d.grown m).subtrees) :
    (MadeIn m d s.note s.id s.token ∨ s = d.grown m) ∧
      (∀ c ∈ s.children, MadeIn m d c.note c.id c.token) ∧
      Noted.Spaced (Excused m) none s.children := by
  have hsound : SoundLevel m d (d.placed m []) := sound_placed (fun _ hu => hu) trivial
  rcases hsound.trees with ⟨hspaced, hts⟩
  unfold grown at hs ⊢
  split at hs
  · rename_i t heq
    have ht := (hts t (by rw [heq]; exact List.mem_singleton_self t)).of_mem_subtrees hs
    exact ⟨.inl ht.made, fun c hc => (ht.child c hc).made, ht.spaced⟩
  · rename_i ts hmany
    rw [Noted.subtrees] at hs
    rcases List.mem_cons.1 hs with rfl | hs
    · exact ⟨.inr rfl, fun c hc => (hts c hc).made, hspaced⟩
    · rcases Noted.mem_subtreesAll.1 hs with ⟨t, ht, hs⟩
      have hbelow := (hts t ht).of_mem_subtrees hs
      exact ⟨.inl hbelow.made, fun c hc => (hbelow.child c hc).made, hbelow.spaced⟩

end Derivation

/-! ## Neighbours in the tree of a text -/

namespace Language

variable {H : Host} {g : Grammar} {l : Language} {text : String} {start : Option String} {fuel : Nat} {t : Tree}

/-- The tree of a text is grown from its derivation: every node but a leaf, and perhaps one on top, notes
the use of a declared rule that has made it.  If two neighbours have the same name, and the rule of the
second one asks for a merge, then another name from inside the use has decided, or no tree waited directly
before the use. -/
theorem neighbours_of_parse (hl : ofGrammar H g = .ok l) (ht : l.parse text start fuel = some (.ok t)) :
    ∃ d events ts last, l.startRule? start = some d.rule ∧
      l.trace text start fuel = some (.ok events) ∧ l.Accounts text d.rule events d ts last ∧
      t = (d.grown l.machine).bare ∧
      ∀ s ∈ (d.grown l.machine).subtrees,
        (MadeIn l.machine d s.note s.id s.token ∨ s = d.grown l.machine) ∧
        ∀ front x y back, s.children = front ++ x :: y :: back → x.id = y.id →
          ∀ made ∈ y.note, ∀ r n, l.rules.get? made.use.rule = some r → r.nodeId = some n →
            n.merges = true →
            (∃ k, (Derivation.partNamesAll l.machine made.use.parts).getLast? = some k ∧ k ≠ n) ∨
              made.behind = none := by
  rcases grown_of_parse hl ht with ⟨d, events, ts, last, hroot, htrace, haccounts, htree⟩
  refine ⟨d, events, ts, last, hroot, htrace, haccounts, htree, ?_⟩
  intro s hs
  rcases d.sound_grown hs with ⟨hmade, hchildren, hspaced⟩
  refine ⟨hmade, ?_⟩
  intro front x y back hsplit hsame made hnote r n hr hn hmerges
  rw [hsplit] at hspaced hchildren
  rcases hspaced.excused hsame made hnote r n hr hn hmerges with hother | hbehind
  · left
    have hy := hchildren y (by simp)
    rw [Option.mem_def.1 hnote] at hy
    rcases hy.rule with ⟨r', hr', -, hdeciding, -⟩
    obtain rfl : r = r' := Option.some.inj (hr.symm.trans hr')
    -- Were there no later name, the rule's own one would have decided.
    rcases hlast : (Derivation.partNamesAll l.machine made.use.parts).getLast? with _ | k
    · rw [Rule.deciding?, hlast, hn, Option.none_or, Option.some_or, Option.some.injEq] at hdeciding
      exact absurd hdeciding.symm hother
    · rw [Rule.deciding?, hlast, Option.some_or, Option.some_or, Option.some.injEq] at hdeciding
      refine ⟨k, rfl, ?_⟩
      rw [hdeciding]
      exact hother
  · exact .inr hbehind

/-- Items that ask to be merged, each in a group that has a name for a node. -/
def groupedItems : Grammar :=
  .ofParts ⟨[("default", ⟨[("a", "a")]⟩)]⟩ ⟨[("root", "(item() #x)+"), ("item", "<a> #item:M")]⟩ .empty

/-- The names that a tree has below its top, and the names that rules give to nodes. -/
def namesBelow (g : Grammar) (text : String) (fuel : Nat) :
    Option (List String × List (RuleKey × Option NodeId)) :=
  match ofGrammar .standard g with
  | .ok l =>
    match l.parse text none fuel with
    | some (.ok t) => some (t.children.map Tree.id, l.rules.entries.map fun e => (e.1, e.2.nodeId))
    | _ => none
  | .error _ => none

private theorem exists_of_namesBelow {g : Grammar} {text : String} {fuel : Nat} {ids : List String}
    {names : List (RuleKey × Option NodeId)} (h : namesBelow g text fuel = some (ids, names)) :
    ∃ l t, ofGrammar .standard g = .ok l ∧ l.parse text none fuel = some (.ok t) ∧
      t.children.map Tree.id = ids ∧ (l.rules.entries.map fun e => (e.1, e.2.nodeId)) = names := by
  unfold namesBelow at h
  split at h
  · rename_i l hl
    split at h
    · rename_i t ht
      cases h
      exact ⟨l, t, hl, ht, rfl, rfl⟩
    · cases h
  · cases h

private theorem namesBelow_groupedItems :
    namesBelow groupedItems "aa" 60 = some (["#item", "#item"],
      [(.part 0, some ⟨"#x", []⟩), (.named "root", none), (.part 2, none)] ++
        [(.named "item", some ⟨"#item", ['M']⟩)]) := by
  decide +kernel

/-- Where neighbours of one name are left, no tree waited directly before the second one. -/
theorem neighbours_of_parse_groupedItems :
    ∃ (l : Language) (t : Tree) (d : Derivation), ofGrammar .standard groupedItems = .ok l ∧ l.parse "aa" none 60 = some (.ok t) ∧
      t.children.map Tree.id = ["#item", "#item"] ∧ t = (d.grown l.machine).bare ∧
      ∀ s ∈ (d.grown l.machine).subtrees, ∀ front x y back, s.children = front ++ x :: y :: back →
        x.id = y.id → ∀ made ∈ y.note, ∀ r n, l.rules.get? made.use.rule = some r →
        r.nodeId = some n → n.merges = true →
        (∃ k, (Derivation.partNamesAll l.machine made.use.parts).getLast? = some k ∧ k ≠ n) ∨
          made.behind = none := by
  rcases exists_of_namesBelow namesBelow_groupedItems with ⟨l, t, hl, ht, hids, -⟩
  rcases neighbours_of_parse hl ht with ⟨d, events, ts, last, -, -, -, htree, hall⟩
  exact ⟨l, t, d, hl, ht, hids, htree, fun s hs => (hall s hs).2⟩

/-- Two items stay neighbours, although the only rule that makes items asks for them to be merged. -/
theorem neighbours_not_merged :
    ∃ l t names, ofGrammar .standard groupedItems = .ok l ∧ l.parse "aa" none 60 = some (.ok t) ∧
      t.children.map Tree.id = ["#item", "#item"] ∧
      (l.rules.entries.map fun e => (e.1, e.2.nodeId)) = names ++ [(.named "item", some ⟨"#item", ['M']⟩)] ∧
      ∀ name ∈ names, ∀ n ∈ name.2, n.id ≠ "#item" := by
  rcases exists_of_namesBelow namesBelow_groupedItems with ⟨l, t, hl, ht, hids, hrules⟩
  refine ⟨l, t, _, hl, ht, hids, hrules, ?_⟩
  decide

end Language

end Descent
