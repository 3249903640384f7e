import Descent.Proofs.Tree.Contents
import Descent.Proofs.Tree.Noted

/-!
# Trees by recursion, with merging

The tree of a text is defined by recursion on its derivation, whatever the names of its nodes ask for.
The use of a declared rule starts on a level of its own, so that nothing from outside has a part in what
is made inside it.  When it ends, the name noted last inside it, or else the one by default, decides:
without a name its trees are put on the level around, and with one they are taken into the tree that waits
last there, if the name asks for it and that tree has the same name, or else are wrapped in a new node.
The new node notes the use, the name that has decided, and the name of the tree directly before it.

Main results:

- `Level.close` ends the use of a declared rule, and `Derivation.placed` puts what is made of a derivation
  on a level.
- `Derivation.grown` is the tree of a derivation, with its notes.
- `Derivation.places_linearize`: reading the events of a derivation does the same to what waits.
- `Language.grown_of_parse`: the tree of a text is the one that is grown from its derivation.
-/

namespace Descent

/-- What the node of a rule was made by. -/
structure Making where
  /-- The use of the rule. -/
  use : Derivation
  /-- The name that has decided: the last one noted inside the use, or else the one by default. -/
  name : NodeId
  /-- The name of the tree that waits directly before the use, if a tree does. -/
  behind : Option String

/-- A tree that notes at the nodes of rules what they were made by. -/
abbrev Grown :=
  Noted (Option Making)

/-- The leaf of a token. -/
def Grown.leaf (t : LeafToken) : Grown :=
  .node none Tree.leafId (some t) []

/-- What waits inside one use of a declared rule. -/
inductive Slot where
  | tree (t : Grown)
  | name (n : NodeId)

namespace Slot

/-- What waits, without notes. -/
def bare : Slot → Waiting
  | tree t => .tree t.bare
  | name n => .name n

/-- The tree that waits. -/
def tree? : Slot → Option Grown
  | tree t => some t
  | name _ => none

/-- The name that waits. -/
def name? : Slot → Option NodeId
  | tree _ => none
  | name n => some n

end Slot

/-- What waits inside one use of a declared rule, the last one first. -/
abbrev Level :=
  List Slot

namespace Level

/-- The trees of a level, in order. -/
def trees (level : Level) : List Grown :=
  (level.filterMap Slot.tree?).reverse

@[simp]
theorem trees_nil : trees [] = [] :=
  rfl

@[simp]
theorem trees_tree (t : Grown) (level : Level) : trees (.tree t :: level) = trees level ++ [t] :=
  List.reverse_cons

@[simp]
theorem trees_name (n : NodeId) (level : Level) : trees (.name n :: level) = trees level :=
  rfl

/-- The name that was noted last. -/
def name? (level : Level) : Option NodeId :=
  level.findSome? Slot.name?

/-- The tree that waits last, if nothing was noted after it. -/
def last? : Level → Option Grown
  | .tree t :: _ => some t
  | _ => none

/-- Takes trees into the tree that waits last, if that has the given name and the name asks for it. -/
def mergeIntoLast? (n : NodeId) (ts : List Grown) : Level → Option Level
  | .tree last :: rest =>
    if last.id = n.id then
      if n.mergesShallow then some (.tree (last.mergeShallow ts) :: rest)
      else if n.mergesDeep then some (.tree (last.mergeDeepAll ts) :: rest)
      else none
    else none
  | _ => none

/-- Ends the use of a declared rule on the level around it. -/
def close (r : Rule) (use : Derivation) (inside level : Level) : Level :=
  match inside.name?.or r.defaultId with
  | none => inside.trees.reverse.map Slot.tree ++ level
  | some n =>
    match level.mergeIntoLast? n inside.trees with
    | some level => level
    | none =>
      .tree (.node (some ⟨use, n, level.last?.map Noted.id⟩) (r.nodeId.getD n).id none inside.trees) ::
        level

/-- The name that a rule has for its node, as it waits. -/
def own (r : Rule) : Level :=
  (r.nodeId.map Slot.name).toList

end Level

/-- Puts what the use of a rule makes on a level, given what its parts put on one. -/
def Machine.place (m : Machine) (use : Derivation) (parts : Level → Level) (level : Level) : Level :=
  match m.rules.get? use.rule with
  | none => parts level
  | some r =>
    if r.transitional then parts (Level.own r ++ level) else Level.close r use (parts (Level.own r)) level

namespace Derivation

mutual

/-- Puts what is made of a derivation on a level.  A use in which nothing happened makes nothing. -/
def placed (m : Machine) : Derivation → Level → Level
  | token key t, level =>
    if (m.matched key t).kept then .tree (.leaf (Builder.leafOf (m.matched key t))) :: level else level
  | concatenation key parts, level =>
    if parts.isEmpty then level
    else m.place (concatenation key parts) (fun level => placedAll m parts level) level
  | choice key index part, level =>
    m.place (choice key index part) (fun level => placed m part level) level
  | repetition key parts, level =>
    if parts.isEmpty then level
    else m.place (repetition key parts) (fun level => placedAll m parts level) level

/-- Puts what is made of some derivations on a level, one after the other. -/
def placedAll (m : Machine) : List Derivation → Level → Level
  | [], level => level
  | d :: rest, level => placedAll m rest (placed m d level)

end

/-- The tree of a derivation: the only one made of it, or a node around all of them. -/
def grown (m : Machine) (d : Derivation) : Grown :=
  match Level.trees (d.placed m []) with
  | [t] => t
  | ts => .node none (m.topName d.rule) none ts

theorem placed_of_parts {m : Machine} {d : Derivation} (hparts : d.parts ≠ []) (level : Level) :
    d.placed m level = m.place d (placedAll m d.parts) level := by
  cases d with
  | token key t => exact absurd rfl hparts
  | concatenation key parts | repetition key parts =>
    have hnonempty : ¬parts.isEmpty = true := mt List.isEmpty_iff.1 hparts
    rw [placed, if_neg hnonempty]
    rfl
  | choice key index part =>
    rw [placed]
    congr 1

end Derivation

/-! ## Levels among all that waits -/

namespace Level

variable {inside level : Level} {rest : List Waiting}

/-- What waits where a level begins: nothing, the beginning of a declared rule, or a name. -/
def Begins (rest : List Waiting) : Prop :=
  ∀ t more, rest ≠ .tree t :: more

theorem begins_nil : Begins [] := by
  intro t more h
  cases h

theorem begins_mark (key : RuleKey) (rest : List Waiting) : Begins (.mark key :: rest) := by
  intro t more h
  cases h

theorem bare_own (r : Rule) : (own r).map Slot.bare = Builder.ownName r := by
  unfold own Builder.ownName
  cases r.nodeId <;> rfl

/-- What is taken from inside a rule is what waits on its level. -/
theorem takeInside_level (rule : RuleKey) (ts : List Tree) (name : Option NodeId) (inside : Level)
    (rest : List Waiting) :
    Builder.takeInside rule ts name (inside.map Slot.bare ++ .mark rule :: rest) =
      (inside.trees.map Noted.bare ++ ts, name.or inside.name?, rest) := by
  induction inside generalizing ts name with
  | nil => simp [Builder.takeInside, trees, name?]
  | cons slot inside ih =>
    cases slot with
    | tree t =>
      rw [List.map_cons, List.cons_append, Slot.bare, Builder.takeInside, ih, trees_tree, List.map_append,
        List.append_assoc]
      rfl
    | name n =>
      have hname : name? (.name n :: inside) = some n := rfl
      rw [List.map_cons, List.cons_append, Slot.bare, Builder.takeInside, ih, trees_name, hname,
        Option.or_assoc, Option.some_or]

/-- Trees are taken into the last one of a level, never into one before the level. -/
theorem mergeIntoLast?_bare (hrest : Begins rest) (n : NodeId) (ts : List Grown) (level : Level) :
    Builder.mergeIntoLast? n (ts.map Noted.bare) (level.map Slot.bare ++ rest) =
      (level.mergeIntoLast? n ts).map fun level => level.map Slot.bare ++ rest := by
  rcases level with _ | ⟨_ | n', level⟩
  · rcases rest with _ | ⟨_ | _, rest⟩
    · rfl
    · exact absurd rfl (hrest _ _)
    all_goals rfl
  · rename_i last
    simp only [List.map_cons, List.cons_append, Slot.bare, Builder.mergeIntoLast?, mergeIntoLast?,
      Noted.id_bare]
    split
    · split
      · simp [Slot.bare]
      · split
        · simp [Slot.bare]
        · rfl
    · rfl
  · rfl

/-- Ending a declared rule treats a level like what waits. -/
theorem close_bare {r : Rule} {key : RuleKey} (hname : r.name = key) (hrest : Begins rest)
    (use : Derivation) (inside level : Level) :
    Builder.close r (inside.map Slot.bare ++ .mark key :: (level.map Slot.bare ++ rest)) =
      (close r use inside level).map Slot.bare ++ rest := by
  unfold Builder.close close
  rw [hname, takeInside_level, List.append_nil, Option.none_or]
  dsimp only
  rcases inside.name?.or r.defaultId with _ | n
  · have htree : (Waiting.tree ∘ Noted.bare : Grown → Waiting) = Slot.bare ∘ Slot.tree := rfl
    simp only [List.map_append, List.map_map, List.append_assoc, List.map_reverse, htree]
  · dsimp only
    rw [mergeIntoLast?_bare hrest]
    rcases level.mergeIntoLast? n inside.trees with _ | merged
    · simp [Slot.bare, Noted.bare_node]
    · rfl

end Level

/-! ## Reading events -/

/-- Events that do to what waits on a level what a function does to the level, whatever waits where it
begins and whatever comes after them. -/
def Places (rules : RuleTable) (events : List Event) (f : Level → Level) : Prop :=
  ∀ rest : List Waiting, Level.Begins rest → ∀ level opened more,
    Builder.readEvents rules false ⟨level.map Slot.bare ++ rest, opened⟩ (events ++ more) =
      Builder.readEvents rules false ⟨(f level).map Slot.bare ++ rest, opened⟩ more

namespace Places

variable {rules : RuleTable} {es fs : List Event} {f g : Level → Level}

theorem none : Places rules [] id :=
  fun _ _ _ _ _ => rfl

theorem append (h : Places rules es f) (h' : Places rules fs g) :
    Places rules (es ++ fs) fun level => g (f level) := by
  intro rest hrest level opened more
  rw [List.append_assoc, h rest hrest, h' rest hrest]

/-- A use in which nothing happened puts nothing on a level. -/
theorem empty {c c' : Call} (hsame : c'.rule = c.rule) {depth depth' : Int} {left left' : Todo} :
    Places rules [.enter c depth left, .leave c' depth' left'] id := by
  intro rest _ level opened more
  have hleaves : Builder.leavesNext c.rule (.leave c' depth' left' :: more) = true := by
    rw [Builder.leavesNext, hsame, beq_self_eq_true]
  show Builder.readEvents rules false _ (.enter c depth left :: .leave c' depth' left' :: more) = _
  rw [Builder.readEvents, if_neg Bool.false_ne_true, if_pos hleaves, Builder.readEvents, if_pos rfl]
  rfl

theorem token {m : Machine} (key : RuleKey) (t : Token) :
    Places m.rules [.token (m.matched key t)] ((Derivation.token key t).placed m) := by
  intro rest _ level opened more
  rw [List.singleton_append, Builder.readEvents, if_neg Bool.false_ne_true, Derivation.placed]
  by_cases hkept : (m.matched key t).kept = true
  · rw [Builder.addToken, if_pos hkept, if_pos hkept]
    rfl
  · rw [Builder.addToken, if_neg hkept, if_neg hkept]

/-- A use of a rule puts on a level what the rule makes of what its parts do. -/
theorem use {m : Machine} {d : Derivation} {r : Rule} (hr : m.rules.get? d.rule = some r)
    (hname : r.name = d.rule) (hes : Bracketed m.rules es) (hne : es ≠ []) (h : Places m.rules es f)
    (data data' : Nat) (depth depth' : Int) (left left' : Todo) :
    Places m.rules (.enter (m.use d.rule data) depth left ::
      (es ++ [.leave (m.use d.rule data') depth' left'])) (m.place d f) := by
  intro rest hrest level opened more
  have htransitional : (m.use d.rule data).transitional = r.transitional := by
    rw [Machine.use, Machine.isTransitional, hr]
  have henter : (m.use d.rule data).rule = d.rule := rfl
  rw [List.cons_append, List.append_assoc, List.singleton_append, Builder.readEvents,
    if_neg Bool.false_ne_true, Builder.leavesNext_of_bracketed hes hne, if_neg Bool.false_ne_true, henter,
    hr]
  dsimp only
  have hbegin : ((⟨level.map Slot.bare ++ rest, opened⟩ : Builder).beginRule r (m.use d.rule data)) =
      ⟨Builder.ownName r ++ (if r.transitional then level.map Slot.bare ++ rest
        else .mark d.rule :: (level.map Slot.bare ++ rest)), (r, r.transitional) :: opened⟩ := by
    have hwaiting := Builder.waiting_beginRule r (m.use d.rule data) ⟨level.map Slot.bare ++ rest, opened⟩
    rw [htransitional, henter] at hwaiting
    rw [← hwaiting, ← htransitional]
    rfl
  rw [hbegin]
  unfold Machine.place
  rw [hr]
  dsimp only
  rcases hdeclared : r.transitional with _ | _
  · -- a declared rule has a level of its own
    rw [if_neg Bool.false_ne_true, if_neg Bool.false_ne_true, ← Level.bare_own,
      h _ (Level.begins_mark _ _), Builder.readEvents_leave, if_neg Bool.false_ne_true,
      Level.close_bare hname hrest d]
  · -- a part of a body goes on with the level that it is on
    rw [if_pos rfl, if_pos rfl, ← Level.bare_own, ← List.append_assoc, ← List.map_append, h rest hrest,
      Builder.readEvents_leave, if_pos rfl]

end Places

namespace Derivation

variable {m : Machine} {ds : List Derivation} {depth : Int} {es : List Event}

private theorem InTurn.places (hes : InTurn m depth ds es)
    (h : ∀ d ∈ ds, ∀ todo, Places m.rules (d.linearize m depth todo) (d.placed m)) :
    Places m.rules es (placedAll m ds) := by
  induction hes with
  | nil => exact Places.none
  | cons todo _ ih =>
    have hhead := h _ List.mem_cons_self todo
    exact hhead.append (ih fun e he => h e (List.mem_cons_of_mem _ he))

/-- Reading the events of a derivation puts on a level what is made of it. -/
theorem places_linearize (hnames : m.rules.All fun key r => r.name = key) {d : Derivation}
    (h : m.Fits d) (depth : Int) (todo : Todo) :
    Places m.rules (d.linearize m depth todo) (d.placed m) := by
  induction h generalizing depth todo with
  | token => exact Places.token _ _
  | @concatenation key r children parts hr hbody hmap hparts ih =>
    cases parts with
    | nil =>
      apply Places.empty
      rfl
    | cons d ds =>
      have hturn := inTurn_linearizeAll (m := m) (d :: ds) (m.depthInside key depth)
        (todo.push (.leave (m.use key 0) false))
      exact Places.use (d := .concatenation key (d :: ds)) hr (hnames.get? hr)
        (hturn.bracketed fun d hd => bracketed_linearize (hparts d hd) _) hturn.ne_nil
        (hturn.places fun d hd => ih d hd _) _ _ _ _ _ _
  | @choice key r children index part hr hbody hrule hpart ih =>
    exact Places.use (d := .choice key index part) hr (hnames.get? hr) (bracketed_linearize hpart _ _)
      (linearize_ne_nil _ _ _) (ih _ _) _ _ _ _ _ _
  | @repetition key r bounds child parts hr hbody hmap hmin hmax hparts ih =>
    cases parts with
    | nil =>
      apply Places.empty
      rfl
    | cons d ds =>
      have hturn := inTurn_linearizeTimes (m := m) (d :: ds) key (m.depthInside key depth) todo 0
      exact Places.use (d := .repetition key (d :: ds)) hr (hnames.get? hr)
        (hturn.bracketed fun d hd => bracketed_linearize (hparts d hd) _) hturn.ne_nil
        (hturn.places fun d hd => ih d hd _) _ _ _ _ _ _

end Derivation

/-! ## Trees of texts -/

namespace Tree

theorem trees_level (level : Level) :
    Builder.trees (level.map Slot.bare) = level.trees.map Noted.bare := by
  induction level with
  | nil => rfl
  | cons slot level ih =>
    cases slot with
    | tree t => simp [Slot.bare, ih]
    | name n => simp [Slot.bare, ih]

/-- The events of a derivation make the tree that is grown from it. -/
theorem ofEvents_grown {m : Machine} (hnames : m.rules.All fun key r => r.name = key) {d : Derivation}
    (h : m.Fits d) (depth : Int) (todo : Todo) :
    ofEvents m.rules d.rule (d.linearize m depth todo) = .ok (d.grown m).bare := by
  have hread := d.places_linearize hnames h depth todo [] Level.begins_nil [] [] []
  rw [List.append_nil, List.append_nil, List.map_nil] at hread
  rcases h.exists_rule with ⟨r, hr⟩
  unfold ofEvents
  rw [hread, Builder.readEvents]
  dsimp only
  rw [List.isEmpty_nil, if_pos rfl, List.append_nil, trees_level]
  unfold Derivation.grown
  rcases Level.trees (d.placed m []) with _ | ⟨t, _ | ⟨u, ts⟩⟩
  · exact ofTrees_of_many hr (by simp)
  · rfl
  · rw [ofTrees_of_many hr (by simp), Noted.bare_node]

end Tree

namespace Language

variable {H : Host} {g : Grammar} {l : Language} {text : String} {start : Option String} {fuel : Nat} {t : Tree}

/-- The tree of a text is the one that is grown from its derivation. -/
theorem grown_of_parse (hl : ofGrammar H g = .ok l) (ht : l.parse text start fuel = some (.ok t)) :
    ∃ d events ts last, l.startRule? start = some d.rule ∧
      l.trace text start fuel = some (.ok events) ∧ l.Accounts text d.rule events d ts last ∧
      t = (d.grown l.machine).bare := by
  rcases exists_events_of_parse ht with ⟨root, events, hroot, htrace, htree⟩
  rcases trace_sound htrace with ⟨root', s₀, s, d, ts, last, hroot', -, -, -, -, haccounts⟩
  have hrule : root = root' := Option.some.inj (hroot.symm.trans hroot')
  subst hrule
  have hnames : l.machine.rules.All fun key r => r.name = key :=
    Grammar.name_of_rules (rules_of_ofGrammar hl)
  have hgrown := Tree.ofEvents_grown hnames haccounts.fits (-1) .empty
  rw [← haccounts.events_eq, haccounts.rule_eq] at hgrown
  have hsame : Except.ok t = .ok (d.grown l.machine).bare := htree.symm.trans hgrown
  refine ⟨d, events, ts, last, ?_, htrace, ?_, Except.ok.inj hsame⟩
  · rw [haccounts.rule_eq]
    exact hroot
  · rw [haccounts.rule_eq]
    exact haccounts

end Language

end Descent
