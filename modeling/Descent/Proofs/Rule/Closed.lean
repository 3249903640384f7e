import Descent.Proofs.Rule.Compiled
import Descent.Proofs.Rule.Making

/-!
# Rules that fit together

Compiling makes rules from the parts up: a part is held until the rule that refers to it is made, or
it is dropped.  So every reference is to a part that was made before, no part is referred to twice,
and the part whose rule is moved to a declared name is not referred to at all.

Main results:

- `RuleTable.Intact` says so of the rules made so far and of the parts that are held.
- `Compilation.intact_of_course`: compiling keeps it, whatever else is held.
- `Grammar.closed_of_rules`: all references in the rules of a grammar resolve.
- `Grammar.exists_root_of_rules`: there is a rule to start from.
-/

namespace Descent

/-! ## References -/

namespace RuleTable

/-- The keys that the rules of a table refer to. -/
def references (rules : RuleTable) : List RuleKey :=
  rules.entries.flatMap fun e => e.2.children

/-- All references resolve. -/
def Closed (rules : RuleTable) : Prop :=
  ∀ {key : RuleKey} {r : Rule} {child : RuleKey}, rules.get? key = some r → child ∈ r.children →
    rules.get? child ≠ none

variable {rules : RuleTable} {key k : RuleKey} {r r' : Rule}

theorem mem_references (hr : rules.get? key = some r) (hk : k ∈ r.children) :
    k ∈ rules.references :=
  List.mem_flatMap.2 ⟨_, OrderedMap.mem_entries_of_get? hr, hk⟩

/-- Setting a rule adds no more than its own references. -/
theorem count_references_insert_le (rules : RuleTable) (key : RuleKey) (r : Rule) (k : RuleKey) :
    (references (OrderedMap.insert rules key r)).count k ≤
      rules.references.count k + r.children.count k := by
  obtain ⟨entries⟩ := rules
  show ((OrderedMap.insertEntry key r entries).flatMap fun e => e.2.children).count k ≤
    (entries.flatMap fun e => e.2.children).count k + r.children.count k
  induction entries with
  | nil => simp [OrderedMap.insertEntry]
  | cons e rest ih =>
    unfold OrderedMap.insertEntry
    split
    · simp only [List.flatMap_cons, List.count_append]
      omega
    · simp only [List.flatMap_cons, List.count_append]
      omega

/-- Setting a rule takes its references from what is held. -/
theorem count_insert_append_le (rules : RuleTable) (key : RuleKey) (r : Rule) (held : List RuleKey)
    (k : RuleKey) :
    (references (OrderedMap.insert rules key r) ++ held).count k ≤
      (rules.references ++ (r.children ++ held)).count k := by
  have := count_references_insert_le rules key r k
  simp only [List.count_append]
  omega

/-- A rule that is set in place of one with the same references changes none. -/
theorem references_insert_of_children (hr : rules.get? key = some r)
    (hchildren : r'.children = r.children) :
    references (OrderedMap.insert rules key r') = rules.references := by
  obtain ⟨entries⟩ := rules
  show (OrderedMap.insertEntry key r' entries).flatMap (fun e => e.2.children) =
    entries.flatMap fun e => e.2.children
  unfold OrderedMap.get? at hr
  induction entries with
  | nil => cases hr
  | cons e rest ih =>
    unfold OrderedMap.insertEntry
    by_cases hkey : e.1 = key
    · have hsame : e.2 = r := by simpa [hkey] using hr
      rw [if_pos hkey, List.flatMap_cons, List.flatMap_cons, hchildren, hsame]
    · rw [if_neg hkey, List.flatMap_cons, List.flatMap_cons, ih (by simpa [hkey] using hr)]

/-- Erasing a rule takes just its references away. -/
theorem count_references_erase (hr : rules.get? key = some r) (k : RuleKey) :
    (references (OrderedMap.erase rules key)).count k + r.children.count k =
      rules.references.count k := by
  obtain ⟨entries⟩ := rules
  show ((entries.eraseP (·.1 = key)).flatMap fun e => e.2.children).count k + r.children.count k =
    (entries.flatMap fun e => e.2.children).count k
  unfold OrderedMap.get? at hr
  induction entries with
  | nil => cases hr
  | cons e rest ih =>
    by_cases hkey : e.1 = key
    · have hsame : e.2 = r := by simpa [hkey] using hr
      rw [List.eraseP_cons_of_pos (by simpa using hkey), List.flatMap_cons, List.count_append,
        hsame]
      omega
    · have hrest := ih (by simpa [hkey] using hr)
      rw [List.eraseP_cons_of_neg (by simpa using hkey), List.flatMap_cons, List.flatMap_cons,
        List.count_append, List.count_append]
      omega

/-- The rules made so far fit together, and so do the parts that are held for rules to come: what is
referred to is a part that was made or a declared name, and no part is referred to or held twice. -/
structure Intact (names : List String) (rules : RuleTable) (counter : Nat) (held : List RuleKey) :
    Prop where
  below : ∀ n, rules.get? (.part n) ≠ none → n < counter
  known : ∀ n, .part n ∈ rules.references ++ held → rules.get? (.part n) ≠ none
  named : ∀ name, .named name ∈ rules.references ++ held → name ∈ names
  once : ∀ n, (rules.references ++ held).count (.part n) ≤ 1

variable {names : List String} {counter : Nat} {held held' : List RuleKey}

theorem intact_empty : Intact names .empty 0 [] := by
  constructor
  · exact fun n hn => absurd rfl hn
  · exact fun n hn => absurd hn List.not_mem_nil
  · exact fun name hname => absurd hname List.not_mem_nil
  · exact fun n => Nat.zero_le _

/-- What is held may be dropped, and comes in no order. -/
theorem Intact.mono (h : Intact names rules counter held)
    (hheld : ∀ k, held'.count k ≤ held.count k) : Intact names rules counter held' := by
  have hle (k : RuleKey) :
      (rules.references ++ held').count k ≤ (rules.references ++ held).count k := by
    rw [List.count_append, List.count_append]
    exact Nat.add_le_add_left (hheld k) _
  exact ⟨h.below, fun n hn => h.known n (mem_of_count_le hle hn),
    fun n hn => h.named n (mem_of_count_le hle hn), fun n => Nat.le_trans (hle _) (h.once n)⟩

theorem Intact.hold (h : Intact names rules counter held) {name : String} (hname : name ∈ names) :
    Intact names rules counter (.named name :: held) := by
  have hcount (n : Nat) : (RuleKey.named name :: held).count (.part n) = held.count (.part n) :=
    List.count_cons_of_ne (RuleKey.part_ne_named n name).symm
  refine ⟨h.below, fun n hn => ?_, fun other hother => ?_, fun n => ?_⟩
  · rw [← List.count_pos_iff, List.count_append, hcount, ← List.count_append,
      List.count_pos_iff] at hn
    exact h.known n hn
  · rw [List.mem_append, List.mem_cons] at hother
    rcases hother with hold | hsame | hold
    · exact h.named other (List.mem_append_left _ hold)
    · cases hsame
      exact hname
    · exact h.named other (List.mem_append_right _ hold)
  · have honce := h.once n
    rw [List.count_append] at honce ⊢
    rw [hcount]
    exact honce

/-- A part that was not made yet is not referred to. -/
theorem Intact.count_of_le (h : Intact names rules counter held) {n : Nat} (hn : counter ≤ n) :
    (rules.references ++ held).count (.part n) = 0 := by
  rw [List.count_eq_zero]
  intro hmem
  exact absurd (h.below n (h.known n hmem)) (Nat.not_lt.2 hn)

/-- A new rule takes the parts that it refers to, and is held itself. -/
theorem Intact.insert (h : Intact names rules counter (r.children ++ held)) :
    Intact names (OrderedMap.insert rules (.part counter) r) (counter + 1)
      (.part counter :: held) := by
  have hle := count_insert_append_le rules (.part counter) r held
  have hmem {k : RuleKey} (hk : k ∈ references (OrderedMap.insert rules (.part counter) r) ++
      .part counter :: held) :
      k = .part counter ∨ k ∈ rules.references ++ (r.children ++ held) := by
    rw [List.mem_append, List.mem_cons, or_left_comm, ← List.mem_append] at hk
    exact hk.imp_right (mem_of_count_le hle)
  have hother {n : Nat} (hn : n ≠ counter) :
      (OrderedMap.insert rules (.part counter) r).get? (.part n) = rules.get? (.part n) :=
    OrderedMap.get?_insert_of_ne rules r (by simpa using Ne.symm hn)
  refine ⟨fun n hn => ?_, fun n hn => ?_, fun name hname => ?_, fun n => ?_⟩
  · by_cases hsame : n = counter
    · omega
    · rw [hother hsame] at hn
      exact Nat.lt_succ_of_lt (h.below n hn)
  · by_cases hsame : n = counter
    · rw [hsame, OrderedMap.get?_insert_self]
      exact Option.some_ne_none r
    · rcases hmem hn with hkey | hold
      · cases hkey
        exact absurd rfl hsame
      · rw [hother hsame]
        exact h.known n hold
  · rcases hmem hname with hkey | hold
    · cases hkey
    · exact h.named name hold
  · have hn := hle (.part n)
    have honce := h.once n
    simp only [List.count_append, List.count_cons] at hn honce ⊢
    by_cases hsame : n = counter
    · have hnone := h.count_of_le (Nat.le_of_eq hsame.symm)
      simp only [List.count_append] at hnone
      split <;> omega
    · have hne : (RuleKey.part counter == .part n) = false := by
        simpa using Ne.symm hsame
      rw [hne]
      simp only [Bool.false_eq_true, if_false]
      omega

/-- Another name for the node of a rule changes nothing. -/
theorem Intact.rename (h : Intact names rules counter held) (hr : rules.get? key = some r)
    (hchildren : r'.children = r.children) :
    Intact names (OrderedMap.insert rules key r') counter held := by
  have hsame (k : RuleKey) :
      (OrderedMap.insert rules key r').get? k ≠ none ↔ rules.get? k ≠ none := by
    by_cases hk : key = k
    · rw [← hk, OrderedMap.get?_insert_self, hr]
      simp
    · rw [OrderedMap.get?_insert_of_ne rules r' hk]
  have hreferences := references_insert_of_children hr hchildren
  constructor
  · exact fun n hn => h.below n ((hsame _).1 hn)
  · intro n hn
    rw [hreferences] at hn
    exact (hsame _).2 (h.known n hn)
  · rw [hreferences]
    exact h.named
  · rw [hreferences]
    exact h.once

/-- A declared rule takes the parts that it refers to. -/
theorem Intact.declare (h : Intact names rules counter (r.children ++ held)) (name : String) :
    Intact names (OrderedMap.insert rules (.named name) r) counter held := by
  have hle := count_insert_append_le rules (.named name) r held
  have hother (n : Nat) :
      (OrderedMap.insert rules (.named name) r).get? (.part n) = rules.get? (.part n) :=
    OrderedMap.get?_insert_of_ne rules r (RuleKey.part_ne_named n name).symm
  refine ⟨fun n hn => ?_, fun n hn => ?_, fun other hmem => h.named other (mem_of_count_le hle hmem),
    fun n => Nat.le_trans (hle _) (h.once n)⟩
  · rw [hother n] at hn
    exact h.below n hn
  · rw [hother n]
    exact h.known n (mem_of_count_le hle hn)

/-- A part that is held may be taken out of the table: nothing refers to it. -/
theorem Intact.erase {n : Nat} (h : Intact names rules counter [.part n])
    (hr : rules.get? (.part n) = some r) :
    Intact names (OrderedMap.erase rules (.part n)) counter (r.children ++ []) := by
  have hcount (k : RuleKey) :
      (references (OrderedMap.erase rules (.part n)) ++ (r.children ++ [])).count k =
        rules.references.count k := by
    rw [List.append_nil, List.count_append, count_references_erase hr]
  have hmem {k : RuleKey}
      (hk : k ∈ references (OrderedMap.erase rules (.part n)) ++ (r.children ++ [])) :
      k ∈ rules.references :=
    mem_of_count_le (fun k => Nat.le_of_eq (hcount k)) hk
  have hother {i : Nat} (hi : i ≠ n) :
      (OrderedMap.erase rules (.part n)).get? (.part i) = rules.get? (.part i) :=
    OrderedMap.get?_erase_of_ne rules (by simpa using Ne.symm hi)
  refine ⟨fun i hi => ?_, fun i hi => ?_, fun name hname => ?_, fun i => ?_⟩
  · by_cases hsame : i = n
    · rw [hsame]
      exact h.below n (by simp [hr])
    · rw [hother hsame] at hi
      exact h.below i hi
  · have hold := hmem hi
    have hne : i ≠ n := by
      intro hsame
      have honce := h.once n
      rw [List.count_append, List.count_singleton_self] at honce
      have hpos := List.count_pos_iff.2 (hsame ▸ hold)
      omega
    rw [hother hne]
    exact h.known i (List.mem_append_left _ hold)
  · exact h.named name (List.mem_append_left _ (hmem hname))
  · have honce := h.once i
    rw [List.count_append] at honce
    rw [hcount]
    omega

end RuleTable

namespace Compilation

open RuleTable (Intact)

variable {s : BodyScope} {c c₁ : Compilation} {pending pending₁ : Pending} {key : RuleKey}
  {key? : Option RuleKey} {held : List RuleKey}

theorem makingInvariant_intact (names : List String) : MakingInvariant names (Intact names) :=
  ⟨fun h => h.mono, fun h => h.hold, fun h => h.insert, fun h => h.rename⟩

/-- Compiling keeps the rules together, whatever else is held: it takes what was done, and what it
makes is held. -/
theorem intact_of_course {task : Task} (h : Course s task c key? pending c₁)
    (hc : Intact s.names c.rules c.counter (task.done ++ held)) :
    Intact s.names c₁.rules c₁.counter (key?.toList ++ held) :=
  (makingInvariant_intact s.names).of_course h hc

theorem extends_afterPart {child : RuleKey}
    (h : c.afterPart s child pending = .ok (key?, pending₁, c₁)) : Extends c c₁ := by
  rcases exists_of_afterPart h with ⟨numbers, c₂, c₃, key, hquantifier, hname, hrepeat, -⟩
  have h₂ : Extends c c₂ := by
    rcases quantifier_cases hquantifier with ⟨-, rfl⟩ | ⟨_, _, -, -, -, rfl⟩
    · exact .refl _
    · exact extends_advance c
  have h₃ : Extends c₂ c₃ := by
    rcases nodeMark_cases hname with ⟨-, rfl⟩ | ⟨_, _, -, -, -, rfl⟩
    · exact .refl _
    · exact extends_advance c₂
  rcases repeatPart_cases hrepeat with ⟨-, hpart⟩ | ⟨bounds, -, hpart⟩
  · cases hpart
    exact h₂.trans h₃
  · cases hpart
    exact (h₂.trans h₃).trans (extends_addPart _ _)

/-- The rule of a sequence is new if a name waits for it. -/
theorem extends_sequence (c : Compilation) (keys : List RuleKey) (pending : Pending) :
    Extends c (c.sequence keys pending).2 ∧
      (pending ≠ none → ∃ n, (c.sequence keys pending).1 = .part n ∧ c.counter ≤ n) := by
  unfold sequence
  split
  · exact ⟨.refl c, fun hpending => absurd rfl hpending⟩
  · exact ⟨extends_addPart c _, fun _ => ⟨c.counter, rfl, Nat.le_refl _⟩⟩

theorem extends_alternatives (c : Compilation) (keys : List RuleKey) :
    Extends c (c.alternatives keys).2 := by
  unfold alternatives
  split
  · exact .refl c
  · exact extends_addPart c _

/-- What a task makes is new if a name waits to be attached to it: only sequences leave such names. -/
def Task.Fresh (c : Compilation) (key? : Option RuleKey) (pending : Pending) : Task → Prop
  | concatenation _ _ => ∀ key, key? = some key → pending ≠ none →
    ∃ n, key = .part n ∧ c.counter ≤ n
  | choice _ _ | simple _ => True

/-- Compiling only adds rules. -/
theorem extends_of_course {task : Task} (h : Course s task c key? pending c₁) :
    Extends c c₁ ∧ task.Fresh c key? pending := by
  have hadvance {c : Compilation} : Extends c c.advance := extends_advance c
  induction h with
  | idle task c =>
    refine ⟨.refl c, ?_⟩
    cases task with
    | concatenation done pending => exact fun key hkey => absurd hkey (by simp)
    | choice done pending => trivial
    | simple pending => trivial
  | other hw hopening => exact ⟨.refl _, trivial⟩
  | token hw hsign hkey =>
    rcases exists_of_reference hkey with ⟨kind, index, -, -, hpart⟩
    cases hpart
    exact ⟨(extends_addPart _ _).trans hadvance, trivial⟩
  | call hw hsign hkey =>
    rcases call_cases hkey with ⟨-, hpart | hpart⟩
    · cases hpart
      exact ⟨hadvance.trans (extends_addPart _ _), trivial⟩
    · cases hpart
      exact ⟨hadvance, trivial⟩
  | emptyGroup hw hopening hinside ih => exact ⟨hadvance.trans ih.1, trivial⟩
  | openGroup hw hopening hinside hw₁ hclosing ih => exact ⟨hadvance.trans ih.1, trivial⟩
  | group hw hopening hinside hw₁ hclosing ih =>
    exact ⟨(hadvance.trans ih.1).trans hadvance, trivial⟩
  | part hpart hafter hrest ih ihrest =>
    have hbefore := ih.1.trans (extends_afterPart hafter)
    refine ⟨hbefore.trans ihrest.1, ?_⟩
    intro key hkey hpending
    rcases ihrest.2 key hkey hpending with ⟨n, hn, hle⟩
    exact ⟨n, hn, Nat.le_trans hbefore.counter_le hle⟩
  | noPart hpart ih => exact ⟨ih.1, fun key hkey => absurd hkey (by simp)⟩
  | @parts done pending pending₁ c c₁ hpart hdone ih =>
    rcases extends_sequence c₁ done.reverse pending₁ with ⟨hsequence, hfresh⟩
    refine ⟨ih.1.trans hsequence, ?_⟩
    intro key hkey hpending
    cases hkey
    rcases hfresh hpending with ⟨n, hn, hle⟩
    exact ⟨n, hn, Nat.le_trans ih.1.counter_le hle⟩
  | noBranch hbranch ih => exact ⟨ih.1, trivial⟩
  | branch hbranch hw hbar hrest ih ihrest =>
    have hnamed := ih.1.nameWaiting (ih.2 _ rfl)
    exact ⟨(hnamed.trans hadvance).trans ihrest.1, trivial⟩
  | branches hbranch hw hbar ih =>
    have hnamed := ih.1.nameWaiting (ih.2 _ rfl)
    exact ⟨hnamed.trans (extends_alternatives _ _), trivial⟩

/-! ## Declared rules -/

variable {rules rules' : RuleTable} {top : RuleKey} {counter counter' : Nat} {name body : String}

/-- The rule of a declared body is there, and so are all those declared before. -/
theorem named_of_declare (hrules : declare s rules top name body = .ok rules') :
    rules'.get? (.named (bareRuleName name)) ≠ none ∧
      ∀ other, rules.get? (.named other) ≠ none → rules'.get? (.named other) ≠ none := by
  have hinsert (table : RuleTable) (r : Rule) {other : String}
      (hother : table.get? (.named other) ≠ none) :
      (OrderedMap.insert table (.named (bareRuleName name)) r).get? (.named other) ≠ none := by
    by_cases hsame : RuleKey.named (bareRuleName name) = .named other
    · rw [← hsame, OrderedMap.get?_insert_self]
      exact Option.some_ne_none r
    · rw [OrderedMap.get?_insert_of_ne table r hsame]
      exact hother
  have hself (table : RuleTable) (r : Rule) :
      (OrderedMap.insert table (.named (bareRuleName name)) r).get? (.named (bareRuleName name)) ≠
        none := by
    rw [OrderedMap.get?_insert_self]
    exact Option.some_ne_none r
  rcases declare_cases hrules with ⟨call, rfl, rfl⟩ | ⟨n, r, rfl, hr, rfl⟩
  · exact ⟨hself rules _, fun other hother => hinsert rules _ hother⟩
  · refine ⟨hself _ _, fun other hother => hinsert _ _ ?_⟩
    rw [OrderedMap.get?_erase_of_ne rules (RuleKey.part_ne_named n other)]
    exact hother

theorem intact_declare {names : List String} (h : Intact names rules counter [top])
    (hrules : declare s rules top name body = .ok rules') : Intact names rules' counter [] := by
  rcases declare_cases hrules with ⟨call, rfl, rfl⟩ | ⟨n, r, rfl, hr, rfl⟩
  · exact Intact.declare h _
  · have herased := h.erase hr
    exact Intact.declare (by exact herased) _

/-- What compiling a declared body makes of rules that fit together. -/
structure Adds (names : List String) (rules rules' : RuleTable) (counter' : Nat)
    (added : List String) : Prop where
  intact : Intact names rules' counter' []
  known : ∀ name ∈ added, rules'.get? (.named name) ≠ none
  kept : ∀ name, rules.get? (.named name) ≠ none → rules'.get? (.named name) ≠ none

theorem adds_of_declareBody (h : Intact s.names rules counter [])
    (hrules : declareBody s rules counter name body = .ok (rules', counter')) :
    Adds s.names rules rules' counter' [bareRuleName name] := by
  rcases exists_of_declareBody hrules with ⟨top, pending, c, hchoice, -, hdeclare, rfl⟩
  have hcourse := course_of_choice hchoice
  have hkept := (extends_of_course hcourse).1.named
  rcases named_of_declare hdeclare with ⟨hknown, hold⟩
  refine ⟨intact_declare (intact_of_course hcourse h) hdeclare, by simpa using hknown, ?_⟩
  intro other hother
  exact hold other (by rw [hkept]; exact hother)

theorem Adds.trans {names added added' : List String} {rules₁ : RuleTable} {counter₁ : Nat}
    (h : Adds names rules rules₁ counter₁ added) (h₁ : Adds names rules₁ rules' counter' added') :
    Adds names rules rules' counter' (added ++ added') := by
  refine ⟨h₁.intact, fun name hname => ?_, fun name hname => h₁.kept name (h.kept name hname)⟩
  rcases List.mem_append.1 hname with hname | hname
  · exact h₁.kept name (h.known name hname)
  · exact h₁.known name hname

theorem adds_of_declareBodies {kinds names : List String} {bodies : List (String × String)}
    (h : Intact names rules counter [])
    (hrules : declareBodies kinds names rules counter bodies = .ok rules') :
    ∃ counter', Adds names rules rules' counter' (bodies.map fun b => bareRuleName b.1) := by
  refine invariant_of_declareBodies
    (fun front rules₁ counter₁ =>
      Adds names rules rules₁ counter₁ (front.map fun b => bareRuleName b.1))
    (fun {front b _ _ _ _} _ hbefore hbody => ?_)
    ⟨h, fun name hname => absurd hname List.not_mem_nil, fun _ => id⟩ hrules
  rw [List.map_append]
  exact hbefore.trans (adds_of_declareBody hbefore.intact hbody)

end Compilation

namespace Grammar

variable {g : Grammar} {rules : RuleTable}

theorem adds_of_rules (h : g.rules = .ok rules) :
    g.bodies.isEmpty = false ∧
      ∃ counter, Compilation.Adds g.ruleNames .empty rules counter g.ruleNames := by
  have hnames : g.ruleNames = g.bodies.entries.map fun b => bareRuleName b.1 := by
    rw [ruleNames, OrderedMap.keys, List.map_map]
    rfl
  unfold Grammar.rules at h
  split at h
  · cases h
  · rename_i hbodies
    refine ⟨by simpa using hbodies, ?_⟩
    rcases Compilation.adds_of_declareBodies RuleTable.intact_empty h with ⟨counter, hadds⟩
    rw [← hnames] at hadds
    exact ⟨counter, hadds⟩

/-- All references in the rules of a grammar resolve. -/
theorem closed_of_rules (h : g.rules = .ok rules) : rules.Closed := by
  rcases adds_of_rules h with ⟨-, counter, hadds⟩
  intro key r child hr hchild
  have hmem : child ∈ rules.references ++ [] :=
    List.mem_append_left _ (RuleTable.mem_references hr hchild)
  cases child with
  | named name => exact hadds.known name (hadds.intact.named name hmem)
  | part n => exact hadds.intact.known n hmem

/-- The rules of a grammar have a first one. -/
theorem exists_root_of_rules (h : g.rules = .ok rules) :
    ∃ root, rules.root? = some root ∧ rules.get? root ≠ none := by
  rcases adds_of_rules h with ⟨hbodies, counter, hadds⟩
  obtain ⟨name, hname⟩ : ∃ name, rules.get? (.named name) ≠ none := by
    rcases hentries : g.bodies.entries with _ | ⟨b, rest⟩
    · rw [OrderedMap.isEmpty, hentries] at hbodies
      cases hbodies
    · refine ⟨bareRuleName b.1, hadds.known _ ?_⟩
      rw [ruleNames, OrderedMap.keys, hentries]
      exact List.mem_cons_self
  rcases hroot : rules.root? with _ | root
  · have hnone := List.find?_eq_none.1 hroot _ (OrderedMap.mem_keys_iff.2 hname)
    exact absurd rfl hnone
  · exact ⟨root, rfl, OrderedMap.mem_keys_iff.1 (List.mem_of_find?_eq_some hroot)⟩

end Grammar

end Descent
