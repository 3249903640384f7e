import Descent.Proofs.Rule.WellFormed

/-!
# Rules that are declared last

The names of all declared rules are in scope in every body, so that a body is compiled among other names
when one more rule is declared.  But names are only looked up, and a body that compiles calls no rule
that is not there: more names change nothing about it.  The rules of a last body get numbers that are
not taken, and its name is not taken either, so that everything before it stays where it is.

Main results:

- `Compilation.compile_withNames`: a body that compiles does so in the same way with more names.
- `Compilation.extends_of_declareBody`: a body under a new name adds its rules at the end.
- `Grammar.extends_of_declaring`: the rules of a grammar come first in the rules of one that declares one
  more rule.
-/

namespace Descent

theorem RuleTable.root?_of_extends {rules rules' : RuleTable} {root : RuleKey}
    (h : OrderedMap.Extends rules rules') (hroot : rules.root? = some root) :
    rules'.root? = some root := by
  rcases h with ⟨back, hback⟩
  unfold root? OrderedMap.keys at hroot ⊢
  rw [← hback, List.map_append, List.find?_append, hroot]
  rfl

/-! ## More names -/

/-- The same scope with other names of rules. -/
def BodyScope.withNames (s : BodyScope) (names : List String) : BodyScope :=
  { s with names := names }

namespace Compilation

variable {s : BodyScope} {names : List String} {fuel : Nat} {c : Compilation} {pending : Pending}
  {done : List RuleKey} {rules rules' : RuleTable} {counter counter' : Nat}
  {key body : String}

theorem call_withNames (hsub : s.names ⊆ names) {name : String} {r : RuleKey × Compilation}
    (h : c.call s name = .ok r) : c.call (s.withNames names) name = .ok r := by
  unfold call at h ⊢
  split at h
  · rename_i hname
    have hname' : (s.withNames names).names.contains name = true := by
      rw [List.contains_iff_mem] at hname ⊢
      exact hsub hname
    rw [if_pos hname']
    exact h
  · cases h

/-- Tasks that are compiled with some fuel come to the same with more names. -/
private def Persists (s : BodyScope) (names : List String) (fuel : Nat) : Prop :=
  ∀ (task : Task) {c : Compilation} {r : Option RuleKey × Pending × Compilation},
    task.compile s fuel c = .ok r → task.compile (s.withNames names) fuel c = .ok r

section

variable {r : Option RuleKey × Pending × Compilation}

private theorem choice_persists (ih : Persists s names fuel)
    (h : choice s pending (fuel + 1) done c = .ok r) :
    choice (s.withNames names) pending (fuel + 1) done c = .ok r := by
  unfold choice at h ⊢
  split at h
  · cases h
  · rename_i hbranch
    rw [show concatenation (s.withNames names) fuel [] pending c = _ from
      ih (.concatenation [] pending) hbranch]
    exact h
  · rename_i key branchId c₁ hbranch
    rw [show concatenation (s.withNames names) fuel [] pending c = _ from
      ih (.concatenation [] pending) hbranch]
    dsimp only at h ⊢
    split at h
    · cases h
    · rename_i w hw
      rw [show (c₁.nameWaiting key branchId).current (s.withNames names) = _ from hw]
      dsimp only
      split at h
      · rename_i hbar
        rw [if_pos hbar]
        exact ih (.choice (key :: done) pending) h
      · rename_i hbar
        rw [if_neg hbar]
        exact h

private theorem concatenation_persists (ih : Persists s names fuel)
    (h : concatenation s (fuel + 1) done pending c = .ok r) :
    concatenation (s.withNames names) (fuel + 1) done pending c = .ok r := by
  unfold concatenation at h ⊢
  split at h
  · cases h
  · rename_i child pending₁ c₁ hpart
    rw [show simple (s.withNames names) fuel pending c = _ from ih (.simple pending) hpart]
    dsimp only
    split at h
    · cases h
    · rename_i key pending₂ c₂ hafter
      rw [show c₁.afterPart (s.withNames names) child pending₁ = _ from hafter]
      exact ih (.concatenation (key :: done) pending₂) h
    · rename_i hafter
      rw [show c₁.afterPart (s.withNames names) child pending₁ = _ from hafter]
      exact h
  · rename_i hpart
    rw [show simple (s.withNames names) fuel pending c = _ from ih (.simple pending) hpart]
    exact h

private theorem simple_persists (hsub : s.names ⊆ names) (ih : Persists s names fuel)
    (h : simple s (fuel + 1) pending c = .ok r) :
    simple (s.withNames names) (fuel + 1) pending c = .ok r := by
  unfold simple at h ⊢
  split at h
  · cases h
  · rename_i w hw
    rw [show c.current (s.withNames names) = _ from hw]
    dsimp only
    split at h
    · split at h
      · cases h
      · rename_i hinside
        rw [show choice (s.withNames names) pending fuel [] c.advance = _ from
          ih (.choice [] pending) hinside]
        exact h
      · rename_i key pending₁ c₁ hinside
        rw [show choice (s.withNames names) pending fuel [] c.advance = _ from
          ih (.choice [] pending) hinside]
        exact h
    · exact h
    · split at h
      · cases h
      · rename_i hkey
        rw [call_withNames hsub hkey]
        exact h
    · exact h

/-- A task that is compiled without an error comes to the same with more names. -/
theorem compile_withNames (hsub : s.names ⊆ names) (task : Task)
    (h : task.compile s fuel c = .ok r) : task.compile (s.withNames names) fuel c = .ok r := by
  suffices hpersists : ∀ fuel, Persists s names fuel from hpersists fuel task h
  intro fuel
  induction fuel with
  | zero =>
    intro task c r h
    cases task <;> exact h
  | succ fuel ih =>
    intro task c r h
    cases task with
    | choice done pending => exact choice_persists ih h
    | concatenation done pending => exact concatenation_persists ih h
    | simple pending => exact simple_persists hsub ih h

theorem choice_withNames (hsub : s.names ⊆ names) (h : choice s pending fuel done c = .ok r) :
    choice (s.withNames names) pending fuel done c = .ok r :=
  compile_withNames hsub (.choice done pending) h

end

theorem declareBody_withNames (hsub : s.names ⊆ names) {r : RuleTable × Nat}
    (h : declareBody s rules counter key body = .ok r) :
    declareBody (s.withNames names) rules counter key body = .ok r := by
  unfold declareBody at h ⊢
  dsimp only at h ⊢
  split at h
  · cases h
  · cases h
  · rename_i hchoice
    rw [choice_withNames hsub hchoice]
    exact h

theorem declareBodies_withNames {kinds names names' : List String} (hsub : names ⊆ names')
    {bodies : List (String × String)}
    (h : declareBodies kinds names rules counter bodies = .ok rules') :
    declareBodies kinds names' rules counter bodies = .ok rules' := by
  induction bodies generalizing rules counter with
  | nil => exact h
  | cons b bodies ih =>
    unfold declareBodies at h ⊢
    split at h
    · cases h
    · rename_i hbody
      rw [show declareBody ⟨kinds, names', bareRuleName b.1⟩ rules counter b.1 b.2 = _ from
        declareBody_withNames (s := ⟨kinds, names, bareRuleName b.1⟩) hsub hbody]
      exact ih h

/-! ## One more body -/

/-- A body that is compiled under a new name adds its rules at the end. -/
theorem extends_of_declareBody (hbelow : ∀ n, .part n ∈ rules.keys → n < counter)
    (hname : .named (bareRuleName key) ∉ rules.keys)
    (h : declareBody s rules counter key body = .ok (rules', counter')) :
    OrderedMap.Extends rules rules' := by
  rcases exists_of_declareBody h with ⟨top, pending, c, hchoice, -, hdeclare, rfl⟩
  have hmade : Continues rules counter c.rules c.counter [top] :=
    (makingInvariant_continues s.names hbelow).of_course (course_of_choice hchoice)
      ⟨Nat.le_refl _, fun n hn => absurd hn List.not_mem_nil, .refl rules⟩
  rcases declare_cases hdeclare with ⟨name, -, rfl⟩ | ⟨n, r, rfl, -, rfl⟩
  · exact hmade.extends_base.insert hname _
  · have hnew : .part n ∉ rules.keys := fun hmem =>
      absurd (hbelow n hmem) (Nat.not_lt.2 (hmade.new n List.mem_cons_self))
    exact (hmade.extends_base.erase hnew).insert hname _

/-- The last body is compiled after the others. -/
theorem exists_declareBody_of_append {kinds names : List String} {bodies : List (String × String)}
    {rules₁ : RuleTable} (hintact : RuleTable.Intact names rules counter [])
    (hbodies : declareBodies kinds names rules counter bodies = .ok rules₁)
    (h : declareBodies kinds names rules counter (bodies ++ [(key, body)]) = .ok rules') :
    ∃ counter₁ counter', RuleTable.Intact names rules₁ counter₁ [] ∧
      declareBody ⟨kinds, names, bareRuleName key⟩ rules₁ counter₁ key body =
        .ok (rules', counter') := by
  induction bodies generalizing rules counter with
  | nil =>
    cases hbodies
    rw [List.nil_append] at h
    unfold declareBodies at h
    split at h
    · cases h
    · rename_i rules₂ counter₂ hbody
      cases h
      exact ⟨counter, counter₂, hintact, hbody⟩
  | cons b bodies ih =>
    rw [List.cons_append] at h
    unfold declareBodies at h hbodies
    split at hbodies
    · cases hbodies
    · rename_i hbody
      rw [hbody] at h
      exact ih (adds_of_declareBody hintact hbody).intact hbodies h

end Compilation

/-! ## Grammars with one more rule -/

namespace Grammar

variable {g : Grammar} {key body : String} {rules rules' : RuleTable}

/-- The grammar with one more rule. -/
def declaring (g : Grammar) (key body : String) : Grammar :=
  { g with bodies := g.bodies.insert key body }

theorem entries_declaring (hnew : bareRuleName key ∉ g.ruleNames) (body : String) :
    (g.declaring key body).bodies.entries = g.bodies.entries ++ [(key, body)] :=
  OrderedMap.entries_insert_of_not_mem _ _ fun hkey => hnew (List.mem_map_of_mem hkey)

theorem ruleNames_declaring (hnew : bareRuleName key ∉ g.ruleNames) (body : String) :
    (g.declaring key body).ruleNames = g.ruleNames ++ [bareRuleName key] := by
  rw [ruleNames, OrderedMap.keys, entries_declaring hnew, List.map_append, List.map_append]
  rfl

/-- The rules of a grammar come first in those of the grammar with one more rule, if its name is new. -/
theorem extends_of_declaring (hnew : bareRuleName key ∉ g.ruleNames) (h : g.rules = .ok rules)
    (h' : (g.declaring key body).rules = .ok rules') : OrderedMap.Extends rules rules' := by
  have hbodies := declareBodies_of_rules h
  have hbodies' := declareBodies_of_rules h'
  have hsub : g.ruleNames ⊆ (g.declaring key body).ruleNames := by
    rw [ruleNames_declaring hnew]
    exact List.subset_append_left _ _
  rw [entries_declaring hnew] at hbodies'
  obtain ⟨counter, counter', hintact, hbody⟩ :=
    Compilation.exists_declareBody_of_append RuleTable.intact_empty
      (Compilation.declareBodies_withNames hsub hbodies) hbodies'
  refine Compilation.extends_of_declareBody ?_ ?_ hbody
  · exact fun n hn => hintact.below n (OrderedMap.mem_keys_iff.1 hn)
  · exact fun hname => hnew ((named_mem_keys_iff h).1 hname)

end Grammar

end Descent
