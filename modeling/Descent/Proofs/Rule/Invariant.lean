import Descent.Proofs.Rule.Course

/-!
# Properties of compiled rules

A rule that is compiled begins as a part of a body without names; then it may get a name for its node,
and the rule of a whole body is declared.  A property of rules that holds at the beginning and is kept by
these two steps holds of all rules of a grammar.

Main results:

- `RuleInvariant` is such a property; it may rely on what is known of the names of nodes.
- `Compilation.meets_of_course`: compiling a body keeps it.
- `Grammar.all_of_rules`: it holds of all rules of a grammar.
- `Grammar.asksFor_of_rules`, `Grammar.name_of_rules`, `Grammar.isNamed_of_rules`: what is known of the
  rules of any grammar.
-/

namespace Descent

/-- A body that matches a token matches one of some kinds. -/
def RuleBody.AsksFor (kinds : List String) : RuleBody → Prop
  | .token kind _ _ => kind ∈ kinds
  | _ => True

/-- A property of rules under their keys that compiling with some kinds of tokens keeps, if the names of
nodes have a property of their own. -/
structure RuleInvariant (kinds : List String) (P : RuleKey → Rule → Prop) (Q : String → Prop) :
    Prop where
  part : ∀ (n : Nat) (body : RuleBody), body.AsksFor kinds → P (.part n) (.ofBody (.part n) body)
  node : ∀ {n : Nat} {r : Rule} {id : String}, P (.part n) r → Q id →
    P (.part n) { r with nodeId := some (.ofString id) }
  declared : ∀ {n : Nat} {r : Rule} {key : String} (body : String), P (.part n) r →
    (isMarked key = true → Q key) → P (.named (bareRuleName key)) (r.declared key body)

/-- The names of nodes in a body have a property. -/
def NamesIn (Q : String → Prop) (body : String) : Prop :=
  ∀ w id, .ok w ∈ signsOf body → w.sign = .node id → Q id

namespace RuleTable

variable {P : RuleKey → Rule → Prop} {rules : RuleTable} {key : RuleKey} {r : Rule}

/-- All rules of a table have a property. -/
def All (P : RuleKey → Rule → Prop) (rules : RuleTable) : Prop :=
  ∀ e ∈ rules.entries, P e.1 e.2

theorem All.get? (h : rules.All P) (hr : rules.get? key = some r) : P key r :=
  h _ (OrderedMap.mem_entries_of_get? hr)

theorem All.insert (h : rules.All P) (hr : P key r) : All P (OrderedMap.insert rules key r) := by
  intro e he
  rcases OrderedMap.mem_entries_insert he with rfl | he
  · exact hr
  · exact h e he

theorem All.erase (h : rules.All P) (key : RuleKey) : All P (OrderedMap.erase rules key) :=
  fun e he => h e (List.eraseP_subset he)

end RuleTable

namespace Compilation

variable {P : RuleKey → Rule → Prop} {Q : String → Prop} {s : BodyScope} {c c₁ : Compilation}
  {key : RuleKey} {pending pending' : Pending}

/-- The rules so far have a property, and the names of nodes still to be read have theirs. -/
structure Meets (P : RuleKey → Rule → Prop) (Q : String → Prop) (c : Compilation) : Prop where
  rules : c.rules.All P
  signs : ∀ w id, .ok w ∈ c.cursor.remaining → w.sign = .node id → Q id

/-- A name that waits has a property. -/
def Pending.Meets (Q : String → Prop) (pending : Pending) : Prop :=
  ∀ id, pending = some id → Q id

theorem mem_remaining_of_advance {x : Except LexError WrittenSign}
    (h : x ∈ c.advance.cursor.remaining) : x ∈ c.cursor.remaining := by
  unfold Compilation.advance Lookahead.advance at h
  dsimp only at h
  split at h
  · exact h
  · rename_i hremaining
    rw [hremaining]
    exact List.mem_cons_of_mem _ h

/-- The current sign is one that is still to be read, or the ending. -/
theorem mem_remaining_of_current {w : WrittenSign} (hw : c.current s = .ok w)
    (hsign : w.sign ≠ .ending) : .ok w ∈ c.cursor.remaining := by
  unfold Compilation.current at hw
  split at hw
  · rename_i w' hcurrent
    cases hw
    exact List.mem_of_mem_head? hcurrent
  · cases hw
  · cases hw
    exact absurd rfl hsign

theorem Meets.advance (h : c.Meets P Q) : c.advance.Meets P Q :=
  ⟨h.rules, fun w id hw => h.signs w id (mem_remaining_of_advance hw)⟩

theorem Meets.current (h : c.Meets P Q) {w : WrittenSign} {id : String}
    (hw : c.current s = .ok w) (hid : w.sign = .node id) : Q id :=
  h.signs w id (mem_remaining_of_current hw (by simp [hid])) hid

variable (hP : RuleInvariant s.kinds P Q)

include hP

theorem Meets.addPart (h : c.Meets P Q) {body : RuleBody} (hbody : body.AsksFor s.kinds) :
    (c.addPart body).2.Meets P Q :=
  ⟨h.rules.insert (hP.part _ body hbody), h.signs⟩

theorem Meets.of_addPart (h : c.Meets P Q) {body : RuleBody} (hc : (key, c₁) = c.addPart body)
    (hbody : body.AsksFor s.kinds) : c₁.Meets P Q := by
  have hadd := h.addPart hP hbody
  rw [← hc] at hadd
  exact hadd

theorem Meets.nameWaiting (h : c.Meets P Q) (key : RuleKey) (hpending : Pending.Meets Q pending) :
    (c.nameWaiting key pending).Meets P Q := by
  cases pending with
  | none => exact h
  | some id =>
    unfold Compilation.nameWaiting Compilation.nameNode
    dsimp only
    split
    · rename_i number r hr
      exact ⟨h.rules.insert (hP.node (h.rules.get? hr) (hpending id rfl)), h.signs⟩
    · exact h

theorem Meets.call (h : c.Meets P Q) {name : String} (hc : c.call s name = .ok (key, c₁)) :
    c₁.Meets P Q := by
  rcases call_cases hc with ⟨-, hnew | hsame⟩
  · exact h.advance.of_addPart hP hnew trivial
  · cases hsame
    exact h.advance

theorem Meets.afterPart (h : c.Meets P Q) (hpending : Pending.Meets Q pending) {child : RuleKey}
    {key? : Option RuleKey} (hc : c.afterPart s child pending = .ok (key?, pending', c₁)) :
    c₁.Meets P Q ∧ Pending.Meets Q pending' := by
  rcases exists_of_afterPart hc with ⟨numbers, c₂, c₃, key, hquantifier, hname, hrepeat, -⟩
  have h₂ : c₂.Meets P Q := by
    rcases quantifier_cases hquantifier with ⟨-, rfl⟩ | ⟨_, _, -, -, -, rfl⟩
    · exact h
    · exact h.advance
  obtain ⟨h₃, hpending'⟩ : c₃.Meets P Q ∧ Pending.Meets Q pending' := by
    rcases nodeMark_cases hname with ⟨rfl, rfl⟩ | ⟨w, id, hw, hsign, rfl, rfl⟩
    · exact ⟨h₂, hpending⟩
    · refine ⟨h₂.advance, fun id' hid' => ?_⟩
      cases hid'
      exact h₂.current hw hsign
  refine ⟨?_, hpending'⟩
  rcases repeatPart_cases hrepeat with ⟨-, hsame⟩ | ⟨bounds, -, hnew⟩
  · cases hsame
    exact h₃
  · exact h₃.of_addPart hP hnew trivial

theorem Meets.sequence (h : c.Meets P Q) (keys : List RuleKey) (pending : Pending) :
    (c.sequence keys pending).2.Meets P Q := by
  unfold Compilation.sequence
  split
  · exact h
  · exact h.addPart hP trivial

theorem Meets.alternatives (h : c.Meets P Q) (keys : List RuleKey) :
    (c.alternatives keys).2.Meets P Q := by
  unfold Compilation.alternatives
  split
  · exact h
  · exact h.addPart hP trivial

/-- Compiling keeps what holds of the rules and of the names of nodes. -/
theorem meets_of_course {task : Task} {key? : Option RuleKey} (h : Course s task c key? pending c₁)
    (hc : c.Meets P Q) (htask : Pending.Meets Q task.pending) :
    c₁.Meets P Q ∧ Pending.Meets Q pending := by
  have hnone : Pending.Meets Q none := fun id hid => by cases hid
  induction h with
  | idle task c => exact ⟨hc, htask⟩
  | other hw hopening => exact ⟨hc, htask⟩
  | token hw hsign hkey =>
    rcases exists_of_reference hkey with ⟨kind, index, -, hkind, hnew⟩
    exact ⟨(hc.of_addPart hP hnew hkind).advance, htask⟩
  | call hw hsign hkey => exact ⟨hc.call hP hkey, htask⟩
  | emptyGroup hw hopening hinside ih => exact ih hc.advance htask
  | openGroup hw hopening hinside hw₁ hclosing ih => exact ih hc.advance htask
  | group hw hopening hinside hw₁ hclosing ih =>
    rcases ih hc.advance htask with ⟨h₁, hpending₁⟩
    exact ⟨h₁.advance, hpending₁⟩
  | part hpart hafter hrest ih ihrest =>
    rcases ih hc htask with ⟨h₁, hpending₁⟩
    rcases h₁.afterPart hP hpending₁ hafter with ⟨h₂, hpending₂⟩
    exact ihrest h₂ hpending₂
  | noPart hpart ih => exact ih hc htask
  | parts hpart hdone ih =>
    rcases ih hc htask with ⟨h₁, hpending₁⟩
    exact ⟨h₁.sequence hP _ _, hpending₁⟩
  | noBranch hbranch ih => exact ⟨(ih hc htask).1, htask⟩
  | branch hbranch hw hbar hrest ih ihrest =>
    rcases ih hc htask with ⟨h₁, hbranchId⟩
    exact ihrest (h₁.nameWaiting hP _ hbranchId).advance htask
  | branches hbranch hw hbar ih =>
    rcases ih hc htask with ⟨h₁, hbranchId⟩
    exact ⟨(h₁.nameWaiting hP _ hbranchId).alternatives hP _, hnone⟩

/-! ## Declared rules -/

variable {rules rules' : RuleTable} {counter counter' : Nat}

theorem all_of_declare {top : RuleKey} {key body : String} (h : rules.All P)
    (hkey : isMarked key = true → Q key) (hrules : declare s rules top key body = .ok rules') :
    rules'.All P := by
  rcases declare_cases hrules with ⟨name, rfl, rfl⟩ | ⟨n, r, rfl, hr, rfl⟩
  · -- the name that the rule of the call begins with is replaced
    have hcall := hP.declared body (hP.part 0 (.concatenation [.named name]) trivial) hkey
    exact h.insert hcall
  · exact (h.erase _).insert (hP.declared body (h.get? hr) hkey)

theorem all_of_declareBody {key body : String} (h : rules.All P) (hkey : isMarked key = true → Q key)
    (hbody : NamesIn Q body)
    (hrules : declareBody s rules counter key body = .ok (rules', counter')) : rules'.All P := by
  rcases exists_of_declareBody hrules with ⟨top, pending, c, hchoice, -, hdeclare, -⟩
  have hstart : Meets P Q ⟨rules, counter, .ofList (signsOf body)⟩ := ⟨h, hbody⟩
  have hpending : Pending.Meets Q (markOf key) := by
    unfold markOf
    intro id hid
    split at hid
    · rename_i hmarked
      cases hid
      exact hkey hmarked
    · cases hid
  have hmeets := (meets_of_course hP (course_of_choice hchoice) hstart hpending).1
  exact all_of_declare hP hmeets.rules hkey hdeclare

omit hP in
theorem all_of_declareBodies {kinds names : List String} {bodies : List (String × String)}
    (hP : RuleInvariant kinds P Q) (h : rules.All P)
    (hbodies : ∀ b ∈ bodies, (isMarked b.1 = true → Q b.1) ∧ NamesIn Q b.2)
    (hrules : declareBodies kinds names rules counter bodies = .ok rules') : rules'.All P := by
  rcases invariant_of_declareBodies (fun _ rules _ => rules.All P)
      (fun hb hbefore hbody => all_of_declareBody hP hbefore (hbodies _ hb).1 (hbodies _ hb).2 hbody)
      h hrules with ⟨_, hall⟩
  exact hall

end Compilation

/-- What compiling keeps holds of all rules of a grammar. -/
theorem Grammar.all_of_rules {P : RuleKey → Rule → Prop} {Q : String → Prop} {g : Grammar}
    (hP : RuleInvariant g.kinds P Q)
    (hbodies : ∀ b ∈ g.bodies.entries, (isMarked b.1 = true → Q b.1) ∧ NamesIn Q b.2)
    {rules : RuleTable} (h : g.rules = .ok rules) : rules.All P := by
  refine Compilation.all_of_declareBodies hP ?_ hbodies (declareBodies_of_rules h)
  intro e he
  cases he

/-! ## What is known of every rule -/

namespace Grammar

variable {g : Grammar} {rules : RuleTable}

/-- What compiling keeps whatever the names of nodes are holds of all rules of a grammar. -/
theorem all_of_rules_of_any {P : RuleKey → Rule → Prop}
    (hP : RuleInvariant g.kinds P fun _ => True) (h : g.rules = .ok rules) : rules.All P :=
  all_of_rules hP (fun _ _ => ⟨fun _ => trivial, fun _ _ _ _ => trivial⟩) h

/-- The rules of a grammar match no token but those of its kinds. -/
theorem asksFor_of_rules (h : g.rules = .ok rules) : rules.All fun _ r => r.body.AsksFor g.kinds :=
  all_of_rules_of_any ⟨fun _ _ hbody => hbody, fun hr _ => hr, fun _ hr _ => hr⟩ h

/-- The rules of a grammar know the names that they are entered under. -/
theorem name_of_rules (h : g.rules = .ok rules) : rules.All fun key r => r.name = key :=
  all_of_rules_of_any ⟨fun _ _ _ => rfl, fun hr _ => hr, fun _ _ _ => rfl⟩ h

/-- The declared rules of a grammar are those that are not only parts of a body. -/
theorem isNamed_of_rules (h : g.rules = .ok rules) :
    rules.All fun key r => r.transitional = !key.isNamed :=
  all_of_rules_of_any ⟨fun _ _ _ => rfl, fun hr _ => hr, fun _ _ _ => rfl⟩ h

end Grammar

end Descent
