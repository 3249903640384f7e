import Descent.Proofs.Rule.Balance
import Descent.Proofs.Rule.Closed
import Descent.Proofs.Rule.Generation

/-!
# Sequences with names of nodes

A name of a node that is written in a sequence, outside its groups, waits until the sequence ends, and
the rule of the sequence gets the name that waits then.  A group takes the name that waits along into
its alternatives and leaves none behind.  So the last name written in a sequence is the one that its rule
has if no group comes behind it, and otherwise the rule has no name.

Main results:

- `Phrase.Placed` says that a sequence has a rule in a table, and with which name.
- `Compilation.Keeps` says what compiling a body leaves alone.
- `Compilation.placed_of_declareBody`: the named sequences of a body have rules in the table.
- `Grammar.node_of_sequence`: which rule the named sequences of a grammar have, and its name.
-/

namespace Descent

/-! ## Bodies that write phrases -/

/-- The signs of a body are those of a phrase, with the ending. -/
def Phrase.Writes (a : Phrase .choice) (body : String) : Prop :=
  (signsOf body).map (fun item => (item.map WrittenSign.sign).toOption) =
    (a.signs ++ [Sign.ending]).map some

instance (a : Phrase .choice) (body : String) : Decidable (a.Writes body) :=
  inferInstanceAs (Decidable (_ = _))

private theorem exists_of_map_toOption {items : List (Except LexError WrittenSign)} {ss : List Sign}
    (h : items.map (fun item => (item.map WrittenSign.sign).toOption) = ss.map some) :
    ∃ ws : List WrittenSign, items = ws.map Except.ok ∧ ws.map WrittenSign.sign = ss := by
  induction items generalizing ss with
  | nil =>
    cases ss with
    | nil => exact ⟨[], rfl, rfl⟩
    | cons sign ss => cases h
  | cons item items ih =>
    cases ss with
    | nil => cases h
    | cons sign ss =>
      rw [List.map_cons, List.map_cons, List.cons.injEq] at h
      rcases ih h.2 with ⟨ws, rfl, rfl⟩
      cases item with
      | error e => cases h.1
      | ok w =>
        cases h.1
        exact ⟨w :: ws, rfl, rfl⟩

theorem Phrase.writes_iff {a : Phrase .choice} {body : String} :
    a.Writes body ↔ ∃ ws : List WrittenSign, signsOf body = ws.map Except.ok ∧
      ws.map WrittenSign.sign = a.signs ++ [.ending] := by
  constructor
  · exact exists_of_map_toOption
  · rintro ⟨ws, hsigns, hws⟩
    rw [Writes, hsigns, ← hws, List.map_map, List.map_map]
    rfl

/-! ## Rules of named sequences -/

/-- A sequence has a rule, under the name of the declared rule or among the parts below the bound, that
refers to the rules of its items and has the name that waits after it. -/
def Phrase.Placed (rules : RuleTable) (name : String) (bound : Nat) (a : Phrase .concatenation) :
    Prop :=
  ∃ key r ks, (key = .named name ∨ ∃ n < bound, key = .part n) ∧ rules.get? key = some r ∧
    r.body = .concatenation ks ∧ a.Stands rules bound (.all ks) ∧
    r.nodeId = (a.waiting none).map NodeId.ofString

namespace Compilation

variable {s : BodyScope} {c c₁ : Compilation} {pending : Pending} {key? : Option RuleKey}
  {rules rules' : RuleTable} {counter counter' : Nat} {top : RuleKey} {key body name : String}
  {q : Phrase .concatenation}

/-- Parts that a task makes are not among those from before. -/
theorem le_of_course {task : Task} (h : Course s task c key? pending c₁) {bound : Nat}
    (hbound : bound ≤ c.counter) (hdone : ∀ n, .part n ∈ task.done → bound ≤ n) :
    ∀ n, key? = some (.part n) → bound ≤ n := by
  have hdone' : ∀ n, .part n ∈ task.done ++ [] → bound ≤ n := by
    rw [List.append_nil]
    exact hdone
  have hnone : ∀ n, .part n ∈ OrderedMap.keys (.empty : RuleTable) → n < bound :=
    fun n hn => absurd hn List.not_mem_nil
  intro n hn
  have hmade := ((makingInvariant_continues s.names hnone).of_course h
    ⟨hbound, hdone', List.nil_prefix⟩).new n
  rw [hn] at hmade
  exact hmade List.mem_cons_self

/-- Of the rules before, only those of some declared names have changed. -/
structure Keeps (rules : RuleTable) (counter : Nat) (changed : List String) (rules' : RuleTable)
    (counter' : Nat) : Prop where
  counter_le : counter ≤ counter'
  parts : ∀ n < counter, rules'.get? (.part n) = rules.get? (.part n)
  named : ∀ name ∉ changed, rules'.get? (.named name) = rules.get? (.named name)

/-- Declaring a rule changes only the rule of its name and the one of the whole body. -/
theorem get?_of_declare (h : declare s rules top key body = .ok rules') {k : RuleKey}
    (htop : top ≠ k) (hname : k ≠ .named (bareRuleName key)) : rules'.get? k = rules.get? k := by
  rcases declare_cases h with ⟨name, -, rfl⟩ | ⟨n, r, -, -, rfl⟩
  · exact OrderedMap.get?_insert_of_ne _ _ hname.symm
  · rw [OrderedMap.get?_insert_of_ne _ _ hname.symm, OrderedMap.get?_erase_of_ne _ htop]

theorem keeps_of_declareBody (h : declareBody s rules counter key body = .ok (rules', counter')) :
    Keeps rules counter [bareRuleName key] rules' counter' := by
  rcases exists_of_declareBody h with ⟨top, pending, c, hchoice, -, hdeclare, rfl⟩
  have hcourse := course_of_choice hchoice
  have hextends := (extends_of_course hcourse).1
  refine ⟨hextends.counter_le, ?_, ?_⟩
  · intro n hn
    have htop : top ≠ .part n := by
      rintro rfl
      have hle := le_of_course hcourse (Nat.le_refl _) (fun n hn => absurd hn List.not_mem_nil) n rfl
      exact absurd hn (Nat.not_lt.2 hle)
    rw [get?_of_declare hdeclare htop (RuleKey.part_ne_named n _), hextends.parts n hn]
  · intro name hname
    have hother : RuleKey.named name ≠ .named (bareRuleName key) := by
      intro heq
      exact hname (List.mem_singleton.2 (RuleKey.named.inj heq))
    cases top with
    | part n =>
      rw [get?_of_declare hdeclare (RuleKey.part_ne_named n name) hother, hextends.named]
    | named other =>
      -- a body that only calls a rule does not change the rule it calls
      cases hdeclare
      rw [OrderedMap.get?_insert_of_ne _ _ hother.symm, hextends.named]

theorem Keeps.trans {changed changed' : List String} {rules₁ : RuleTable} {counter₁ : Nat}
    (h : Keeps rules counter changed rules₁ counter₁)
    (h₁ : Keeps rules₁ counter₁ changed' rules' counter') :
    Keeps rules counter (changed ++ changed') rules' counter' := by
  refine ⟨Nat.le_trans h.counter_le h₁.counter_le, fun n hn => ?_, fun name hname => ?_⟩
  · rw [h₁.parts n (Nat.lt_of_lt_of_le hn h.counter_le), h.parts n hn]
  · rw [List.mem_append, not_or] at hname
    rw [h₁.named name hname.2, h.named name hname.1]

theorem keeps_of_declareBodies {kinds names : List String} {bodies : List (String × String)}
    (h : declareBodies kinds names rules counter bodies = .ok rules') :
    ∃ counter', Keeps rules counter (bodies.map fun b => bareRuleName b.1) rules' counter' := by
  refine invariant_of_declareBodies
    (fun front rules₁ counter₁ =>
      Keeps rules counter (front.map fun b => bareRuleName b.1) rules₁ counter₁)
    (fun {front b _ _ _ _} _ hbefore hbody => ?_)
    ⟨Nat.le_refl _, fun _ _ => rfl, fun _ _ => rfl⟩ h
  rw [List.map_append]
  exact hbefore.trans (keeps_of_declareBody hbody)

/-- A sequence keeps its rule while other rules are declared. -/
theorem Keeps.placed {changed : List String} (h : Keeps rules counter changed rules' counter')
    (hname : name ∉ changed) (hq : q.Placed rules name counter) : q.Placed rules' name counter' := by
  rcases hq with ⟨key, r, ks, hkey, hr, hbody, hstands, hnode⟩
  refine ⟨key, r, ks, ?_, ?_, hbody, ?_, hnode⟩
  · rcases hkey with hkey | ⟨n, hn, hkey⟩
    · exact .inl hkey
    · exact .inr ⟨n, Nat.lt_of_lt_of_le hn h.counter_le, hkey⟩
  · rcases hkey with rfl | ⟨n, hn, rfl⟩
    · rw [h.named name hname, hr]
    · rw [h.parts n hn, hr]
  · refine hstands.mono h.counter_le fun n hn => ?_
    rw [RuleTable.body?, h.parts n hn, RuleTable.body?]

/-! ## Declared bodies -/

/-- When the rule of a whole body is moved to its name, the named sequences of the body keep theirs. -/
theorem placed_of_declare {a : Phrase .choice} (h : Leaves c c₁ a (.key top))
    (hdeclare : declare s c₁.rules top key body = .ok rules') (hq : q ∈ a.inner)
    (hnamed : q.named = true) : q.Placed rules' (bareRuleName key) c₁.counter := by
  rcases h.built q hq hnamed with ⟨k, hk, n, r, ks, hn, hr, hbody, hstands, hnode⟩
  rcases List.mem_singleton.1 hk with rfl
  cases k with
  | named name => exact absurd hn (Nat.not_lt_zero n)
  | part m =>
    have hm : m < c₁.counter := h.stands.lt hk
    have hsame (i : Nat) (hi : i ≠ m) : rules'.get? (.part i) = c₁.rules.get? (.part i) := by
      refine get?_of_declare hdeclare ?_ (RuleKey.part_ne_named i _)
      intro heq
      exact hi (RuleKey.part.inj heq).symm
    have hle : n ≤ m := Nat.le_of_lt_succ hn
    have hitems : q.Stands rules' c₁.counter (.all ks) := by
      refine hstands.mono (Nat.le_of_lt (Nat.lt_of_le_of_lt hle hm)) fun i hi => ?_
      rw [RuleTable.body?, hsame i (by omega), RuleTable.body?]
    by_cases htop : n = m
    · -- the rule of the whole body is the one of the sequence
      subst htop
      unfold declare at hdeclare
      simp only [hr] at hdeclare
      cases hdeclare
      exact ⟨.named (bareRuleName key), _, ks, .inl rfl, OrderedMap.get?_insert_self _ _ _, hbody,
        hitems, hnode⟩
    · exact ⟨.part n, r, ks, .inr ⟨n, by omega, rfl⟩, (hsame n htop).trans hr, hbody, hitems, hnode⟩

/-- A body that compiles refers to nothing that is not declared. -/
theorem declared_of_declareBody (h : declareBody s rules counter key body = .ok (rules', counter'))
    {a : Phrase .choice} (ha : a.Writes body) : a.Declared s.kinds s.names := by
  rcases Phrase.writes_iff.1 ha with ⟨ws, hsigns, hws⟩
  rcases exists_reading_of_declareBody h with ⟨ss, vs, hsigns', hvs, hreads⟩
  have hsame : vs = ws := by
    rw [hsigns] at hsigns'
    exact ((List.map_inj_right fun _ _ => Except.ok.inj).1 hsigns').symm
  rw [hsame, hws, List.append_cancel_right_eq] at hvs
  subst hvs
  rcases hreads a.balanced with ⟨e, he⟩
  rcases he.exists_phrase with ⟨b, hb, -, hdeclared⟩
  rw [Phrase.Declared, ← hb]
  exact hdeclared

/-- The named sequences of a body that compiles have their rules. -/
theorem placed_of_declareBody (h : declareBody s rules counter key body = .ok (rules', counter'))
    {a : Phrase .choice} (ha : a.Writes body) (hq : q ∈ a.inner) (hnamed : q.named = true) :
    q.Placed rules' (bareRuleName key) counter' := by
  rcases Phrase.writes_iff.1 ha with ⟨ws, hsigns, hws⟩
  obtain ⟨top, c', hchoice, hend, hleaves⟩ := exists_choice hsigns hws
    (declared_of_declareBody h ha) (if isMarked key then some key else none) rules counter
  unfold declareBody at h
  simp only [hchoice, hend] at h
  split at h
  · cases h
  · rename_i hdeclare
    cases h
    exact placed_of_declare hleaves hdeclare hq hnamed

/-- A body is compiled after those before it, and those after it leave its rules alone if none of them
is of a rule of the same name. -/
theorem exists_keeps_of_declareBodies {kinds names : List String} {front back : List (String × String)}
    (h : declareBodies kinds names rules counter (front ++ (key, body) :: back) = .ok rules')
    (hlast : ∀ b ∈ back, bareRuleName b.1 ≠ bareRuleName key) :
    ∃ rules₁ counter₁ rules₂ counter₂ changed counter',
      declareBody ⟨kinds, names, bareRuleName key⟩ rules₁ counter₁ key body =
        .ok (rules₂, counter₂) ∧
      Keeps rules₂ counter₂ changed rules' counter' ∧ bareRuleName key ∉ changed := by
  induction front generalizing rules counter with
  | nil =>
    rw [List.nil_append] at h
    unfold declareBodies at h
    split at h
    · cases h
    · rename_i hbody
      rcases keeps_of_declareBodies h with ⟨counter', hkeeps⟩
      refine ⟨_, _, _, _, _, counter', hbody, hkeeps, ?_⟩
      intro hmem
      rcases List.mem_map.1 hmem with ⟨b, hb, hsame⟩
      exact hlast b hb hsame
  | cons b front ih =>
    rw [List.cons_append] at h
    unfold declareBodies at h
    split at h
    · cases h
    · exact ih h

/-- The named sequences of a body keep their rules to the end if no rule of the same name is declared
after it. -/
theorem placed_of_declareBodies {kinds names : List String} {front back : List (String × String)}
    (h : declareBodies kinds names rules counter (front ++ (key, body) :: back) = .ok rules')
    (hlast : ∀ b ∈ back, bareRuleName b.1 ≠ bareRuleName key) {a : Phrase .choice}
    (ha : a.Writes body) (hq : q ∈ a.inner) (hnamed : q.named = true) :
    ∃ counter', q.Placed rules' (bareRuleName key) counter' := by
  obtain ⟨rules₁, counter₁, rules₂, counter₂, changed, counter', hbody, hkeeps, hname⟩ :=
    exists_keeps_of_declareBodies h hlast
  exact ⟨counter', hkeeps.placed hname (placed_of_declareBody hbody ha hq hnamed)⟩

end Compilation

namespace Grammar

/-- The bodies of the grammar of bodies are those that write a phrase, and every sequence of one in which
the name of a node is written, outside its groups, has a rule that refers to the rules of its items.  The
rule has the last such name, unless a group comes behind it: then it has none.  (Of two declarations
that differ only in the mark of the name, the later one counts.) -/
theorem node_of_sequence {g : Grammar} {rules : RuleTable} (hrules : g.rules = .ok rules)
    {key body : String} {before after : List (String × String)}
    (hbodies : g.bodies.entries = before ++ (key, body) :: after)
    (hlast : ∀ b ∈ after, bareRuleName b.1 ≠ bareRuleName key) :
    (BalancedBody body ↔ ∃ a : Phrase .choice, a.Writes body) ∧
      ∀ a : Phrase .choice, a.Writes body → ∀ q ∈ a.inner, ∀ front i back id,
        q.items = front ++ i :: back → i.node? = some id → (∀ j ∈ back, j.node? = none) →
        ∃ key r ks bound, rules.get? key = some r ∧ r.body = .concatenation ks ∧
          q.Stands rules bound (.all ks) ∧
          r.nodeId = if back.any Phrase.isGroup then none else some (NodeId.ofString id) := by
  constructor
  · have hmem : (key, body) ∈ g.bodies.entries := by
      rw [hbodies]
      exact List.mem_append_right _ List.mem_cons_self
    constructor
    · intro hbalanced
      rcases (reads_iff_balanced hrules hmem).2 hbalanced with ⟨e, ss, ws, hsigns, hws, hreads⟩
      rcases hreads.exists_phrase with ⟨a, rfl, -, -⟩
      exact ⟨a, Phrase.writes_iff.2 ⟨ws, hsigns, hws⟩⟩
    · rintro ⟨a, ha⟩
      rcases Phrase.writes_iff.1 ha with ⟨ws, hsigns, hws⟩
      exact (balancedBody_iff hsigns hws).2 a.balanced
  · intro a ha q hq front i back id hitems hi hback
    have hcompiled := declareBodies_of_rules hrules
    rw [hbodies] at hcompiled
    have hnamed : q.named = true := by
      unfold Phrase.named
      rw [hitems]
      simp [hi]
    rcases Compilation.placed_of_declareBodies hcompiled hlast ha hq hnamed with
      ⟨bound, k, r, ks, -, hr, hbody, hstands, hnode⟩
    refine ⟨k, r, ks, bound, hr, hbody, hstands, ?_⟩
    rw [hnode, Phrase.waiting_of_items hitems hi hback]
    split <;> rfl

/-- The sequence of a token and a token in a group, with a name of a node behind one of them. -/
def tokenBeforeGroup (node : Option String) : Phrase .concatenation :=
  .part (.item (.token "a" none true) none node)
    (.lastPart (.item (.group (.lastBranch (.lastPart (.item (.token "b" none true) none none))))
      none none))

/-- The same with the group first. -/
def groupBeforeToken (node : Option String) : Phrase .concatenation :=
  .part (.item (.group (.lastBranch (.lastPart (.item (.token "b" none true) none none)))) none none)
    (.lastPart (.item (.token "a" none true) none node))

/-- Whether a body compiles and every rule that has a name for its node refers to one rule only. -/
def namesSingles (body : String) : Bool :=
  match (ofBody body).rules with
  | .ok rules => rules.entries.all fun e => e.2.nodeId.isNone || e.2.children.length == 1
  | .error _ => false

/-- Behind a group, the name of a node goes to the sequence it is written in. -/
theorem node_of_sequence_behind_group :
    ∃ rules key r, (ofBody "(<b>) <a> #x").rules = .ok rules ∧ rules.get? key = some r ∧
      r.nodeId = some (NodeId.ofString "#x") := by
  have hok : (ofBody "(<b>) <a> #x").rules.isOk = true := by decide +kernel
  rcases hrules : (ofBody "(<b>) <a> #x").rules with e | rules
  · rw [hrules] at hok
    cases hok
  · have hbodies : (ofBody "(<b>) <a> #x").bodies.entries = [] ++ ("r", "(<b>) <a> #x") :: [] := rfl
    have hwrites : (Phrase.lastBranch (groupBeforeToken (some "#x"))).Writes "(<b>) <a> #x" := by
      decide +kernel
    have hinner : groupBeforeToken (some "#x") ∈
        (Phrase.lastBranch (groupBeforeToken (some "#x"))).inner := List.mem_cons_self
    have hitems : (groupBeforeToken (some "#x")).items =
        [.item (.group (.lastBranch (.lastPart (.item (.token "b" none true) none none)))) none none] ++
          .item (.token "a" none true) none (some "#x") :: [] := rfl
    rcases (node_of_sequence hrules hbodies fun b hb => absurd hb List.not_mem_nil).2 _ hwrites _
        hinner _ _ [] "#x" hitems rfl (fun j hj => absurd hj List.not_mem_nil) with
      ⟨key, r, ks, bound, hr, -, -, hnode⟩
    exact ⟨rules, key, r, rfl, hr, hnode⟩

/-- Before a group, the name of a node is lost to the sequence it is written in: the alternative in the
group has it. -/
theorem no_node_before_group :
    ∃ rules, (ofBody "<a> #x (<b>)").rules = .ok rules ∧
      (Phrase.lastBranch (tokenBeforeGroup (some "#x"))).Writes "<a> #x (<b>)" ∧
      ¬∃ key r ks bound, rules.get? key = some r ∧ r.body = .concatenation ks ∧
        (tokenBeforeGroup (some "#x")).Stands rules bound (.all ks) ∧
        r.nodeId = some (NodeId.ofString "#x") := by
  have hsingles : namesSingles "<a> #x (<b>)" = true := by decide +kernel
  have hwrites : (Phrase.lastBranch (tokenBeforeGroup (some "#x"))).Writes "<a> #x (<b>)" := by
    decide +kernel
  unfold namesSingles at hsingles
  split at hsingles
  · rename_i rules hrules
    refine ⟨rules, hrules, hwrites, ?_⟩
    rintro ⟨key, r, ks, bound, hr, hbody, hstands, hnode⟩
    have hone := List.all_eq_true.1 hsingles _ (OrderedMap.mem_entries_of_get? hr)
    rw [hnode, Rule.children, hbody] at hone
    -- the sequence has two items
    cases hstands with
    | part _ hrest =>
      cases hrest
      cases hone
  · cases hsingles

end Grammar

end Descent
