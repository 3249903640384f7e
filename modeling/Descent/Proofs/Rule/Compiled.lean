import Descent.Proofs.Rule.Phrase

/-!
# What compiling makes

Compiling the signs of a phrase succeeds and makes rules that stand for it.  New rules get numbers that
no rule had, so that everything made before stays as it is, and a name for a node is attached only to
the rule that was made last.

A name for a node waits while a sequence is compiled, and a group takes it along: each alternative of
the group starts with it, and behind the group none waits.

Main results:

- `Compilation.Leaves` says what compiling a phrase adds: rules that stand for it, and rules with their
  names for the named sequences inside it.
- `Compilation.compiles`: every phrase that refers to declared tokens and rules is compiled so.
-/

namespace Descent

theorem Bounds.of?_self (b : Bounds) : Bounds.of? b.min b.max = some b := by
  rcases b with ⟨min, max, hle⟩
  cases max with
  | none => rfl
  | some m =>
    have hm := hle m rfl
    simp [of?, hm]

namespace Compilation

variable {s : BodyScope} {c c₁ c₂ : Compilation} {pending : Pending}

/-! ## Signs to be read -/

/-- The signs still to be read, without how they are written. -/
def At (c : Compilation) (ss : List Sign) : Prop :=
  ∃ ws : List WrittenSign, c.cursor.remaining = ws.map Except.ok ∧ ws.map WrittenSign.sign = ss

variable {sign : Sign} {ss rest : List Sign}

theorem At.current (h : c.At (sign :: ss)) :
    ∃ written, c.current s = .ok ⟨sign, written⟩ := by
  rcases h with ⟨ws, hremaining, hsigns⟩
  cases ws with
  | nil => cases hsigns
  | cons w ws =>
    simp only [List.map_cons, List.cons.injEq] at hsigns
    refine ⟨w.written, ?_⟩
    simp [Compilation.current, Lookahead.current, hremaining, ← hsigns.1]

theorem At.advance (h : c.At (sign :: ss)) : c.advance.At ss := by
  rcases h with ⟨ws, hremaining, hsigns⟩
  cases ws with
  | nil => cases hsigns
  | cons w ws =>
    simp only [List.map_cons, List.cons.injEq] at hsigns
    refine ⟨ws, ?_, hsigns.2⟩
    simp [Compilation.advance, Lookahead.advance, hremaining]

/-! ## What is made -/

/-- Rules are only added: those with the numbers that were given stay as they are. -/
structure Extends (c c' : Compilation) : Prop where
  counter_le : c.counter ≤ c'.counter
  parts : ∀ n < c.counter, c'.rules.get? (.part n) = c.rules.get? (.part n)
  named : ∀ name, c'.rules.get? (.named name) = c.rules.get? (.named name)

theorem Extends.refl (c : Compilation) : Extends c c :=
  ⟨Nat.le_refl _, fun _ _ => rfl, fun _ => rfl⟩

theorem Extends.trans (h₁ : Extends c c₁) (h₂ : Extends c₁ c₂) : Extends c c₂ := by
  refine ⟨Nat.le_trans h₁.counter_le h₂.counter_le, ?_, ?_⟩
  · intro n hn
    rw [h₂.parts n (Nat.lt_of_lt_of_le hn h₁.counter_le), h₁.parts n hn]
  · intro name
    rw [h₂.named, h₁.named]

theorem Extends.body? (h : Extends c c₁) {n : Nat} (hn : n < c.counter) :
    c₁.rules.body? (.part n) = c.rules.body? (.part n) := by
  rw [RuleTable.body?, h.parts n hn, RuleTable.body?]

theorem extends_advance (c : Compilation) : Extends c c.advance :=
  ⟨Nat.le_refl _, fun _ _ => rfl, fun _ => rfl⟩

theorem part_ne_of_lt {m n : Nat} (h : n < m) : RuleKey.part m ≠ .part n := by
  intro heq
  cases heq
  exact Nat.lt_irrefl _ h

theorem extends_addPart (c : Compilation) (b : RuleBody) : Extends c (c.addPart b).2 := by
  refine ⟨Nat.le_succ _, ?_, ?_⟩
  · intro n hn
    simp [addPart, OrderedMap.get?_insert_of_ne _ _ (part_ne_of_lt hn)]
  · intro name
    have hne := RuleKey.part_ne_named c.counter name
    simp [addPart, OrderedMap.get?_insert_of_ne _ _ hne]

/-! ## Names of nodes -/

theorem counter_nameNode (c : Compilation) (key : RuleKey) (id : String) :
    (c.nameNode key id).counter = c.counter := by
  unfold nameNode
  split
  · rfl
  · rfl

theorem cursor_nameNode (c : Compilation) (key : RuleKey) (id : String) :
    (c.nameNode key id).cursor = c.cursor := by
  unfold nameNode
  split
  · rfl
  · rfl

/-- The name of a node changes no rule but that of the node. -/
theorem get?_nameNode_of_ne (c : Compilation) {key k : RuleKey} (h : key ≠ k) (id : String) :
    (c.nameNode key id).rules.get? k = c.rules.get? k := by
  unfold nameNode
  split
  · exact OrderedMap.get?_insert_of_ne _ _ h
  · rfl

theorem get?_nameNode_named (c : Compilation) (key : RuleKey) (id name : String) :
    (c.nameNode key id).rules.get? (.named name) = c.rules.get? (.named name) := by
  unfold nameNode
  split
  · rename_i n r hr
    exact OrderedMap.get?_insert_of_ne _ _ (RuleKey.part_ne_named n name)
  · rfl

theorem counter_nameWaiting (c : Compilation) (key : RuleKey) (pending : Pending) :
    (c.nameWaiting key pending).counter = c.counter := by
  cases pending with
  | none => rfl
  | some id => exact counter_nameNode c key id

/-- A name that is attached to a new part leaves all rules from before as they are. -/
theorem Extends.nameWaiting (h : Extends c c₁) {key : RuleKey} {pending : Pending}
    (hkey : pending ≠ none → ∃ n, key = .part n ∧ c.counter ≤ n) :
    Extends c (c₁.nameWaiting key pending) := by
  cases pending with
  | none => exact h
  | some id =>
    rcases hkey (Option.some_ne_none id) with ⟨m, rfl, hm⟩
    refine ⟨?_, ?_, ?_⟩
    · rw [counter_nameWaiting]
      exact h.counter_le
    · intro n hn
      have hne : RuleKey.part m ≠ .part n := part_ne_of_lt (Nat.lt_of_lt_of_le hn hm)
      rw [Compilation.nameWaiting, get?_nameNode_of_ne _ hne, h.parts n hn]
    · intro name
      rw [Compilation.nameWaiting, get?_nameNode_named, h.named]

theorem cursor_nameWaiting (c : Compilation) (key : RuleKey) (pending : Pending) :
    (c.nameWaiting key pending).cursor = c.cursor := by
  cases pending with
  | none => rfl
  | some id => exact cursor_nameNode c key id

theorem At.nameWaiting (h : c.At ss) (key : RuleKey) (pending : Pending) :
    (c.nameWaiting key pending).At ss := by
  rcases h with ⟨ws, hremaining, hsigns⟩
  exact ⟨ws, by rw [cursor_nameWaiting, hremaining], hsigns⟩

/-- The name that waits is attached to the part that was made last. -/
theorem get?_nameWaiting_addPart (c : Compilation) (b : RuleBody) (pending : Pending) :
    ((c.addPart b).2.nameWaiting (c.addPart b).1 pending).rules.get? (c.addPart b).1 =
      some { Rule.ofBody (c.addPart b).1 b with nodeId := pending.map NodeId.ofString } := by
  cases pending with
  | none => simp [Compilation.nameWaiting, addPart, Rule.ofBody]
  | some id => simp [Compilation.nameWaiting, nameNode, addPart, Rule.ofBody]

/-- A part that is made and named leaves all rules from before as they are. -/
theorem extends_nameWaiting_addPart (c : Compilation) (b : RuleBody) (pending : Pending) :
    Extends c ((c.addPart b).2.nameWaiting (c.addPart b).1 pending) :=
  (extends_addPart c b).nameWaiting fun _ => ⟨c.counter, rfl, Nat.le_refl _⟩

/-! ## Rules made of a phrase -/

/-- Compiling a phrase makes new rules that stand for it.  Every named sequence inside has a rule, which
was made before the rules of the phrase or is one of them. -/
structure Leaves (c c' : Compilation) {p : BodyPart} (a : Phrase p) (form : Form) : Prop where
  extends_rules : Extends c c'
  fresh : ∀ n, .part n ∈ form.keys → c.counter ≤ n
  stands : a.Stands c'.rules c'.counter form
  built : ∀ q ∈ a.inner, q.named = true → ∃ key ∈ form.keys, q.Built c'.rules key.limit

variable {p : BodyPart} {form : Form} {a : Phrase p} {keys : List RuleKey} {key : RuleKey}

theorem Leaves.limit_le (h : Leaves c c₁ a form) (hkey : key ∈ form.keys) :
    key.limit ≤ c₁.counter := by
  cases key with
  | part n => exact h.stands.lt hkey
  | named name => exact Nat.zero_le _

/-- What was made stays when rules are added. -/
theorem Leaves.then (h : Leaves c c₁ a form) (h₁ : Extends c₁ c₂) : Leaves c c₂ a form := by
  refine ⟨h.extends_rules.trans h₁, h.fresh, ?_, ?_⟩
  · exact h.stands.mono h₁.counter_le fun n hn => h₁.body? hn
  · intro q hq hnamed
    rcases h.built q hq hnamed with ⟨key, hkey, hbuilt⟩
    refine ⟨key, hkey, hbuilt.mono (Nat.le_refl _) fun n hn => ?_⟩
    exact h₁.parts n (Nat.lt_of_lt_of_le hn (h.limit_le hkey))

theorem Extends.leaves (h : Extends c c₁) (h₁ : Leaves c₁ c₂ a form) : Leaves c c₂ a form :=
  ⟨h.trans h₁.extends_rules, fun n hn => Nat.le_trans h.counter_le (h₁.fresh n hn), h₁.stands,
    h₁.built⟩

/-- The same rules stand for a phrase around another one in which nothing else is named. -/
theorem Leaves.around {q : BodyPart} {b : Phrase q} {form' : Form} (h : Leaves c c₁ a form)
    (hkeys : form'.keys = form.keys) (hinner : b.inner = a.inner)
    (hstands : b.Stands c₁.rules c₁.counter form') : Leaves c c₁ b form' := by
  refine ⟨h.extends_rules, ?_, hstands, ?_⟩
  · rw [hkeys]
    exact h.fresh
  · rw [hkeys, hinner]
    exact h.built

/-- A new part, named or not, that stands for a phrase around another one. -/
theorem Leaves.addPart {q : BodyPart} {b : Phrase q} {body : RuleBody} (h : Leaves c c₁ a form)
    (pending : Pending) (hinner : b.inner = a.inner)
    (hstands : ∀ {rules : RuleTable} {n bound : Nat}, n < bound →
      rules.body? (.part n) = some body → a.Stands rules n form → b.Stands rules bound (.key (.part n))) :
    Leaves c ((c₁.addPart body).2.nameWaiting (c₁.addPart body).1 pending) b
      (.key (c₁.addPart body).1) := by
  have hextends := extends_nameWaiting_addPart c₁ body pending
  have hget := get?_nameWaiting_addPart c₁ body pending
  have hnumber : (c₁.addPart body).1 = .part c₁.counter := rfl
  have hcounter :
      c₁.counter < ((c₁.addPart body).2.nameWaiting (c₁.addPart body).1 pending).counter := by
    rw [counter_nameWaiting]
    exact Nat.lt_succ_self _
  refine ⟨h.extends_rules.trans hextends, ?_, ?_, ?_⟩
  · intro n hn
    cases List.mem_singleton.1 hn
    exact h.extends_rules.counter_le
  · refine hstands hcounter ?_ (h.stands.mono (Nat.le_refl _) fun n hn => hextends.body? hn)
    rw [RuleTable.body?, ← hnumber, hget]
    rfl
  · intro r hr hnamed
    rw [hinner] at hr
    rcases h.built r hr hnamed with ⟨key, hkey, hbuilt⟩
    have hle := h.limit_le hkey
    refine ⟨_, List.mem_singleton_self _, hbuilt.mono (Nat.le_succ_of_le hle) fun n hn => ?_⟩
    exact hextends.parts n (Nat.lt_of_lt_of_le hn hle)

theorem leaves_token (c : Compilation) (kind : String) (index : Option Nat) (kept : Bool) :
    Leaves c (c.addPart (.token kind index kept)).2 (.token kind index kept)
      (.key (c.addPart (.token kind index kept)).1) := by
  refine ⟨extends_addPart c _, ?_, .token (Nat.lt_succ_self _) ?_, fun q hq => absurd hq List.not_mem_nil⟩
  · intro n hn
    cases List.mem_singleton.1 hn
    exact Nat.le_refl _
  · simp [Compilation.addPart, RuleTable.body?, Rule.ofBody]

theorem leaves_call (c : Compilation) (name : String) : Leaves c c (.call name) (.key (.named name)) := by
  refine ⟨.refl c, ?_, .call _ name, fun q hq => absurd hq List.not_mem_nil⟩
  intro n hn
  cases List.mem_singleton.1 hn

/-- A body that is nothing but a call gets a rule of its own. -/
theorem leaves_onlyCall (c : Compilation) (name : String) :
    Leaves c (c.addPart (.concatenation [.named name])).2 (.call name)
      (.key (c.addPart (.concatenation [.named name])).1) := by
  refine ⟨extends_addPart c _, ?_, .onlyCall (Nat.lt_succ_self _) ?_,
    fun q hq => absurd hq List.not_mem_nil⟩
  · intro n hn
    cases List.mem_singleton.1 hn
    exact Nat.le_refl _
  · simp [Compilation.addPart, RuleTable.body?, Rule.ofBody]

/-- Rules made one after the other are all new. -/
theorem Leaves.fresh_append {q : BodyPart} {b : Phrase q} {form' : Form} (h : Leaves c c₁ a form)
    (h₁ : Leaves c₁ c₂ b form') {n : Nat} (hn : .part n ∈ form.keys ++ form'.keys) :
    c.counter ≤ n := by
  rcases List.mem_append.1 hn with hfirst | hrest
  · exact h.fresh n hfirst
  · exact Nat.le_trans h.extends_rules.counter_le (h₁.fresh n hrest)

/-- Rules made one after the other stand for all that is named inside. -/
theorem Leaves.built_append {q : BodyPart} {b : Phrase q} {form' : Form} (h : Leaves c c₁ a form)
    (h₁ : Leaves c₁ c₂ b form') {r : Phrase .concatenation} (hr : r ∈ a.inner ++ b.inner)
    (hnamed : r.named = true) : ∃ k ∈ form.keys ++ form'.keys, r.Built c₂.rules k.limit := by
  rcases List.mem_append.1 hr with hr | hr
  · rcases (h.then h₁.extends_rules).built r hr hnamed with ⟨k, hk, hbuilt⟩
    exact ⟨k, List.mem_append_left _ hk, hbuilt⟩
  · rcases h₁.built r hr hnamed with ⟨k, hk, hbuilt⟩
    exact ⟨k, List.mem_append_right _ hk, hbuilt⟩

/-- A sequence goes on with the rules of its other items. -/
theorem Leaves.part {a : Phrase .repetition} {b : Phrase .concatenation}
    (h : Leaves c c₁ a (.key key)) (h₁ : Leaves c₁ c₂ b (.all keys)) :
    Leaves c c₂ (.part a b) (.all (key :: keys)) :=
  ⟨h.extends_rules.trans h₁.extends_rules, fun _ => h.fresh_append h₁,
    .part (h.then h₁.extends_rules).stands h₁.stands, fun _ => h.built_append h₁⟩

/-- Alternatives go on with the rules of the others. -/
theorem Leaves.branch {a : Phrase .concatenation} {b : Phrase .choice}
    (h : Leaves c c₁ (.lastBranch a) (.any [key])) (h₁ : Leaves c₁ c₂ b (.any keys)) :
    Leaves c c₂ (.branch a b) (.any (key :: keys)) := by
  refine ⟨h.extends_rules.trans h₁.extends_rules, fun _ => h.fresh_append h₁, ?_,
    fun _ => h.built_append h₁⟩
  cases (h.then h₁.extends_rules).stands with
  | lastBranch hfirst => exact .branch hfirst h₁.stands

/-- The rule of a sequence as an alternative. -/
theorem Leaves.lastBranch {a : Phrase .concatenation} (h : Leaves c c₁ a (.key key))
    (hself : a.named = true → a.Built c₁.rules key.limit) :
    Leaves c c₁ (.lastBranch a) (.any [key]) := by
  refine ⟨h.extends_rules, h.fresh, .lastBranch h.stands, ?_⟩
  intro q hq hnamed
  rcases List.mem_cons.1 hq with rfl | hq
  · exact ⟨key, List.mem_singleton_self _, hself hnamed⟩
  · exact h.built q hq hnamed

/-- The rule of a sequence gets the name that waits after it; where none does, and there is a single
item, no name is written in it. -/
theorem Leaves.sequence {a : Phrase .concatenation} (h : Leaves c c₁ a (.all keys))
    (pending₀ : Pending) {pending : Pending} (hpending : a.waiting pending₀ = pending) :
    Leaves c ((c₁.sequence keys pending).2.nameWaiting (c₁.sequence keys pending).1 pending)
      (.lastBranch a) (.any [(c₁.sequence keys pending).1]) := by
  unfold Compilation.sequence
  split
  · rename_i key
    have hkey : Leaves c c₁ a (.key key) := h.around rfl rfl (.onlyPart h.stands)
    refine hkey.lastBranch ?_
    intro hnamed
    cases h.stands with
    | lastPart _ => exact absurd hpending (Phrase.waiting_ne_none hnamed pending₀)
    | part _ hnone => cases hnone
  · have hadd : Leaves c ((c₁.addPart (.concatenation keys)).2.nameWaiting
        (c₁.addPart (.concatenation keys)).1 pending) a (.key (c₁.addPart (.concatenation keys)).1) :=
      h.addPart pending rfl fun hn hb hstands => .concatenation hn hb hstands
    refine hadd.lastBranch ?_
    intro hnamed
    have hextends := extends_nameWaiting_addPart c₁ (.concatenation keys) pending
    refine ⟨c₁.counter, _, keys, Nat.lt_succ_self _,
      get?_nameWaiting_addPart c₁ (.concatenation keys) pending, rfl, ?_, ?_⟩
    · exact h.stands.mono (Nat.le_refl _) fun n hn => hextends.body? hn
    · rw [← hpending, Phrase.waiting_of_named hnamed]

/-- The rule of alternatives. -/
theorem Leaves.alternatives {a : Phrase .choice} (h : Leaves c c₁ a (.any keys)) :
    Leaves c (c₁.alternatives keys).2 a (.key (c₁.alternatives keys).1) := by
  unfold Compilation.alternatives
  split
  · exact h.around rfl rfl (.onlyBranch h.stands)
  · exact h.addPart none rfl fun hn hb hstands => .choice hn hb hstands

/-! ## What follows a part -/

theorem At.addPart (h : c.At ss) (b : RuleBody) : (c.addPart b).2.At ss :=
  h

/-- No mark of repetition is read where there is none. -/
theorem quantifier_of_separate (h : c.At (sign :: ss)) (hsign : sign.separate = true) :
    c.quantifier s = .ok (none, c) := by
  rcases h.current (s := s) with ⟨written, hcurrent⟩
  unfold quantifier
  rw [hcurrent]
  cases sign <;> first | rfl | cases hsign

theorem quantifier_node {id : String} (h : c.At (.node id :: ss)) :
    c.quantifier s = .ok (none, c) := by
  rcases h.current (s := s) with ⟨written, hcurrent⟩
  unfold quantifier
  rw [hcurrent]

theorem quantifier_bounds {bounds : Nat × Option Nat}
    (h : c.At (.quantifier (some bounds) :: ss)) :
    c.quantifier s = .ok (some bounds, c.advance) := by
  rcases h.current (s := s) with ⟨written, hcurrent⟩
  unfold quantifier
  rw [hcurrent]

/-- The name of a node is read if there is one, and nothing else. -/
theorem exists_nodeMark {a : Phrase .simple} (bounds : Option Bounds) {node : Option String}
    (pending : Pending) (h : c.At (nodeSigns node ++ sign :: ss)) (hsign : sign.separate = true) :
    ∃ c', c.nodeMark s (if a.opens then none else pending) =
        .ok ((Phrase.item a bounds node).after pending, c') ∧
      Extends c c' ∧ c'.At (sign :: ss) := by
  cases node with
  | none =>
    rcases h.current (s := s) with ⟨written, hcurrent⟩
    refine ⟨c, ?_, .refl c, h⟩
    unfold nodeMark
    rw [hcurrent]
    cases sign <;> first | rfl | cases hsign
  | some id =>
    rcases h.current (s := s) with ⟨written, hcurrent⟩
    refine ⟨c.advance, ?_, extends_advance c, h.advance⟩
    unfold nodeMark
    rw [hcurrent]
    rfl

theorem At.sequence (h : c.At ss) (keys : List RuleKey) (pending : Pending) :
    (c.sequence keys pending).2.At ss := by
  unfold Compilation.sequence
  split
  · exact h
  · exact h.addPart _

theorem At.alternatives (h : c.At ss) (keys : List RuleKey) : (c.alternatives keys).2.At ss := by
  unfold Compilation.alternatives
  split
  · exact h
  · exact h.addPart _

/-! ## Phrases -/

/-- Compiling the signs of a phrase succeeds, reads just them, and makes rules that stand for it.
Sequences and alternatives add these rules to those of `done`, and end where a sign stands that ends
them.  The name that waits afterwards is the one that the phrase says. -/
def Compiles (s : BodyScope) : {p : BodyPart} → Phrase p → Prop
  | .simple, a => ∀ fuel pending {c rest}, 3 * a.signs.length ≤ fuel → At c (a.signs ++ rest) →
      ∃ key c', simple s fuel pending c = .ok (some key, if a.opens then none else pending, c') ∧
        Leaves c c' a (.key key) ∧ c'.At rest
  | .repetition, a => ∀ fuel pending {c sign rest}, 3 * a.signs.length ≤ fuel →
      sign.separate = true → At c (a.signs ++ sign :: rest) →
      ∃ child pending₁ c₁ key c',
        simple s fuel pending c = .ok (some child, pending₁, c₁) ∧
        c₁.afterPart s child pending₁ = .ok (some key, a.after pending, c') ∧
        Leaves c c' a (.key key) ∧ c'.At (sign :: rest)
  | .concatenation, a => ∀ fuel done pending {c sign rest}, 3 * a.signs.length + 2 ≤ fuel →
      sign.ends = true → At c (a.signs ++ sign :: rest) →
      ∃ (keys : List RuleKey) (c' : Compilation),
        concatenation s fuel done pending c =
          .ok (some (c'.sequence (done.reverse ++ keys) (a.waiting pending)).1, a.waiting pending,
            (c'.sequence (done.reverse ++ keys) (a.waiting pending)).2) ∧
        Leaves c c' a (.all keys) ∧ c'.At (sign :: rest)
  | .choice, a => ∀ fuel done pending {c sign rest}, 3 * a.signs.length + 3 ≤ fuel →
      sign.ends = true → sign ≠ .bar → At c (a.signs ++ sign :: rest) →
      ∃ (keys : List RuleKey) (c' : Compilation),
        choice s pending fuel done c =
          .ok (some (c'.alternatives (done.reverse ++ keys)).1, none,
            (c'.alternatives (done.reverse ++ keys)).2) ∧
        Leaves c c' a (.any keys) ∧ c'.At (sign :: rest)

/-- No part begins where a whole sequence ends. -/
theorem simple_of_ends (h : c.At (sign :: ss)) (hsign : sign.ends = true) (fuel : Nat)
    (pending : Pending) : simple s fuel pending c = .ok (none, pending, c) := by
  cases fuel with
  | zero => rfl
  | succ fuel =>
    rcases h.current (s := s) with ⟨written, hcurrent⟩
    unfold simple
    rw [hcurrent]
    cases sign <;> first | rfl | cases hsign

theorem compiles_token {kind : String} (index : Option Nat) (kept : Bool) (hkind : kind ∈ s.kinds) :
    Compiles s (.token kind index kept) := by
  intro fuel pending c rest hfuel hat
  cases fuel with
  | zero => cases hfuel
  | succ fuel =>
    rcases hat.current (s := s) with ⟨written, hcurrent⟩
    refine ⟨_, (c.addPart (.token kind index kept)).2.advance, ?_,
      (leaves_token c kind index kept).then (extends_advance _), (hat.addPart _).advance⟩
    unfold simple
    rw [hcurrent]
    simp [reference, hkind, Phrase.opens]

theorem compiles_call {name : String} (hname : name ∈ s.names) : Compiles s (.call name) := by
  intro fuel pending c rest hfuel hat
  cases fuel with
  | zero => cases hfuel
  | succ fuel =>
    rcases hat.current (s := s) with ⟨written, hcurrent⟩
    unfold simple
    rw [hcurrent]
    -- a body that is nothing but a call gets a rule of its own
    by_cases hwhole : c.isWholeBody = true
    · refine ⟨_, (c.advance.addPart (.concatenation [.named name])).2, ?_,
        (extends_advance c).leaves (leaves_onlyCall _ name), hat.advance.addPart _⟩
      simp [call, hname, hwhole, Phrase.opens]
    · refine ⟨.named name, c.advance, ?_, (extends_advance c).leaves (leaves_call _ name),
        hat.advance⟩
      simp [call, hname, hwhole, Phrase.opens]

theorem compiles_group {a : Phrase .choice} (h : Compiles s a) : Compiles s (.group a) := by
  intro fuel pending c rest hfuel hat
  simp only [Phrase.signs, List.length_cons, List.length_append, List.length_nil] at hfuel
  cases fuel with
  | zero => omega
  | succ fuel =>
    rcases hat.current (s := s) with ⟨written, hcurrent⟩
    have hinner : c.advance.At (a.signs ++ .closing :: rest) := by
      simpa using hat.advance
    have hends : Sign.closing.ends = true := rfl
    rcases h fuel [] pending (by omega) hends (by decide) hinner with
      ⟨keys, c₁, hchoice, hleaves, hat₁⟩
    rw [List.reverse_nil, List.nil_append] at hchoice
    have hclosed := hat₁.alternatives keys
    rcases hclosed.current (s := s) with ⟨written', hcurrent'⟩
    have hrule := hleaves.alternatives
    have hgroup : Leaves c.advance (c₁.alternatives keys).2 (.group a)
        (.key (c₁.alternatives keys).1) := hrule.around rfl rfl (.group hrule.stands)
    refine ⟨_, (c₁.alternatives keys).2.advance, ?_,
      (extends_advance c).leaves (hgroup.then (extends_advance _)), hclosed.advance⟩
    unfold simple
    rw [hcurrent]
    simp [hchoice, hcurrent', Phrase.opens]

theorem compiles_item {a : Phrase .simple} (bounds : Option Bounds) (node : Option String)
    (h : Compiles s a) : Compiles s (.item a bounds node) := by
  intro fuel pending c sign rest hfuel hsign hat
  rw [Phrase.signs, List.length_append] at hfuel
  rw [Phrase.signs, List.append_assoc] at hat
  rcases h fuel pending (by omega) hat with ⟨child, c₁, hsimple, hleaves, hat₁⟩
  cases bounds with
  | none =>
    have hquantifier : c₁.quantifier s = .ok (none, c₁) := by
      cases node with
      | none => exact quantifier_of_separate hat₁ hsign
      | some id => exact quantifier_node hat₁
    rcases exists_nodeMark (s := s) (a := a) none pending hat₁ hsign with
      ⟨c₂, hnode, hextends, hat₂⟩
    have hchild := hleaves.then hextends
    refine ⟨child, _, c₁, child, c₂, hsimple, ?_, hchild.around rfl rfl (.once node hchild.stands),
      hat₂⟩
    simp [afterPart, hquantifier, hnode, repeatPart]
  | some bounds =>
    have hquantifier := quantifier_bounds (s := s) hat₁
    rcases exists_nodeMark (s := s) (a := a) (some bounds) pending hat₁.advance hsign with
      ⟨c₂, hnode, hextends, hat₂⟩
    have hchild := hleaves.then ((extends_advance c₁).trans hextends)
    refine ⟨child, _, c₁, _, (c₂.addPart (.repetition bounds child)).2, hsimple, ?_,
      hchild.addPart none rfl fun hn hb hstands => .repeated node hn hb hstands, hat₂.addPart _⟩
    simp [afterPart, hquantifier, hnode, repeatPart, Bounds.of?_self]

/-- A sequence goes on after an item. -/
theorem concatenation_succ {fuel : Nat} {done : List RuleKey} {child key : RuleKey}
    {pending₁ pending₂ : Pending}
    (hsimple : simple s fuel pending c = .ok (some child, pending₁, c₁))
    (hafter : c₁.afterPart s child pending₁ = .ok (some key, pending₂, c₂)) :
    concatenation s (fuel + 1) done pending c =
      concatenation s fuel (key :: done) pending₂ c₂ := by
  conv => lhs; unfold concatenation
  simp [hsimple, hafter]

/-- A sequence with a part is over where no other part begins. -/
theorem concatenation_of_ends {fuel : Nat} {done : List RuleKey} {key : RuleKey}
    (hat : c.At (sign :: ss)) (hsign : sign.ends = true) :
    concatenation s (fuel + 1) (key :: done) pending c =
      .ok (some (c.sequence (key :: done).reverse pending).1, pending,
        (c.sequence (key :: done).reverse pending).2) := by
  unfold concatenation
  rw [simple_of_ends hat hsign]

theorem compiles_lastPart {a : Phrase .repetition} (h : Compiles s a) :
    Compiles s (.lastPart a) := by
  intro fuel done pending c sign rest hfuel hsign hat
  rw [Phrase.signs] at hfuel hat
  obtain ⟨fuel, rfl⟩ : ∃ n, fuel = n + 2 := ⟨fuel - 2, by omega⟩
  rcases h (fuel + 1) pending (by omega) (Sign.separate_of_ends hsign) hat with
    ⟨child, pending₁, c₁, key, c₂, hsimple, hafter, hleaves, hat₂⟩
  refine ⟨[key], c₂, ?_, hleaves.around rfl rfl (.lastPart hleaves.stands), hat₂⟩
  rw [concatenation_succ hsimple hafter, concatenation_of_ends hat₂ hsign, List.reverse_cons]
  rfl

theorem compiles_part {a : Phrase .repetition} {b : Phrase .concatenation} (ha : Compiles s a)
    (hb : Compiles s b) : Compiles s (.part a b) := by
  intro fuel done pending c sign rest hfuel hsign hat
  rw [Phrase.signs, List.length_append] at hfuel
  rw [Phrase.signs, List.append_assoc] at hat
  rcases b.head with ⟨first, ts, hsigns, hbegins⟩
  have hpos := a.length_pos
  obtain ⟨fuel, rfl⟩ : ∃ n, fuel = n + 1 := ⟨fuel - 1, by omega⟩
  rw [hsigns, List.cons_append] at hat
  rcases ha fuel pending (by omega) (Sign.separate_of_begins hbegins) hat with
    ⟨child, pending₁, c₁, key, c₂, hsimple, hafter, hleaves, hat₂⟩
  have hrest : c₂.At (b.signs ++ sign :: rest) := by
    rw [hsigns, List.cons_append]
    exact hat₂
  rcases hb fuel (key :: done) (a.after pending) (by omega) hsign hrest with
    ⟨keys, c₃, hconcatenation, hleaves₃, hat₃⟩
  refine ⟨key :: keys, c₃, ?_, hleaves.part hleaves₃, hat₃⟩
  rw [concatenation_succ hsimple hafter, hconcatenation, List.reverse_cons, List.append_assoc,
    List.singleton_append, Phrase.waiting_part]

/-- Compiling an alternative, up to what follows it. -/
theorem exists_branch {a : Phrase .concatenation} (h : Compiles s a) {fuel : Nat}
    (pending : Pending) (hfuel : 3 * a.signs.length + 2 ≤ fuel) (hsign : sign.ends = true)
    (hat : c.At (a.signs ++ sign :: rest)) :
    ∃ (key : RuleKey) (branchId : Pending) (c' : Compilation),
      concatenation s fuel [] pending c = .ok (some key, branchId, c') ∧
      Leaves c (c'.nameWaiting key branchId) (.lastBranch a) (.any [key]) ∧
      (c'.nameWaiting key branchId).At (sign :: rest) := by
  rcases h fuel [] pending hfuel hsign hat with ⟨keys, c₁, hconcatenation, hleaves, hat₁⟩
  rw [List.reverse_nil, List.nil_append] at hconcatenation
  exact ⟨_, _, _, hconcatenation, hleaves.sequence pending rfl,
    (hat₁.sequence keys _).nameWaiting _ _⟩

theorem compiles_lastBranch {a : Phrase .concatenation} (h : Compiles s a) :
    Compiles s (.lastBranch a) := by
  intro fuel done pending c sign rest hfuel hsign hbar hat
  rw [Phrase.signs] at hfuel hat
  obtain ⟨fuel, rfl⟩ : ∃ n, fuel = n + 1 := ⟨fuel - 1, by omega⟩
  rcases exists_branch h pending (by omega : 3 * a.signs.length + 2 ≤ fuel) hsign hat with
    ⟨key, branchId, c₁, hconcatenation, hleaves, hat₁⟩
  rcases hat₁.current (s := s) with ⟨written, hcurrent⟩
  refine ⟨[key], _, ?_, hleaves, hat₁⟩
  unfold choice
  simp [hconcatenation, hcurrent, hbar]

theorem compiles_branch {a : Phrase .concatenation} {b : Phrase .choice} (ha : Compiles s a)
    (hb : Compiles s b) : Compiles s (.branch a b) := by
  intro fuel done pending c sign rest hfuel hsign hbar hat
  rw [Phrase.signs, List.length_append, List.length_cons] at hfuel
  rw [Phrase.signs, List.append_assoc, List.cons_append] at hat
  obtain ⟨fuel, rfl⟩ : ∃ n, fuel = n + 1 := ⟨fuel - 1, by omega⟩
  rcases exists_branch ha pending (by omega : 3 * a.signs.length + 2 ≤ fuel) rfl hat with
    ⟨key, branchId, c₁, hconcatenation, hleaves, hat₁⟩
  rcases hat₁.current (s := s) with ⟨written, hcurrent⟩
  rcases hb fuel (key :: done) pending (by omega) hsign hbar hat₁.advance with
    ⟨keys, c₂, hchoice, hleaves₂, hat₂⟩
  refine ⟨key :: keys, c₂, ?_, (hleaves.then (extends_advance _)).branch hleaves₂, hat₂⟩
  unfold choice
  simp [hconcatenation, hcurrent, hchoice]

/-- Every phrase that refers to declared tokens and rules is compiled to rules that stand for it. -/
theorem compiles (a : Phrase p) (h : a.Declared s.kinds s.names) : Compiles s a := by
  induction a with
  | lastBranch a ih => exact compiles_lastBranch (ih h)
  | branch a b iha ihb =>
    rcases List.forall_mem_append.1 h with ⟨ha, hb⟩
    exact compiles_branch (iha ha) (ihb (List.forall_mem_cons.1 hb).2)
  | lastPart a ih => exact compiles_lastPart (ih h)
  | part a b iha ihb =>
    rcases List.forall_mem_append.1 h with ⟨ha, hb⟩
    exact compiles_part (iha ha) (ihb hb)
  | item a bounds node ih => exact compiles_item bounds node (ih (List.forall_mem_append.1 h).1)
  | group a ih =>
    have hinside := (List.forall_mem_cons.1 h).2
    exact compiles_group (ih (List.forall_mem_append.1 hinside).1)
  | token kind index kept =>
    have hkind : kind ∈ s.kinds := h (.token (some (kind, index)) kept) List.mem_cons_self
    exact compiles_token index kept hkind
  | call name =>
    have hname : name ∈ s.names := h (.call name) List.mem_cons_self
    exact compiles_call hname

end Compilation

end Descent
