import Descent.Proofs.Rule.Meaning

/-!
# Phrases

A body that the grammar of bodies reads has the shape of a tree: alternatives of sequences of items,
where an item is a group, a token or a call, perhaps repeated, perhaps followed by the name of a node.
Phrases are these trees, with everything that is written in the body.

Main results:

- `Phrase` is the tree of a part of a body, `Phrase.signs` how it is written, and `Phrase.expression`
  what it says.
- `Reads.exists_phrase`: what the grammar of bodies reads is written by a phrase.
- `Phrase.inner` lists the sequences inside a phrase, and `Phrase.waiting` the name that waits at the
  end of a sequence.
- `Phrase.Stands` says which rules were made of a phrase, and `Phrase.Stands.means` that they mean what
  it says.
- `Phrase.Built` says that a sequence has a rule with the name that waits after it.
-/

namespace Descent

/-- The rules of a form. -/
def Form.keys : Form → List RuleKey
  | key k => [k]
  | body _ => []
  | all ks | any ks => ks

/-- The tree of a part of a body. -/
inductive Phrase : BodyPart → Type where
  | lastBranch (a : Phrase .concatenation) : Phrase .choice
  | branch (a : Phrase .concatenation) (b : Phrase .choice) : Phrase .choice
  | lastPart (a : Phrase .repetition) : Phrase .concatenation
  | part (a : Phrase .repetition) (b : Phrase .concatenation) : Phrase .concatenation
  | item (a : Phrase .simple) (bounds : Option Bounds) (node : Option String) : Phrase .repetition
  | group (a : Phrase .choice) : Phrase .simple
  | token (kind : String) (index : Option Nat) (kept : Bool) : Phrase .simple
  | call (name : String) : Phrase .simple

/-- The signs of a mark of repetition whose bounds are in order, if there is one. -/
def boundSigns : Option Bounds → List Sign
  | some bounds => [.quantifier (some (bounds.min, bounds.max))]
  | none => []

/-- Whether a sign refers to nothing that is not declared. -/
def Sign.Declared (kinds names : List String) : Sign → Prop
  | .token (some (kind, _)) _ => kind ∈ kinds
  | .call name => name ∈ names
  | _ => True

namespace Phrase

variable {p : BodyPart} {kinds names : List String}

/-! ## How phrases are written -/

/-- The signs of a phrase. -/
def signs : {p : BodyPart} → Phrase p → List Sign
  | _, .lastBranch a | _, .lastPart a => a.signs
  | _, .branch a b => a.signs ++ .bar :: b.signs
  | _, .part a b => a.signs ++ b.signs
  | _, .item a bounds node => a.signs ++ (boundSigns bounds ++ nodeSigns node)
  | _, .group a => .opening :: (a.signs ++ [.closing])
  | _, .token kind index kept => [.token (some (kind, index)) kept]
  | _, .call name => [.call name]

/-- What a phrase says. -/
def expression : {p : BodyPart} → Phrase p → Expression
  | _, .lastBranch a | _, .lastPart a => a.expression
  | _, .branch a b => .alt a.expression b.expression
  | _, .part a b => .seq a.expression b.expression
  | _, .item a none _ => a.expression
  | _, .item a (some bounds) _ => .repeated a.expression bounds
  | _, .group a => a.expression
  | _, .token kind _ _ => .token kind
  | _, .call name => .call name

/-- The signs of a phrase begin with a sign that a part begins with. -/
theorem head (a : Phrase p) : ∃ sign rest, a.signs = sign :: rest ∧ sign.begins = true := by
  induction a with
  | lastBranch _ ih => exact ih
  | lastPart _ ih => exact ih
  | branch a b iha _ =>
    rcases iha with ⟨sign, rest, hsigns, hbegins⟩
    exact ⟨sign, _, by rw [signs, hsigns, List.cons_append], hbegins⟩
  | part a b iha _ =>
    rcases iha with ⟨sign, rest, hsigns, hbegins⟩
    exact ⟨sign, _, by rw [signs, hsigns, List.cons_append], hbegins⟩
  | item a bounds node ih =>
    rcases ih with ⟨sign, rest, hsigns, hbegins⟩
    exact ⟨sign, _, by rw [signs, hsigns, List.cons_append], hbegins⟩
  | group a _ => exact ⟨.opening, _, rfl, rfl⟩
  | token kind index kept => exact ⟨_, [], rfl, rfl⟩
  | call name => exact ⟨_, [], rfl, rfl⟩

theorem length_pos (a : Phrase p) : 0 < a.signs.length := by
  rcases a.head with ⟨sign, rest, hsigns, -⟩
  simp [hsigns]

/-- A phrase that refers to nothing that is not declared. -/
def Declared (kinds names : List String) (a : Phrase p) : Prop :=
  ∀ sign ∈ a.signs, sign.Declared kinds names

/-! ## Sequences -/

/-- The items of a sequence; nothing else has any. -/
def items : {p : BodyPart} → Phrase p → List (Phrase .repetition)
  | _, .lastPart a => [a]
  | _, .part a b => a :: b.items
  | _, _ => []

/-- The sequences inside a phrase, which itself does not count. -/
def inner : {p : BodyPart} → Phrase p → List (Phrase .concatenation)
  | _, .lastBranch a => a :: a.inner
  | _, .branch a b => a :: (a.inner ++ b.inner)
  | _, .lastPart a | _, .item a _ _ => a.inner
  | _, .part a b => a.inner ++ b.inner
  | _, .group a => a.inner
  | _, .token _ _ _ | _, .call _ => []

/-- Whether a phrase is a group. -/
def opens : Phrase .simple → Bool
  | .group _ => true
  | _ => false

/-- Whether an item is a group, repeated or not. -/
def isGroup : Phrase .repetition → Bool
  | .item a _ _ => a.opens

/-- The name of a node behind an item. -/
def node? : Phrase .repetition → Option String
  | .item _ _ node => node

/-- The name that waits after an item: its own, or else the one from before, unless the item is a
group. -/
def after (a : Phrase .repetition) (pending : Pending) : Pending :=
  match a.node? with
  | some id => some id
  | none => if a.isGroup then none else pending

/-- The name that waits after a sequence. -/
def waiting (a : Phrase .concatenation) (pending : Pending) : Pending :=
  a.items.foldl (fun pending i => i.after pending) pending

/-- Whether a name of a node is written in a sequence, outside its groups. -/
def named (a : Phrase .concatenation) : Bool :=
  a.items.any (·.node?.isSome)

theorem waiting_lastPart (a : Phrase .repetition) (pending : Pending) :
    (lastPart a).waiting pending = a.after pending :=
  rfl

theorem waiting_part (a : Phrase .repetition) (b : Phrase .concatenation) (pending : Pending) :
    (part a b).waiting pending = b.waiting (a.after pending) :=
  rfl

/-- Behind the last name of a node, groups let no name wait. -/
private theorem foldl_after {back : List (Phrase .repetition)}
    (hback : ∀ j ∈ back, j.node? = none) (pending : Pending) :
    back.foldl (fun pending i => i.after pending) pending =
      if back.any isGroup then none else pending := by
  induction back generalizing pending with
  | nil => rfl
  | cons j back ih =>
    rcases List.forall_mem_cons.1 hback with ⟨hj, hrest⟩
    rw [List.foldl_cons, ih hrest, List.any_cons, after, hj]
    by_cases hgroup : j.isGroup = true
    · simp [hgroup]
    · simp [hgroup]

/-- The name that waits after a sequence is the last one that is written in it, unless a group comes
behind that. -/
theorem waiting_of_items {a : Phrase .concatenation} {front back : List (Phrase .repetition)}
    {i : Phrase .repetition} {id : String} (hitems : a.items = front ++ i :: back)
    (hi : i.node? = some id) (hback : ∀ j ∈ back, j.node? = none) (pending : Pending) :
    a.waiting pending = if back.any isGroup then none else some id := by
  rw [waiting, hitems, List.foldl_append, List.foldl_cons, foldl_after hback, after, hi]

/-- Where a name is written there is a last one. -/
theorem exists_last_of_named {a : Phrase .concatenation} (h : a.named = true) :
    ∃ front i back id, a.items = front ++ i :: back ∧ i.node? = some id ∧
      ∀ j ∈ back, j.node? = none := by
  unfold named at h
  generalize a.items = items at h
  induction items with
  | nil => cases h
  | cons i items ih =>
    by_cases hrest : items.any (·.node?.isSome) = true
    · rcases ih hrest with ⟨front, j, back, id, rfl, hj, hback⟩
      exact ⟨i :: front, j, back, id, rfl, hj, hback⟩
    · rw [List.any_cons, Bool.or_eq_true_iff] at h
      rcases Option.isSome_iff_exists.1 (h.resolve_right hrest) with ⟨id, hi⟩
      refine ⟨[], i, items, id, rfl, hi, ?_⟩
      intro j hj
      rw [← Option.not_isSome_iff_eq_none]
      exact fun hsome => hrest (List.any_eq_true.2 ⟨j, hj, hsome⟩)

/-- What waits after a sequence in which a name is written does not depend on what waited before. -/
theorem waiting_of_named {a : Phrase .concatenation} (h : a.named = true) (pending : Pending) :
    a.waiting pending = a.waiting none := by
  rcases exists_last_of_named h with ⟨front, i, back, id, hitems, hi, hback⟩
  rw [waiting_of_items hitems hi hback, waiting_of_items hitems hi hback]

/-- After a single item in which a name is written, this name waits. -/
theorem waiting_ne_none {a : Phrase .repetition} (h : (lastPart a).named = true)
    (pending : Pending) : (lastPart a).waiting pending ≠ none := by
  have hsome : a.node?.isSome = true := by
    simpa [named, items] using h
  rcases Option.isSome_iff_exists.1 hsome with ⟨id, hid⟩
  simp [waiting_lastPart, after, hid]

end Phrase

/-! ## What is read is a phrase -/

variable {kinds names : List String} {p : BodyPart} {ss : List Sign} {e : Expression}

theorem nodeSigns_declared (node : Option String) :
    ∀ sign ∈ nodeSigns node, sign.Declared kinds names := by
  cases node <;> simp [nodeSigns, Sign.Declared]

/-- What the grammar of bodies reads is written by a phrase that says the same. -/
theorem Reads.exists_phrase (h : Reads kinds names p ss e) :
    ∃ a : Phrase p, a.signs = ss ∧ a.expression = e ∧ a.Declared kinds names := by
  induction h with
  | lastBranch _ ih =>
    rcases ih with ⟨a, rfl, rfl, ha⟩
    exact ⟨.lastBranch a, rfl, rfl, ha⟩
  | branch _ _ iha ihb =>
    rcases iha with ⟨a, rfl, rfl, ha⟩
    rcases ihb with ⟨b, rfl, rfl, hb⟩
    refine ⟨.branch a b, rfl, rfl, ?_⟩
    exact List.forall_mem_append.2 ⟨ha, List.forall_mem_cons.2 ⟨trivial, hb⟩⟩
  | lastPart _ ih =>
    rcases ih with ⟨a, rfl, rfl, ha⟩
    exact ⟨.lastPart a, rfl, rfl, ha⟩
  | part _ _ iha ihb =>
    rcases iha with ⟨a, rfl, rfl, ha⟩
    rcases ihb with ⟨b, rfl, rfl, hb⟩
    exact ⟨.part a b, rfl, rfl, List.forall_mem_append.2 ⟨ha, hb⟩⟩
  | once node _ ih =>
    rcases ih with ⟨a, rfl, rfl, ha⟩
    refine ⟨.item a none node, rfl, rfl, ?_⟩
    exact List.forall_mem_append.2 ⟨ha, nodeSigns_declared node⟩
  | repeated bounds node _ ih =>
    rcases ih with ⟨a, rfl, rfl, ha⟩
    refine ⟨.item a (some bounds) node, rfl, rfl, ?_⟩
    exact List.forall_mem_append.2 ⟨ha, List.forall_mem_cons.2 ⟨trivial, nodeSigns_declared node⟩⟩
  | group _ ih =>
    rcases ih with ⟨a, rfl, rfl, ha⟩
    refine ⟨.group a, rfl, rfl, List.forall_mem_cons.2 ⟨trivial, ?_⟩⟩
    exact List.forall_mem_append.2 ⟨ha, List.forall_mem_singleton.2 trivial⟩
  | @token kind index kept hkind =>
    exact ⟨.token kind index kept, rfl, rfl, List.forall_mem_singleton.2 hkind⟩
  | @call name hname => exact ⟨.call name, rfl, rfl, List.forall_mem_singleton.2 hname⟩

/-! ## Rules made of phrases -/

namespace Phrase

/-- Rules stand for a phrase: a rule for the whole of it, or one for each item of a sequence or for
each of some alternatives.  The numbers of all parts are below the bound. -/
inductive Stands (rules : RuleTable) : Nat → {p : BodyPart} → Phrase p → Form → Prop
  | token {bound n : Nat} {kind : String} {index : Option Nat} {kept : Bool} (hn : n < bound)
      (hb : rules.body? (.part n) = some (.token kind index kept)) :
      Stands rules bound (.token kind index kept) (.key (.part n))
  | call (bound : Nat) (name : String) : Stands rules bound (.call name) (.key (.named name))
  /-- A body that is nothing but a call has a rule of its own. -/
  | onlyCall {bound n : Nat} {name : String} (hn : n < bound)
      (hb : rules.body? (.part n) = some (.concatenation [.named name])) :
      Stands rules bound (.call name) (.key (.part n))
  | group {bound : Nat} {a : Phrase .choice} {k : RuleKey} (h : Stands rules bound a (.key k)) :
      Stands rules bound (.group a) (.key k)
  | once {bound : Nat} {a : Phrase .simple} {k : RuleKey} (node : Option String)
      (h : Stands rules bound a (.key k)) : Stands rules bound (.item a none node) (.key k)
  | repeated {bound n : Nat} {a : Phrase .simple} {bounds : Bounds} {k : RuleKey}
      (node : Option String) (hn : n < bound)
      (hb : rules.body? (.part n) = some (.repetition bounds k)) (h : Stands rules n a (.key k)) :
      Stands rules bound (.item a (some bounds) node) (.key (.part n))
  | lastPart {bound : Nat} {a : Phrase .repetition} {k : RuleKey}
      (h : Stands rules bound a (.key k)) : Stands rules bound (.lastPart a) (.all [k])
  | part {bound : Nat} {a : Phrase .repetition} {b : Phrase .concatenation} {k : RuleKey}
      {ks : List RuleKey} (ha : Stands rules bound a (.key k)) (hb : Stands rules bound b (.all ks)) :
      Stands rules bound (.part a b) (.all (k :: ks))
  /-- A single item stands for its sequence. -/
  | onlyPart {bound : Nat} {a : Phrase .concatenation} {k : RuleKey}
      (h : Stands rules bound a (.all [k])) : Stands rules bound a (.key k)
  | concatenation {bound n : Nat} {a : Phrase .concatenation} {ks : List RuleKey} (hn : n < bound)
      (hb : rules.body? (.part n) = some (.concatenation ks)) (h : Stands rules n a (.all ks)) :
      Stands rules bound a (.key (.part n))
  | lastBranch {bound : Nat} {a : Phrase .concatenation} {k : RuleKey}
      (h : Stands rules bound a (.key k)) : Stands rules bound (.lastBranch a) (.any [k])
  | branch {bound : Nat} {a : Phrase .concatenation} {b : Phrase .choice} {k : RuleKey}
      {ks : List RuleKey} (ha : Stands rules bound a (.key k)) (hb : Stands rules bound b (.any ks)) :
      Stands rules bound (.branch a b) (.any (k :: ks))
  /-- A single alternative stands for all. -/
  | onlyBranch {bound : Nat} {a : Phrase .choice} {k : RuleKey}
      (h : Stands rules bound a (.any [k])) : Stands rules bound a (.key k)
  | choice {bound n : Nat} {a : Phrase .choice} {ks : List RuleKey} (hn : n < bound)
      (hb : rules.body? (.part n) = some (.choice ks)) (h : Stands rules n a (.any ks)) :
      Stands rules bound a (.key (.part n))

variable {rules rules' : RuleTable} {form : Form}

/-- Rules stand for a phrase when parts above the bound change. -/
theorem Stands.mono {bound bound' : Nat} {a : Phrase p} (h : Stands rules bound a form)
    (hle : bound ≤ bound') (hsame : ∀ n < bound, rules'.body? (.part n) = rules.body? (.part n)) :
    Stands rules' bound' a form := by
  induction h generalizing bound' with
  | token hn hb => exact .token (Nat.lt_of_lt_of_le hn hle) ((hsame _ hn).trans hb)
  | call _ name => exact .call _ name
  | onlyCall hn hb => exact .onlyCall (Nat.lt_of_lt_of_le hn hle) ((hsame _ hn).trans hb)
  | group h ih => exact .group (ih hle hsame)
  | once node h ih => exact .once node (ih hle hsame)
  | repeated node hn hb h ih =>
    refine .repeated node (Nat.lt_of_lt_of_le hn hle) ((hsame _ hn).trans hb) ?_
    exact ih (Nat.le_refl _) fun k hk => hsame k (Nat.lt_trans hk hn)
  | lastPart h ih => exact .lastPart (ih hle hsame)
  | part ha hb iha ihb => exact .part (iha hle hsame) (ihb hle hsame)
  | onlyPart h ih => exact .onlyPart (ih hle hsame)
  | concatenation hn hb h ih =>
    refine .concatenation (Nat.lt_of_lt_of_le hn hle) ((hsame _ hn).trans hb) ?_
    exact ih (Nat.le_refl _) fun k hk => hsame k (Nat.lt_trans hk hn)
  | lastBranch h ih => exact .lastBranch (ih hle hsame)
  | branch ha hb iha ihb => exact .branch (iha hle hsame) (ihb hle hsame)
  | onlyBranch h ih => exact .onlyBranch (ih hle hsame)
  | choice hn hb h ih =>
    refine .choice (Nat.lt_of_lt_of_le hn hle) ((hsame _ hn).trans hb) ?_
    exact ih (Nat.le_refl _) fun k hk => hsame k (Nat.lt_trans hk hn)

/-- Rules that stand for a phrase mean what it says. -/
theorem Stands.means {bound : Nat} {a : Phrase p} (h : Stands rules bound a form)
    (ha : a.Declared kinds names) : Means rules names bound form a.expression := by
  induction h with
  | token hn hb => exact .part hn hb (.token _ _ _ _)
  | call _ name => exact .call _ (ha (.call name) List.mem_cons_self)
  | @onlyCall bound n name hn hb =>
    exact .part hn hb (.concatenation (.allOne (.call _ (ha (.call name) List.mem_cons_self))))
  | group h ih =>
    exact ih (List.forall_mem_append.1 (List.forall_mem_cons.1 ha).2).1
  | once node h ih => exact ih (List.forall_mem_append.1 ha).1
  | repeated node hn hb h ih =>
    exact .part hn hb (.repetition _ (ih (List.forall_mem_append.1 ha).1))
  | lastPart h ih => exact .allOne (ih ha)
  | part _ _ iha ihb =>
    exact .allMore (iha (List.forall_mem_append.1 ha).1) (ihb (List.forall_mem_append.1 ha).2)
  | onlyPart h ih =>
    have hall := ih ha
    generalize Phrase.expression _ = e at hall ⊢
    cases hall with
    | allOne hkey => exact hkey
    | allMore _ hnone => cases hnone
  | concatenation hn hb h ih => exact .part hn hb (.concatenation (ih ha))
  | lastBranch h ih => exact .anyOne (ih ha)
  | branch _ _ iha ihb =>
    rcases List.forall_mem_append.1 ha with ⟨hfirst, hrest⟩
    exact .anyMore (iha hfirst) (ihb (List.forall_mem_cons.1 hrest).2)
  | onlyBranch h ih =>
    have hany := ih ha
    generalize Phrase.expression _ = e at hany ⊢
    cases hany with
    | anyOne hkey => exact hkey
    | anyMore _ hnone => cases hnone
  | choice hn hb h ih => exact .part hn hb (.choice (ih ha))

/-- The parts among the rules that stand for a phrase have numbers below the bound. -/
theorem Stands.lt {bound n : Nat} {a : Phrase p} (h : Stands rules bound a form)
    (hn : .part n ∈ form.keys) : n < bound := by
  induction h with
  | token hlt _ | onlyCall hlt _ | repeated _ hlt _ _ | concatenation hlt _ _ | choice hlt _ _ =>
    cases List.mem_singleton.1 hn
    exact hlt
  | call _ _ => cases List.mem_singleton.1 hn
  | group _ ih | once _ _ ih | lastPart _ ih | onlyPart _ ih | lastBranch _ ih | onlyBranch _ ih =>
    exact ih hn
  | part _ _ iha ihb | branch _ _ iha ihb =>
    rcases List.mem_cons.1 hn with hkey | hrest
    · exact iha (List.mem_singleton.2 hkey)
    · exact ihb hrest

/-- A sequence has a rule of its own, below the bound, that refers to the rules of its items and has the
name that waits after it. -/
def Built (rules : RuleTable) (bound : Nat) (a : Phrase .concatenation) : Prop :=
  ∃ n r ks, n < bound ∧ rules.get? (.part n) = some r ∧ r.body = .concatenation ks ∧
    a.Stands rules n (.all ks) ∧ r.nodeId = (a.waiting none).map NodeId.ofString

theorem Built.mono {bound bound' : Nat} {a : Phrase .concatenation} (h : Built rules bound a)
    (hle : bound ≤ bound') (hsame : ∀ n < bound, rules'.get? (.part n) = rules.get? (.part n)) :
    Built rules' bound' a := by
  rcases h with ⟨n, r, ks, hn, hr, hbody, hstands, hnode⟩
  refine ⟨n, r, ks, Nat.lt_of_lt_of_le hn hle, (hsame n hn).trans hr, hbody, ?_, hnode⟩
  refine hstands.mono (Nat.le_refl _) fun k hk => ?_
  rw [RuleTable.body?, hsame k (Nat.lt_trans hk hn), RuleTable.body?]

end Phrase

/-- The least number above a part; a declared name has none below it. -/
def RuleKey.limit : RuleKey → Nat
  | part n => n + 1
  | named _ => 0

end Descent
