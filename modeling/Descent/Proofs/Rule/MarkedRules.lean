import Descent.Proofs.Rule.Invariant
import Descent.Proofs.Rule.NodeSequences

/-!
# Marked rules

The name of a marked rule waits when its body begins.  So the rule of the body is a sequence of its own
or offers alternatives, and every use of it has parts, unless the name went into a group and the body is
nothing but this group, repeated.

Main results:

- `Phrase.repeatsGroup` says which bodies are nothing but a repeated group.
- `Compilation.NodeRule` says what the rule of a marked body is like: its uses have parts if the body is
  any other one.
- `Compilation.exists_nodeRule_of_declareBodies`: every marked body that compiles has such a rule.
-/

namespace Descent

/-- Whether every use of a rule with this body has parts. -/
def RuleBody.hasParts : RuleBody → Bool
  | concatenation children => !children.isEmpty
  | choice _ => true
  | _ => false

/-- Whether a phrase is nothing but a repeated group, perhaps in parentheses, and no name of a node is
written behind it. -/
def Phrase.repeatsGroup : {p : BodyPart} → Phrase p → Bool
  | _, .lastBranch a | _, .lastPart a => a.repeatsGroup
  | _, .item a bounds node => a.opens && node.isNone && (bounds.isSome || a.repeatsGroup)
  | _, .group a => a.repeatsGroup
  | _, .branch _ _ | _, .part _ _ | _, .token _ _ _ | _, .call _ => false

namespace Compilation

variable {s : BodyScope} {c c₁ c₂ : Compilation} {key : RuleKey} {pending : Pending}
  {keys : List RuleKey}

/-- Every use of the rule of a part has parts. -/
def HasParts (rules : RuleTable) (key : RuleKey) : Prop :=
  ∃ n r, key = .part n ∧ rules.get? key = some r ∧ r.body.hasParts = true

theorem hasParts_addPart (c : Compilation) {body : RuleBody} (hbody : body.hasParts = true)
    (pending : Pending) :
    HasParts ((c.addPart body).2.nameWaiting (c.addPart body).1 pending).rules (c.addPart body).1 :=
  ⟨c.counter, _, rfl, get?_nameWaiting_addPart c body pending, hbody⟩

/-- A sequence for which a name waits, or of several items, has a rule with parts. -/
theorem hasParts_sequence (c : Compilation) (hkeys : keys ≠ [])
    (h : pending ≠ none ∨ keys.length ≠ 1) :
    HasParts ((c.sequence keys pending).2.nameWaiting (c.sequence keys pending).1 pending).rules
      (c.sequence keys pending).1 := by
  unfold Compilation.sequence
  split
  · exact absurd rfl (h.resolve_right (fun hlength => hlength rfl))
  · refine hasParts_addPart c ?_ pending
    simpa [RuleBody.hasParts] using hkeys

/-- Several alternatives have a rule with parts. -/
theorem hasParts_alternatives (c : Compilation) (h : keys.length ≠ 1) :
    HasParts (c.alternatives keys).2.rules (c.alternatives keys).1 := by
  unfold Compilation.alternatives
  split
  · exact absurd rfl h
  · exact hasParts_addPart c rfl none

/-- Several items have as many rules. -/
theorem length_of_stands_part {rules : RuleTable} {bound : Nat} {a : Phrase .repetition}
    {b : Phrase .concatenation} (h : (Phrase.part a b).Stands rules bound (.all keys)) :
    2 ≤ keys.length := by
  cases h with
  | part _ hrest => cases hrest <;> simp

/-- Several alternatives have as many rules. -/
theorem length_of_stands_branch {rules : RuleTable} {bound : Nat} {a : Phrase .concatenation}
    {b : Phrase .choice} (h : (Phrase.branch a b).Stands rules bound (.any keys)) :
    2 ≤ keys.length := by
  cases h with
  | branch _ hrest => cases hrest <;> simp

/-- What a phrase that does not repeat a group is compiled to has parts if a name waits before it; the
parts of a sequence matter only where no name waits after them. -/
private def Fills (s : BodyScope) : {p : BodyPart} → Phrase p → Prop
  | .simple, a => ∀ fuel id {c rest key c'}, 3 * a.signs.length ≤ fuel → At c (a.signs ++ rest) →
      simple s fuel (some id) c = .ok (some key, none, c') → a.repeatsGroup = false →
      HasParts c'.rules key
  | .repetition, a => ∀ fuel id {c sign rest child pending c₁ key c'}, 3 * a.signs.length ≤ fuel →
      sign.separate = true → At c (a.signs ++ sign :: rest) →
      simple s fuel (some id) c = .ok (some child, pending, c₁) →
      c₁.afterPart s child pending = .ok (some key, none, c') → a.repeatsGroup = false →
      HasParts c'.rules key
  | .concatenation, a => ∀ fuel id {c sign rest key pending c'}, 3 * a.signs.length + 2 ≤ fuel →
      sign.ends = true → At c (a.signs ++ sign :: rest) →
      concatenation s fuel [] (some id) c = .ok (some key, pending, c') → a.repeatsGroup = false →
      HasParts (c'.nameWaiting key pending).rules key
  | .choice, a => ∀ fuel id {c sign rest key pending c'}, 3 * a.signs.length + 3 ≤ fuel →
      sign.ends = true → sign ≠ .bar → At c (a.signs ++ sign :: rest) →
      choice s (some id) fuel [] c = .ok (some key, pending, c') → a.repeatsGroup = false →
      HasParts c'.rules key

private theorem fills_of_not_opens {a : Phrase .simple} (hopens : a.opens = false)
    (h : Compiles s a) : Fills s a := by
  intro fuel id c rest key c' hfuel hat hsimple _
  rcases h fuel (some id) hfuel hat with ⟨key', c'', hsimple', -, -⟩
  rw [hsimple', hopens] at hsimple
  cases hsimple

private theorem fills_group {a : Phrase .choice} (h : Compiles s a) (ha : Fills s a) :
    Fills s (.group a) := by
  intro fuel id c rest key c' hfuel hat hsimple hrepeats
  simp only [Phrase.signs, List.length_cons, List.length_append, List.length_nil] at hfuel
  cases fuel with
  | zero => omega
  | succ fuel =>
    rcases hat.current (s := s) with ⟨written, hcurrent⟩
    have hinner : c.advance.At (a.signs ++ .closing :: rest) := by
      simpa using hat.advance
    have hends : Sign.closing.ends = true := rfl
    rcases h fuel [] (some id) (by omega) hends (by decide) hinner with ⟨keys, c₁, hchoice, -, hat₁⟩
    rw [List.reverse_nil, List.nil_append] at hchoice
    rcases (hat₁.alternatives keys).current (s := s) with ⟨written', hcurrent'⟩
    have hparts := ha fuel id (by omega) hends (by decide) hinner hchoice hrepeats
    unfold simple at hsimple
    rw [hcurrent] at hsimple
    simp only [hchoice, hcurrent', if_true] at hsimple
    cases hsimple
    exact hparts

/-- After an item before which a name waits, none waits only if it is a group without a name behind it. -/
theorem opens_of_after {a : Phrase .simple} {bounds : Option Bounds} {node : Option String}
    {id : String} (h : (Phrase.item a bounds node).after (some id) = none) :
    a.opens = true ∧ node = none := by
  cases node with
  | some name => cases h
  | none =>
    rcases hopens : a.opens with _ | _
    · simp [Phrase.after, Phrase.node?, Phrase.isGroup, hopens] at h
    · exact ⟨rfl, rfl⟩

private theorem fills_item {a : Phrase .simple} (bounds : Option Bounds) (node : Option String)
    (h : Compiles s a) (ha : Fills s a) : Fills s (.item a bounds node) := by
  intro fuel id c sign rest child pending c₁ key c' hfuel hsign hat hsimple hafter hrepeats
  obtain ⟨child', pending', c₁', key', c'', hsimple', hafter', -, -⟩ :=
    compiles_item bounds node h fuel (some id) hfuel hsign hat
  rw [hsimple'] at hsimple
  cases hsimple
  rw [hafter', Except.ok.injEq, Prod.mk.injEq, Prod.mk.injEq] at hafter
  rcases opens_of_after hafter.2.1 with ⟨hopens, rfl⟩
  cases bounds with
  | some bounds => simp [Phrase.repeatsGroup, hopens] at hrepeats
  | none =>
    rw [Phrase.signs, List.length_append] at hfuel
    rw [Phrase.signs, List.append_assoc] at hat
    rcases h fuel (some id) (by omega) hat with ⟨child₂, c₂, hsimple₂, -, hat₂⟩
    rw [hopens, if_pos rfl] at hsimple₂
    have hinner : a.repeatsGroup = false := by
      simpa [Phrase.repeatsGroup, hopens] using hrepeats
    have hparts := ha fuel id (by omega) hat hsimple₂ hinner
    rw [hsimple₂] at hsimple'
    cases hsimple'
    -- nothing is read behind the group
    rcases exists_of_afterPart hafter' with ⟨numbers, c₃, c₄, k, hquantifier, hname, hrepeat, hk⟩
    rw [quantifier_of_separate hat₂ hsign] at hquantifier
    cases hquantifier
    rcases nodeMark_cases hname with ⟨-, rfl⟩ | ⟨_, _, -, -, hsome, -⟩
    · cases hrepeat
      rw [← hafter.2.2, ← Option.some.inj (hk.symm.trans hafter.1)]
      exact hparts
    · rw [hafter.2.1] at hsome
      cases hsome

private theorem fills_lastPart {a : Phrase .repetition} (h : Compiles s a) (ha : Fills s a) :
    Fills s (.lastPart a) := by
  intro fuel id c sign rest key pending c' hfuel hsign hat hconcatenation hrepeats
  rw [Phrase.signs] at hfuel hat
  obtain ⟨fuel, rfl⟩ : ∃ n, fuel = n + 2 := ⟨fuel - 2, by omega⟩
  have hseparate := Sign.separate_of_ends hsign
  rcases h (fuel + 1) (some id) (by omega) hseparate hat with
    ⟨child, pending₁, c₁, key₁, c₂, hsimple, hafter, -, hat₂⟩
  rw [concatenation_succ hsimple hafter, concatenation_of_ends hat₂ hsign] at hconcatenation
  cases hconcatenation
  rcases hwaiting : a.after (some id) with _ | name
  · rw [hwaiting] at hafter
    exact ha (fuel + 1) id (by omega) hseparate hat hsimple hafter hrepeats
  · exact hasParts_sequence c₂ (List.cons_ne_nil _ _) (.inl (Option.some_ne_none name))

private theorem fills_part {a : Phrase .repetition} {b : Phrase .concatenation}
    (h : Compiles s (.part a b)) : Fills s (.part a b) := by
  intro fuel id c sign rest key pending c' hfuel hsign hat hconcatenation _
  rcases h fuel [] (some id) hfuel hsign hat with ⟨keys, c₁, hconcatenation', hleaves, -⟩
  rw [List.reverse_nil, List.nil_append] at hconcatenation'
  rw [hconcatenation'] at hconcatenation
  cases hconcatenation
  have hlength := length_of_stands_part hleaves.stands
  exact hasParts_sequence c₁ (List.ne_nil_of_length_pos (by omega)) (.inr (by omega))

private theorem fills_lastBranch {a : Phrase .concatenation} (h : Compiles s a) (ha : Fills s a) :
    Fills s (.lastBranch a) := by
  intro fuel id c sign rest key pending c' hfuel hsign hbar hat hchoice hrepeats
  rw [Phrase.signs] at hfuel hat
  obtain ⟨fuel, rfl⟩ : ∃ n, fuel = n + 1 := ⟨fuel - 1, by omega⟩
  rcases exists_branch h (some id) (by omega : 3 * a.signs.length + 2 ≤ fuel) hsign hat with
    ⟨key₁, branchId, c₁, hconcatenation, -, hat₁⟩
  rcases hat₁.current (s := s) with ⟨written, hcurrent⟩
  unfold choice at hchoice
  simp only [hconcatenation, hcurrent, hbar, if_false] at hchoice
  cases hchoice
  exact ha fuel id (by omega) hsign hat hconcatenation hrepeats

private theorem fills_branch {a : Phrase .concatenation} {b : Phrase .choice}
    (h : Compiles s (.branch a b)) : Fills s (.branch a b) := by
  intro fuel id c sign rest key pending c' hfuel hsign hbar hat hchoice _
  rcases h fuel [] (some id) hfuel hsign hbar hat with ⟨keys, c₁, hchoice', hleaves, -⟩
  rw [List.reverse_nil, List.nil_append] at hchoice'
  rw [hchoice'] at hchoice
  cases hchoice
  have hlength := length_of_stands_branch hleaves.stands
  exact hasParts_alternatives c₁ (by omega)

/-- Where a name waits before a phrase that refers to declared tokens and rules, what it is compiled to
has parts unless it repeats a group. -/
private theorem fills {p : BodyPart} (a : Phrase p) (h : a.Declared s.kinds s.names) : Fills s a := by
  induction a with
  | lastBranch a ih => exact fills_lastBranch (compiles a h) (ih h)
  | branch a b _ _ => exact fills_branch (compiles _ h)
  | lastPart a ih => exact fills_lastPart (compiles a h) (ih h)
  | part a b _ _ => exact fills_part (compiles _ h)
  | item a bounds node ih =>
    have ha := (List.forall_mem_append.1 h).1
    exact fills_item bounds node (compiles a ha) (ih ha)
  | group a ih =>
    have ha := (List.forall_mem_append.1 (List.forall_mem_cons.1 h).2).1
    exact fills_group (compiles a ha) (ih ha)
  | token kind index kept => exact fills_of_not_opens rfl (compiles _ h)
  | call name => exact fills_of_not_opens rfl (compiles _ h)

/-! ## Declared rules -/

variable {rules rules' : RuleTable} {counter counter' : Nat} {body : String}

/-- What the rule of a marked body is like: it has the name of its node, and every use of it has parts
unless the body is nothing but a repeated group. -/
structure NodeRule (rules : RuleTable) (key body : String) (r : Rule) : Prop where
  there : rules.get? (.named (bareRuleName key)) = some r
  declared : r.transitional = false
  defaultId : r.defaultId = some (.ofString key)
  hasParts : ∀ a : Phrase .choice, a.Writes body → a.repeatsGroup = false →
    r.body.hasParts = true

/-- A marked body that compiles has such a rule. -/
theorem exists_nodeRule_of_declareBody {key : String} (hmarked : isMarked key = true)
    (h : declareBody s rules counter key body = .ok (rules', counter')) :
    ∃ r, NodeRule rules' key body r := by
  have hdefault (r : Rule) : (r.declared key body).defaultId = some (.ofString key) :=
    if_pos hmarked
  rcases exists_of_declareBody h with ⟨top, pending, c, hchoice, -, hdeclare, -⟩
  rcases declare_cases hdeclare with ⟨name, rfl, rfl⟩ | ⟨n, r, rfl, hr, rfl⟩
  · exact ⟨_, OrderedMap.get?_insert_self _ _ _, rfl, hdefault _, fun _ _ _ => rfl⟩
  · refine ⟨_, OrderedMap.get?_insert_self _ _ _, rfl, hdefault _, fun a ha hrepeats => ?_⟩
    rcases Phrase.writes_iff.1 ha with ⟨ws, hsigns, hws⟩
    have hlength := length_signsOf hsigns hws
    have hat : At ⟨rules, counter, .ofList (signsOf body)⟩ (a.signs ++ [.ending]) := ⟨ws, hsigns, hws⟩
    rw [markOf, if_pos hmarked] at hchoice
    obtain ⟨k, r', -, hr', hparts⟩ := fills a (declared_of_declareBody h ha) _ key
      (by omega) rfl (by decide) hat hchoice hrepeats
    rw [hr] at hr'
    cases hr'
    exact hparts

/-- A marked body has such a rule in the end if no rule of the same name is declared after it. -/
theorem exists_nodeRule_of_declareBodies {kinds names : List String} {key : String}
    (hmarked : isMarked key = true) {front back : List (String × String)}
    (h : declareBodies kinds names rules counter (front ++ (key, body) :: back) = .ok rules')
    (hlast : ∀ b ∈ back, bareRuleName b.1 ≠ bareRuleName key) :
    ∃ r, NodeRule rules' key body r := by
  obtain ⟨rules₁, counter₁, rules₂, counter₂, changed, counter', hbody, hkeeps, hname⟩ :=
    exists_keeps_of_declareBodies h hlast
  rcases exists_nodeRule_of_declareBody hmarked hbody with
    ⟨r, hthere, hdeclared, hdefault, hparts⟩
  refine ⟨r, ?_, hdeclared, hdefault, hparts⟩
  rw [hkeeps.named _ hname, hthere]

end Compilation

end Descent
