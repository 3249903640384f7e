import Descent.Proofs.Search.Derivation
import Descent.Tree.Build

/-!
# Brackets of events

The events of a derivation enter and leave its rules like brackets: a rule is left when all that was
entered inside it is left.  Such events can be read to the end, and no rule is open then.

Main results:

- `Bracketed` says so of events, and that their rules are there.
- `Derivation.bracketed_linearize`: the events of a derivation are bracketed.
- `Builder.readEvents_of_bracketed`: bracketed events are read, and the rules open are those before.
- `Tree.readable_of_bracketed`: bracketed events make a tree.
-/

namespace Descent

/-- Every rule that is entered is there, and it is left again after events that are bracketed
themselves. -/
inductive Bracketed (rules : RuleTable) : List Event → Prop
  | nil : Bracketed rules []
  | token (t : MatchedToken) {rest : List Event} (hrest : Bracketed rules rest) :
      Bracketed rules (.token t :: rest)
  | rule {c c' : Call} {depth depth' : Int} {left left' : Todo} {inside rest : List Event}
      (hthere : rules.get? c.rule ≠ none) (hsame : c'.rule = c.rule)
      (hinside : Bracketed rules inside) (hrest : Bracketed rules rest) :
      Bracketed rules (.enter c depth left :: (inside ++ .leave c' depth' left' :: rest))

namespace Bracketed

variable {rules : RuleTable} {es fs : List Event}

theorem append (h : Bracketed rules es) (h' : Bracketed rules fs) :
    Bracketed rules (es ++ fs) := by
  induction h with
  | nil => exact h'
  | token t _ ih => exact .token t ih
  | rule hthere hsame hinside _ _ ih =>
    rw [List.cons_append, List.append_assoc, List.cons_append]
    exact .rule hthere hsame hinside ih

/-- The events of one use of a rule. -/
theorem single {c c' : Call} {depth depth' : Int} {left left' : Todo}
    (hthere : rules.get? c.rule ≠ none) (hsame : c'.rule = c.rule) (h : Bracketed rules es) :
    Bracketed rules (.enter c depth left :: (es ++ [.leave c' depth' left'])) :=
  .rule hthere hsame h .nil

end Bracketed

/-! ## Events of derivations -/

namespace Derivation

variable {m : Machine} {ds : List Derivation} {depth : Int} {es : List Event}

theorem InTurn.bracketed (hes : InTurn m depth ds es)
    (h : ∀ d ∈ ds, ∀ todo, Bracketed m.rules (d.linearize m depth todo)) :
    Bracketed m.rules es := by
  induction hes with
  | nil => exact .nil
  | cons todo _ ih =>
    exact (h _ List.mem_cons_self todo).append (ih fun e he => h e (List.mem_cons_of_mem _ he))

/-- The events of a derivation are bracketed. -/
theorem bracketed_linearize {d : Derivation} (h : m.Fits d) (depth : Int) (todo : Todo) :
    Bracketed m.rules (d.linearize m depth todo) := by
  have hthere {key : RuleKey} {r : Rule} {data : Nat} (hr : m.rules.get? key = some r) :
      m.rules.get? (m.use key data).rule ≠ none := by
    show m.rules.get? key ≠ none
    rw [hr]
    exact Option.some_ne_none r
  induction h generalizing depth todo with
  | token => exact .token _ .nil
  | concatenation hr _ _ _ ih =>
    exact .single (hthere hr) rfl ((inTurn_linearizeAll _ _ _).bracketed fun d hd => ih d hd _)
  | choice hr _ _ _ ih => exact .single (hthere hr) rfl (ih _ _)
  | repetition hr _ _ _ _ _ ih =>
    exact .single (hthere hr) rfl ((inTurn_linearizeTimes _ _ _ _ _).bracketed fun d hd => ih d hd _)

end Derivation

/-! ## Reading -/

namespace Builder

variable {rules : RuleTable} {es : List Event}

/-- Only a rule in which nothing happened is left next. -/
theorem leavesNext_of_bracketed {c : Call} {depth : Int} {left : Todo} {rest : List Event}
    (h : Bracketed rules es) (hes : es ≠ []) (key : RuleKey) :
    leavesNext key (es ++ .leave c depth left :: rest) = false := by
  cases h with
  | nil => exact absurd rfl hes
  | token => rfl
  | rule => rfl

/-- Bracketed events are read whatever comes after them, and the same rules are open then. -/
theorem readEvents_of_bracketed (h : Bracketed rules es) (b : Builder) :
    ∃ b', b'.opened = b.opened ∧
      ∀ more, readEvents rules false b (es ++ more) = readEvents rules false b' more := by
  induction h generalizing b with
  | nil => exact ⟨b, rfl, fun _ => rfl⟩
  | token t hrest ih =>
    rcases ih (b.addToken t) with ⟨b', hopened, hread⟩
    refine ⟨b', hopened.trans ?_, fun more => ?_⟩
    · unfold addToken
      split <;> rfl
    · exact hread more
  | @rule c c' depth depth' left left' inside rest hthere hsame hinside hrest ihinside ihrest =>
    by_cases hempty : inside = []
    · -- A rule in which nothing happened is passed over with its end.
      rcases ihrest b with ⟨b', hopened, hread⟩
      refine ⟨b', hopened, fun more => ?_⟩
      rw [hempty]
      have hleaves : leavesNext c.rule (.leave c' depth' left' :: (rest ++ more)) = true := by
        rw [leavesNext, hsame, beq_self_eq_true]
      show readEvents rules false b (.enter c depth left :: .leave c' depth' left' ::
        (rest ++ more)) = _
      rw [readEvents, if_neg Bool.false_ne_true, if_pos hleaves, readEvents, if_pos rfl]
      exact hread more
    · rcases Option.ne_none_iff_exists'.1 hthere with ⟨r, hr⟩
      rcases ihinside (b.beginRule r c) with ⟨b₁, hopened₁, hread₁⟩
      obtain ⟨b₂, hend, hopened₂⟩ : ∃ b₂, b₁.endRule = .ok b₂ ∧ b₂.opened = b.opened := by
        unfold endRule
        rw [hopened₁]
        exact ⟨_, rfl, rfl⟩
      rcases ihrest b₂ with ⟨b', hopened, hread⟩
      refine ⟨b', hopened.trans hopened₂, fun more => ?_⟩
      rw [List.cons_append, List.append_assoc, List.cons_append, readEvents,
        if_neg Bool.false_ne_true]
      rw [leavesNext_of_bracketed hinside hempty, if_neg Bool.false_ne_true, hr]
      dsimp only
      rw [hread₁, readEvents, if_neg Bool.false_ne_true, hend]
      exact hread more

end Builder

namespace Tree

variable {rules : RuleTable} {root : RuleKey}

theorem exists_ofTrees (hroot : rules.get? root ≠ none) (ts : List Tree) :
    ∃ t, ofTrees rules root ts = .ok t := by
  rcases Option.ne_none_iff_exists'.1 hroot with ⟨r, hr⟩
  unfold ofTrees
  split
  · exact ⟨_, rfl⟩
  · rw [hr]
    exact ⟨_, rfl⟩

/-- Events that are read to the end and leave no rule open, and make a tree. -/
structure Readable (rules : RuleTable) (root : RuleKey) (events : List Event) : Prop where
  bracketed : Bracketed rules events
  read : ∃ b, Builder.readEvents rules false ⟨[], []⟩ events = .ok b ∧ b.opened = []
  made : ∃ t, ofEvents rules root events = .ok t

/-- Bracketed events make a tree. -/
theorem readable_of_bracketed (hroot : rules.get? root ≠ none) {events : List Event}
    (h : Bracketed rules events) : Readable rules root events := by
  rcases Builder.readEvents_of_bracketed h ⟨[], []⟩ with ⟨b, hopened, hmore⟩
  have hread : Builder.readEvents rules false ⟨[], []⟩ events = .ok b := by
    rw [← List.append_nil events, hmore]
    rfl
  have hclosed : b.opened.isEmpty = true := by
    rw [hopened]
    rfl
  refine ⟨h, ⟨b, hread, hopened⟩, ?_⟩
  unfold ofEvents
  rw [hread]
  dsimp only
  rw [if_pos hclosed]
  exact exists_ofTrees hroot _

end Tree

end Descent
