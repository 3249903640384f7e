import Descent.Proofs.Search.Visited

/-!
# Uses of declared rules

The events of a search tell which uses of declared rules have begun and which have ended, and a token
belongs to the use that is open where it is matched.  A declared rule that is nothing but a token has no
events but its token, which so belongs to the use that the rule is called in.

Main results:

- `usesOf` reads the uses off some events.
- `unifies_iff`: the test of unification looks at all tokens of the innermost open use, and at no others.
- `Machine.Scoped` says which rules the tokens of a use are matched by, and `Machine.scoped_of_comes`
  that this holds of all that a search visits.
-/

namespace Descent

/-- The use of a declared rule with the tokens that belong to it, in order.  The rule that a search starts
from is called in a use of no rule. -/
structure Use where
  owner : Option RuleKey
  tokens : List MatchedToken

/-- The uses in some events. -/
structure Uses where
  /-- The innermost one that has not ended. -/
  current : Use
  /-- Those that have not ended around it, the innermost first. -/
  around : List Use
  ended : List Use

namespace Uses

/-- Nothing has been called but the rule that a search starts from. -/
def start : Uses :=
  ⟨⟨none, []⟩, [], []⟩

/-- The uses after one of a declared rule has begun. -/
def enter (uses : Uses) (key : RuleKey) : Uses :=
  ⟨⟨some key, []⟩, uses.current :: uses.around, uses.ended⟩

/-- The uses after the innermost one has ended. -/
def leave (uses : Uses) : Uses :=
  match uses.around with
  | [] => uses
  | outer :: rest => ⟨outer, rest, uses.current :: uses.ended⟩

/-- The uses after a token was matched. -/
def add (uses : Uses) (t : MatchedToken) : Uses :=
  { uses with current := { uses.current with tokens := uses.current.tokens ++ [t] } }

/-- The uses that have not ended, the innermost first. -/
def unended (uses : Uses) : List Use :=
  uses.current :: uses.around

/-- The rules of the uses that have not ended, the innermost first. -/
def owners (uses : Uses) : List (Option RuleKey) :=
  uses.unended.map Use.owner

/-- All uses, ended or not. -/
def all (uses : Uses) : List Use :=
  uses.unended ++ uses.ended

variable {uses : Uses}

/-- The innermost use ends within another one. -/
theorem leave_eq {n : Nat} (h : uses.around.length = n + 1) :
    ∃ outer rest, uses.around = outer :: rest ∧ rest.length = n ∧
      uses.leave = ⟨outer, rest, uses.current :: uses.ended⟩ := by
  rcases List.exists_cons_of_length_eq_add_one h with ⟨outer, rest, haround⟩
  refine ⟨outer, rest, haround, ?_, ?_⟩
  · rw [haround] at h
    exact Nat.succ.inj h
  · rw [leave, haround]

theorem mem_all_enter {key : RuleKey} {use : Use} :
    use ∈ (uses.enter key).all ↔ use = ⟨some key, []⟩ ∨ use ∈ uses.all := by
  simp [all, unended, enter]

theorem mem_all_leave {use : Use} : use ∈ uses.leave.all ↔ use ∈ uses.all := by
  unfold leave
  split
  · exact Iff.rfl
  · rename_i haround
    simp only [all, unended, haround, List.cons_append, List.mem_cons, List.mem_append]
    grind

theorem mem_all_add {t : MatchedToken} {use : Use} (h : use ∈ (uses.add t).all) :
    use = ⟨uses.current.owner, uses.current.tokens ++ [t]⟩ ∨ use ∈ uses.all := by
  simp only [all, unended, add, List.cons_append, List.mem_cons] at h ⊢
  exact h.imp_right .inr

/-- A token that is added is in a use, and no other one is lost. -/
theorem exists_mem_all_add {t u : MatchedToken} (h : u = t ∨ ∃ use ∈ uses.all, u ∈ use.tokens) :
    ∃ use ∈ (uses.add t).all, u ∈ use.tokens := by
  have hcurrent {u : MatchedToken} (hu : u ∈ uses.current.tokens ++ [t]) :
      ∃ use ∈ (uses.add t).all, u ∈ use.tokens :=
    ⟨(uses.add t).current, List.mem_cons_self, hu⟩
  rcases h with rfl | ⟨use, huse, hu⟩
  · exact hcurrent (List.mem_append_right _ (List.mem_singleton_self u))
  · rcases List.mem_cons.1 huse with rfl | hother
    · exact hcurrent (List.mem_append_left _ hu)
    · exact ⟨use, List.mem_cons_of_mem _ hother, hu⟩

theorem forall_unended_zero {P : Use → Prop} :
    (∀ use, uses.unended[0]? = some use → P use) ↔ P uses.current := by
  simp [unended]

theorem current_mem_all : uses.current ∈ uses.all :=
  List.mem_cons_self

end Uses

/-- The uses in some events, the last event first. -/
def usesOf : List Event → Uses
  | [] => .start
  | .enter call _ _ :: rest =>
    if call.transitional then usesOf rest else (usesOf rest).enter call.rule
  | .leave call _ _ :: rest => if call.transitional then usesOf rest else (usesOf rest).leave
  | .token t :: rest => (usesOf rest).add t

/-- Every token that is matched belongs to a use. -/
theorem exists_use_of_token {trace : List Event} {t : MatchedToken} (h : .token t ∈ trace) :
    ∃ use ∈ (usesOf trace).all, t ∈ use.tokens := by
  induction trace with
  | nil => cases h
  | cons e trace ih =>
    cases e with
    | enter call depth left =>
      rcases ih (by simpa using h) with ⟨use, huse, ht⟩
      rw [usesOf]
      split
      · exact ⟨use, huse, ht⟩
      · exact ⟨use, Uses.mem_all_enter.2 (.inr huse), ht⟩
    | leave call depth left =>
      rcases ih (by simpa using h) with ⟨use, huse, ht⟩
      rw [usesOf]
      split
      · exact ⟨use, huse, ht⟩
      · exact ⟨use, Uses.mem_all_leave.2 huse, ht⟩
    | token u =>
      refine Uses.exists_mem_all_add ?_
      rcases List.mem_cons.1 h with hsame | hbefore
      · cases hsame
        exact .inl rfl
      · exact .inr (ih hbefore)

/-- The depths of events are the numbers of uses around the ones that they begin or end. -/
def Leveled : List Event → Prop
  | [] => True
  | .enter call depth _ :: rest =>
    (call.transitional = false → depth = (usesOf rest).around.length) ∧ Leveled rest
  | .leave call depth _ :: rest =>
    (call.transitional = false → ∃ n : Nat, depth = n ∧ (usesOf rest).around.length = n + 1) ∧
      Leveled rest
  | .token _ :: rest => Leveled rest

/-! ## The test of unification -/

section

variable {trace : List Event} {depth : Int} {index : Nat} {value : String}

/-- Outside of uses that have ended, the test looks at a token. -/
private theorem unifies_token_iff {t : MatchedToken} :
    unifies depth index value 0 (.token t :: trace) = true ↔
      unifies depth index value 0 trace = true ∧ (t.unification = some index → t.value = value) := by
  simp only [unifies, Int.le_refl, decide_true, Bool.true_and, Bool.and_eq_true, beq_iff_eq,
    bne_iff_ne]
  split <;> grind

/-- While `n` uses that have ended are to be skipped, the test looks at the tokens of the `n`th use around
the innermost one. -/
private theorem unifies_nested_iff (h : Leveled trace) {n : Nat} (hdepth : -1 ≤ depth)
    (hn : ((usesOf trace).around.length : Int) = depth + 1 + n) :
    unifies depth index value n trace = true ↔ ∀ use, (usesOf trace).unended[n]? = some use →
      ∀ t ∈ use.tokens, t.unification = some index → t.value = value := by
  induction trace generalizing n with
  | nil =>
    have hzero : n = 0 := by
      simp only [usesOf, Uses.start, List.length_nil] at hn
      omega
    simp [unifies, hzero, usesOf, Uses.start, Uses.unended]
  | cons e trace ih =>
    cases e with
    | enter call d left =>
      rcases h with ⟨hd, h⟩
      rcases htransitional : call.transitional with _ | _
      · have hd := hd htransitional
        simp only [usesOf, htransitional, Bool.false_eq_true, if_false] at hn ⊢
        simp only [Uses.enter, List.length_cons] at hn
        cases n with
        | zero =>
          have hle : d ≤ depth := by omega
          simp [unifies, htransitional, hle, Uses.enter, Uses.unended]
        | succ n =>
          have hnot : ¬d ≤ depth := by omega
          have hless : ((n + 1 : Nat) : Int) - 1 = n := by omega
          simp only [unifies, htransitional, Bool.false_eq_true, if_false, hnot, hless]
          exact ih h (by omega)
      · simp only [usesOf, unifies, htransitional, if_true] at hn ⊢
        exact ih h hn
    | leave call d left =>
      rcases h with ⟨hd, h⟩
      rcases htransitional : call.transitional with _ | _
      · rcases hd htransitional with ⟨k, rfl, hlength⟩
        rcases Uses.leave_eq hlength with ⟨outer, rest, haround, hrest, hleave⟩
        simp only [usesOf, htransitional, Bool.false_eq_true, if_false, hleave] at hn ⊢
        have hdeeper : depth < k := by omega
        have hmore : (n : Int) + 1 = (n + 1 : Nat) := by omega
        simp only [unifies, htransitional, Bool.not_false, Bool.true_and, decide_eq_true_eq, hdeeper,
          if_true, hmore]
        rw [ih h (by omega), Uses.unended, haround]
        rfl
      · simp only [usesOf, unifies, htransitional, if_true, Bool.not_true, Bool.false_and,
          Bool.false_eq_true, if_false] at hn ⊢
        exact ih h hn
    | token t =>
      have ih := ih h hn
      cases n with
      | zero =>
        rw [Uses.forall_unended_zero] at ih ⊢
        refine unifies_token_iff.trans ((and_congr_left fun _ => ih).trans ?_)
        show _ ↔ ∀ u ∈ (usesOf trace).current.tokens ++ [t], _
        rw [List.forall_mem_append, List.forall_mem_singleton]
      | succ n =>
        have hnot : ¬((n + 1 : Nat) : Int) ≤ 0 := by omega
        simp only [unifies, hnot, decide_false, Bool.false_and, Bool.false_eq_true, if_false]
        exact ih

/-- The test looks at the tokens of the innermost use that has not ended. -/
theorem unifies_iff (h : Leveled trace)
    (hdepth : ((usesOf trace).around.length : Int) = depth + 1) :
    unifies depth index value 0 trace = true ↔
      ∀ t ∈ (usesOf trace).current.tokens, t.unification = some index → t.value = value := by
  have hnested : unifies depth index value (0 : Nat) trace = true ↔ _ :=
    unifies_nested_iff h (by omega) (by omega)
  rw [Uses.forall_unended_zero] at hnested
  exact hnested

end

/-! ## What belongs to a use -/

namespace Machine

variable {m : Machine} {items : List (Except LexError Token)} {root key : RuleKey} {r : Rule}
  {owners : List (Option RuleKey)} {todo left : Todo} {trace : List Event} {depth : Int} {data : Nat}
  {c c' : Config} {ds : List Bool}

/-- The body of a use's rule mentions a rule: as one of its parts at some depth, or as one that it calls.
A use of no rule calls the rule that a search starts from. -/
inductive Mentions (m : Machine) (root : RuleKey) : Option RuleKey → RuleKey → Prop
  | root : Mentions m root none root
  | body {owner child : RuleKey} {r : Rule} (howner : m.isTransitional owner = false)
      (hr : m.rules.get? owner = some r) (hchild : child ∈ r.children) :
      Mentions m root (some owner) child
  | part {owner : Option RuleKey} {key child : RuleKey} {r : Rule} (h : Mentions m root owner key)
      (hkey : m.isTransitional key = true) (hr : m.rules.get? key = some r)
      (hchild : child ∈ r.children) : Mentions m root owner child

/-- The innermost of some uses, given by their rules, mentions a rule. -/
def Calls (m : Machine) (root : RuleKey) (owners : List (Option RuleKey)) (key : RuleKey) : Prop :=
  ∃ owner ∈ owners.head?, m.Mentions root owner key

/-- The rules of the uses that are open inside the use of a rule. -/
def ownersInside (m : Machine) (key : RuleKey) (owners : List (Option RuleKey)) :
    List (Option RuleKey) :=
  if m.isTransitional key then owners else some key :: owners

theorem Calls.child {child : RuleKey} (h : m.Calls root owners key)
    (hr : m.rules.get? key = some r) (hchild : child ∈ r.children) :
    m.Calls root (m.ownersInside key owners) child := by
  rcases h with ⟨owner, howner, hmentions⟩
  unfold ownersInside
  rcases hkey : m.isTransitional key with _ | _
  · exact ⟨some key, rfl, .body hkey hr hchild⟩
  · exact ⟨owner, howner, hmentions.part hkey hr hchild⟩

/-- The steps to do are those of uses inside one another, of which those of some rules are open. -/
inductive Nested (m : Machine) (root : RuleKey) : Todo → List (Option RuleKey) → Prop
  | empty : Nested m root .empty [none]
  | leave {todo : Todo} {owners : List (Option RuleKey)} {key : RuleKey} {data : Nat}
      (hkey : m.Calls root owners key) (h : Nested m root todo owners) :
      Nested m root (todo.push (.leave (m.use key data) false)) (m.ownersInside key owners)
  | decision {todo : Todo} {owners : List (Option RuleKey)} {key : RuleKey} {made : Nat}
      (hrepetition : m.isRepetition key = true) (hkey : m.Calls root owners key)
      (h : Nested m root todo owners) :
      Nested m root (todo.push (.leave (m.use key made) true)) (m.ownersInside key owners)
  | enter {todo : Todo} {owners : List (Option RuleKey)} {key : RuleKey} {index : Nat}
      (hindex : index = 0 ∨ m.isChoice key = true) (hkey : m.Calls root owners key)
      (h : Nested m root todo owners) :
      Nested m root ((todo.push (.leave (m.use key 0) false)).push (.enter (m.use key index))) owners
  | again {todo : Todo} {owners : List (Option RuleKey)} {key : RuleKey} {made : Nat}
      (hrepetition : m.isRepetition key = true) (hkey : m.Calls root owners key)
      (h : Nested m root todo owners) :
      Nested m root (todo.push (.enter (m.use key (made + 1)))) (m.ownersInside key owners)

namespace Nested

theorem ne_nil (h : m.Nested root todo owners) : owners ≠ [] := by
  have hinside {key : RuleKey} {owners : List (Option RuleKey)} (ih : owners ≠ []) :
      m.ownersInside key owners ≠ [] := by
    unfold ownersInside
    split
    · exact ih
    · exact List.cons_ne_nil _ _
  induction h with
  | empty => exact List.cons_ne_nil _ _
  | leave _ _ ih => exact hinside ih
  | decision _ _ _ ih => exact hinside ih
  | enter _ _ _ ih => exact ih
  | again _ _ _ ih => exact hinside ih

theorem planned (h : m.Nested root todo owners) (hkey : m.Calls root owners key) :
    m.Nested root (m.planned todo key) owners :=
  .enter (.inl rfl) hkey h

theorem plannedAll {keys : List RuleKey} (h : m.Nested root todo owners)
    (hkeys : ∀ key ∈ keys, m.Calls root owners key) :
    m.Nested root (m.plannedAll todo keys) owners := by
  induction keys with
  | nil => exact h
  | cons key keys ih =>
    rw [plannedAll_cons]
    exact (ih fun k hk => hkeys k (List.mem_cons_of_mem _ hk)).planned (hkeys key List.mem_cons_self)

theorem passesLeft {child : RuleKey} {made : Nat} (h : m.Nested root todo owners)
    (hrepetition : m.isRepetition key = true) (hkey : m.Calls root owners key)
    (hchild : m.Calls root (m.ownersInside key owners) child) :
    m.Nested root (m.passesLeft key child todo made) (m.ownersInside key owners) :=
  (h.decision hrepetition hkey).plannedAll fun _ hk => (List.eq_of_mem_replicate hk).symm ▸ hchild

/-- What is entered next is called in the innermost open use, unless it is one more pass of a
repetition. -/
theorem calls {call : Call} {rest : Todo} (h : m.Nested root todo owners)
    (hnext : todo.pop? = some (.enter call, rest)) (hcall : m.isRepetition call.rule = false) :
    m.Calls root owners call.rule := by
  cases h with
  | empty | leave | decision => cases hnext
  | enter hindex hkey =>
    cases hnext
    exact hkey
  | again hrepetition =>
    cases hnext
    exact nomatch hrepetition.symm.trans hcall

end Nested

/-- A token belongs to a use of a rule, or of none: the body of that rule mentions the one that matches
the token. -/
structure Belongs (m : Machine) (root : RuleKey) (owner : Option RuleKey) (t : MatchedToken) :
    Prop where
  mentions : m.Mentions root owner t.rule
  body_eq : ∃ r, m.rules.get? t.rule = some r ∧ r.body = .token t.kind t.unification t.kept

/-- The events of a search at a depth say which tokens belong to which use, and those of one use agree. -/
structure Tallied (m : Machine) (root : RuleKey) (trace : List Event) (depth : Int) : Prop where
  leveled : Leveled trace
  depth_eq : ((usesOf trace).around.length : Int) = depth + 1
  belongs : ∀ use ∈ (usesOf trace).all, ∀ t ∈ use.tokens, m.Belongs root use.owner t
  consistent : ∀ use ∈ (usesOf trace).all, Consistent use.tokens

/-- The events and the steps to do are those of uses inside one another. -/
structure Scoped (m : Machine) (root : RuleKey) (c : Config) : Prop where
  tallied : m.Tallied root c.trace c.depth
  nested : m.Nested root c.todo (usesOf c.trace).owners

/-! ## Events -/

theorem owners_usesOf_enter :
    (usesOf (.enter (m.use key data) depth left :: trace)).owners =
      m.ownersInside key (usesOf trace).owners := by
  rw [usesOf, ownersInside]
  show (if m.isTransitional key then _ else _ : Uses).owners = _
  split <;> rfl

theorem Tallied.enter (h : m.Tallied root trace depth) :
    m.Tallied root (.enter (m.use key data) (m.depthInside key depth) left :: trace)
      (m.depthInside key depth) := by
  have hdepth := h.depth_eq
  unfold depthInside use
  rcases hkey : m.isTransitional key with _ | _
  · simp only [Bool.false_eq_true, if_false]
    refine ⟨⟨fun _ => hdepth.symm, h.leveled⟩, ?_, fun use huse => ?_, fun use huse => ?_⟩
    · simp only [usesOf, Bool.false_eq_true, if_false, Uses.enter, List.length_cons]
      omega
    · rcases Uses.mem_all_enter.1 huse with rfl | hold
      · exact fun t ht => absurd ht List.not_mem_nil
      · exact h.belongs use hold
    · rcases Uses.mem_all_enter.1 huse with rfl | hold
      · exact List.Pairwise.nil
      · exact h.consistent use hold
  · simp only [if_true]
    exact ⟨⟨fun hnot => absurd hnot (by simp), h.leveled⟩, hdepth, h.belongs, h.consistent⟩

/-- The end of a use leads back to the use around it. -/
theorem Tallied.leave (h : m.Tallied root trace depth)
    (howners : (usesOf trace).owners = m.ownersInside key owners) (hne : owners ≠ []) :
    m.Tallied root (.leave (m.use key data) depth left :: trace)
        ((m.use key data).depthOutside depth) ∧
      (usesOf (.leave (m.use key data) depth left :: trace)).owners = owners := by
  have hdepth := h.depth_eq
  unfold ownersInside at howners
  unfold Call.depthOutside use
  rcases hkey : m.isTransitional key with _ | _
  · rw [hkey] at howners
    simp only [Bool.false_eq_true, if_false] at howners ⊢
    have haround : (usesOf trace).around.map Use.owner = owners := (List.cons.inj howners).2
    obtain ⟨n, hlength⟩ : ∃ n, (usesOf trace).around.length = n + 1 := by
      refine Nat.exists_eq_add_one.2 (List.length_pos_iff.2 fun hnil => hne ?_)
      rw [← haround, hnil, List.map_nil]
    rcases Uses.leave_eq hlength with ⟨outer, rest, hsplit, hrest, hleave⟩
    refine ⟨⟨⟨fun _ => ⟨n, by omega, hlength⟩, h.leveled⟩, ?_, fun use huse => ?_,
      fun use huse => ?_⟩, ?_⟩
    · simp only [usesOf, Bool.false_eq_true, if_false, hleave]
      omega
    · exact h.belongs use (Uses.mem_all_leave.1 huse)
    · exact h.consistent use (Uses.mem_all_leave.1 huse)
    · simp only [usesOf, Bool.false_eq_true, if_false, hleave, Uses.owners, Uses.unended]
      rw [← haround, hsplit]
  · rw [hkey] at howners
    simp only [if_true] at howners ⊢
    exact ⟨⟨⟨fun hnot => absurd hnot (by simp), h.leveled⟩, hdepth, h.belongs, h.consistent⟩, howners⟩

section

variable {kind : String} {unification : Option Nat} {kept : Bool}

/-- A token passes the test if it agrees with the tokens of the innermost open use. -/
theorem Tallied.accepts_iff (h : m.Tallied root trace depth) (hr : m.rules.get? key = some r)
    (hbody : r.body = .token kind unification kept) (t : Token) :
    accepts kind unification depth trace t = true ↔
      t.kind = kind ∧ ∀ u ∈ (usesOf trace).current.tokens, u.Agrees (m.matched key t) := by
  rw [matched_eq hr hbody]
  simp only [accepts, Bool.and_eq_true, beq_iff_eq, Option.all_eq_true]
  refine and_congr_right fun _ => ⟨fun htest u hu index hindex hsame => ?_, fun hagree index hsame => ?_⟩
  · exact (unifies_iff h.leveled h.depth_eq).1 (htest index hsame) u hu hindex
  · exact (unifies_iff h.leveled h.depth_eq).2 fun u hu hindex => hagree u hu index hindex hsame

/-- A token that passes the test belongs to the innermost open use. -/
theorem Tallied.token {t : Token} (h : m.Tallied root trace depth)
    (hkey : m.Calls root (usesOf trace).owners key) (hr : m.rules.get? key = some r)
    (hbody : r.body = .token kind unification kept)
    (haccepts : accepts kind unification depth trace t = true) :
    m.Tallied root (.token (m.matched key t) :: trace) depth := by
  rcases (h.accepts_iff hr hbody t).1 haccepts with ⟨hkind, hagree⟩
  have hmatched := matched_eq hr hbody t
  refine ⟨h.leveled, h.depth_eq, fun use huse => ?_, fun use huse => ?_⟩
  · rcases Uses.mem_all_add huse with rfl | hold
    · intro u hu
      rcases List.mem_append.1 hu with hu | hu
      · exact h.belongs _ Uses.current_mem_all u hu
      · rcases hkey with ⟨owner, howner, hmentions⟩
        rw [List.mem_singleton.1 hu, hmatched]
        rw [← Option.some.inj howner] at hmentions
        exact ⟨hmentions, r, hr, hkind ▸ hbody⟩
    · exact h.belongs use hold
  · rcases Uses.mem_all_add huse with rfl | hold
    · refine List.pairwise_append.2 ⟨h.consistent _ Uses.current_mem_all, List.pairwise_singleton _ _,
        fun u hu v hv => ?_⟩
      rw [List.mem_singleton.1 hv]
      exact hagree u hu
    · exact h.consistent use hold

end

/-! ## Moves -/

private theorem scoped_of_enter {index : Nat} (hindex : index = 0 ∨ m.isChoice key = true)
    (hkey : m.Calls root (usesOf trace).owners key) (htallied : m.Tallied root trace depth)
    (htodo : m.Nested root todo (usesOf trace).owners)
    (h : (ds, c) ∈ m.moves items
      ⟨(todo.push (.leave (m.use key 0) false)).push (.enter (m.use key index)), depth, trace⟩) :
    m.Scoped root c := by
  cases entered_of_mem_moves h with
  | token hr hbody _ haccepts => exact ⟨htallied.token hkey hr hbody haccepts, htodo⟩
  | concatenation hr hbody =>
    refine ⟨htallied.enter, ?_⟩
    rw [owners_usesOf_enter]
    exact (htodo.leave hkey).plannedAll fun k hk => hkey.child hr (by rwa [Rule.children, hbody])
  | take hr hbody hchild =>
    refine ⟨htallied.enter, ?_⟩
    rw [owners_usesOf_enter]
    have hmem := List.mem_of_getElem? hchild
    exact (htodo.leave hkey).planned (hkey.child hr (by rwa [Rule.children, hbody]))
  | skip hr hbody =>
    have hchoice := isChoice_of_body hr
    rw [hbody] at hchoice
    exact ⟨htallied, htodo.enter (.inr hchoice) hkey⟩
  | begin hr hbody =>
    have hrepetition := isRepetition_of_body hr
    rw [hbody] at hrepetition
    refine ⟨htallied.enter, ?_⟩
    rw [owners_usesOf_enter]
    refine htodo.passesLeft hrepetition hkey (hkey.child hr ?_)
    rw [Rule.children, hbody]
    exact List.mem_singleton_self _
  | again hr hbody hdata =>
    have hkind := (isChoice_of_body hr).symm.trans (hindex.resolve_left hdata)
    rw [hbody] at hkind
    cases hkind

private theorem scoped_of_again {made : Nat} (hrepetition : m.isRepetition key = true)
    (hkey : m.Calls root owners key) (htallied : m.Tallied root trace depth)
    (htodo : m.Nested root todo owners)
    (howners : (usesOf trace).owners = m.ownersInside key owners)
    (h : (ds, c) ∈ m.moves items ⟨todo.push (.enter (m.use key (made + 1))), depth, trace⟩) :
    m.Scoped root c := by
  cases entered_of_mem_moves h with
  | again hr hbody =>
    refine ⟨htallied, ?_⟩
    rw [howners]
    refine (htodo.decision hrepetition hkey).planned (hkey.child hr ?_)
    rw [Rule.children, hbody]
    exact List.mem_singleton_self _
  | begin _ _ hdata => cases hdata
  | token hr hbody | concatenation hr hbody | take hr hbody | skip hr hbody =>
    have hkind := (isRepetition_of_body hr).symm.trans hrepetition
    rw [hbody] at hkind
    cases hkind

/-- A move keeps the tokens of uses apart. -/
theorem scoped_of_move (hc : m.Scoped root c) (h : (ds, c') ∈ m.moves items c) : m.Scoped root c' := by
  rcases c with ⟨todo, depth, trace⟩
  rcases hc with ⟨htallied, hnested⟩
  dsimp only at htallied hnested
  generalize howners : (usesOf trace).owners = owners at hnested
  cases hnested with
  | empty => cases h
  | leave hkey htodo =>
    rw [moves_leave, List.mem_singleton] at h
    cases h
    rcases htallied.leave howners htodo.ne_nil with ⟨hafter, hsame⟩
    exact ⟨hafter, hsame ▸ htodo⟩
  | decision hrepetition hkey htodo =>
    rw [moves_decision, List.mem_cons, List.mem_singleton] at h
    rcases h with hstop | hgoOn
    · cases hstop
      rcases htallied.leave howners htodo.ne_nil with ⟨hafter, hsame⟩
      exact ⟨hafter, hsame ▸ htodo⟩
    · cases hgoOn
      exact ⟨htallied, howners ▸ htodo.again hrepetition hkey⟩
  | enter hindex hkey htodo =>
    rw [← howners] at hkey htodo
    exact scoped_of_enter hindex hkey htallied htodo h
  | again hrepetition hkey htodo =>
    exact scoped_of_again hrepetition hkey htallied htodo howners h

theorem scoped_outset (m : Machine) (root : RuleKey) : m.Scoped root (m.outset root) := by
  have hnothing : ∀ use ∈ Uses.start.all, use.tokens = [] := by
    intro use huse
    rw [List.mem_singleton.1 huse]
    rfl
  refine ⟨⟨trivial, rfl, fun use huse => ?_, fun use huse => ?_⟩, ?_⟩
  · rw [hnothing use huse]
    exact fun t ht => absurd ht List.not_mem_nil
  · rw [hnothing use huse]
    exact List.Pairwise.nil
  · exact Nested.empty.planned ⟨none, rfl, .root⟩

/-- The tokens of uses are apart in all that a search visits. -/
theorem scoped_of_comes (h : m.Comes items (m.outset root) c) : m.Scoped root c := by
  rcases h with ⟨n, ds, hpath⟩
  have hsteps {n : Nat} {ds : List Bool} {c c' : Config} (hpath : m.Path items n c ds c')
      (hc : m.Scoped root c) : m.Scoped root c' := by
    induction hpath with
    | refl => exact hc
    | step hmove _ ih => exact ih (scoped_of_move hc hmove)
  exact hsteps hpath (scoped_outset m root)

end Machine

end Descent
