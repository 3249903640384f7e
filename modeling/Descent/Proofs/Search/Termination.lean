import Mathlib.Data.Set.Finite.List
import Descent.Proofs.Search.FirstDerivation

/-!
# Searches that end

A search goes on for ever only if it can plan more and more without matching a token.  Where no rule
leads back to itself before a match, and no repetition without end passes over nothing, there are
only finitely many moves one after the other, and so every search ends.

Main results:

- `Machine.Leads` says that a search comes from one rule to another without a match in between.
- `Machine.Onward` says what a move makes of the steps to do, and `Machine.safe` that there is no
  endless run of moves.
- `Machine.search_halts`: every search ends, from any rule, over any text and in any window.
- `Machine.search_unique`: it does so in one way.
-/

namespace Descent

namespace Machine

/-- What a rule matches, if there is such a rule. -/
def body? (m : Machine) (key : RuleKey) : Option RuleBody :=
  (m.rules.get? key).map Rule.body

/-- Some derivation of a rule matches no token at all. -/
def Nullable (m : Machine) (key : RuleKey) : Prop :=
  ∃ d, m.Fits d ∧ d.rule = key ∧ d.yield = []

/-- A search comes from the beginning of a rule to that of another one without a match in
between. -/
inductive Leads (m : Machine) : RuleKey → RuleKey → Prop
  | part {key child : RuleKey} {before after : List RuleKey}
      (hbody : m.body? key = some (.concatenation (before ++ child :: after)))
      (hbefore : ∀ k ∈ before, m.Nullable k) : Leads m key child
  | alternative {key child : RuleKey} {children : List RuleKey}
      (hbody : m.body? key = some (.choice children)) (hchild : child ∈ children) :
      Leads m key child
  | pass {key child : RuleKey} {bounds : Bounds}
      (hbody : m.body? key = some (.repetition bounds child)) : Leads m key child

/-- No repetition without end passes over nothing. -/
def Bounded (m : Machine) : Prop :=
  ∀ {key child : RuleKey} {bounds : Bounds}, m.body? key = some (.repetition bounds child) →
    m.Nullable child → bounds.isUnbounded = false

variable {m : Machine} {key child : RuleKey}

private theorem exists_of_body? {body : RuleBody} (h : m.body? key = some body) :
    ∃ r, m.rules.get? key = some r ∧ r.body = body :=
  Option.map_eq_some_iff.1 h

/-! ## Rules that match nothing -/

theorem not_nullable_token {kind : String} {unification : Option Nat} {kept : Bool}
    (hbody : m.body? key = some (.token kind unification kept)) : ¬m.Nullable key := by
  rintro ⟨d, hd, rfl, hyield⟩
  rcases exists_of_body? hbody with ⟨r, hr, hbody⟩
  rcases hd.eq_token hr hbody with ⟨t, ht, -⟩
  rw [ht] at hyield
  cases hyield

theorem nullable_concatenation {children : List RuleKey} 
    (hbody : m.body? key = some (.concatenation children)) (h : ∀ k ∈ children, m.Nullable k) :
    m.Nullable key := by
  have hparts : ∃ parts : List Derivation, parts.map Derivation.rule = children ∧
      (∀ d ∈ parts, m.Fits d) ∧ Derivation.yieldAll parts = [] := by
    clear hbody
    induction children with
    | nil => exact ⟨[], rfl, by simp, rfl⟩
    | cons k children ih =>
      rcases h k List.mem_cons_self with ⟨d, hd, rfl, hyield⟩
      rcases ih fun k hk => h k (List.mem_cons_of_mem _ hk) with ⟨parts, rfl, hparts, hall⟩
      refine ⟨d :: parts, rfl, ?_, ?_⟩
      · intro e he
        rcases List.mem_cons.1 he with rfl | he
        · exact hd
        · exact hparts e he
      · rw [Derivation.yieldAll, hyield, hall, List.append_nil]
  rcases hparts with ⟨parts, hrules, hfits, hyield⟩
  rcases exists_of_body? hbody with ⟨r, hr, hbody⟩
  exact ⟨.concatenation key parts, .concatenation hr hbody hrules hfits, rfl, hyield⟩

theorem nullable_choice {children : List RuleKey} (hbody : m.body? key = some (.choice children))
    (hchild : child ∈ children) (h : m.Nullable child) :
    m.Nullable key := by
  rcases h with ⟨d, hd, rfl, hyield⟩
  rcases exists_of_body? hbody with ⟨r, hr, hbody⟩
  rcases List.mem_iff_getElem?.1 hchild with ⟨index, hindex⟩
  exact ⟨.choice key index d, .choice hr hbody hindex hd, rfl, hyield⟩

theorem nullable_repetition {bounds : Bounds} 
    (hbody : m.body? key = some (.repetition bounds child)) (h : bounds.min ≠ 0 → m.Nullable child) :
    m.Nullable key := by
  have hparts : ∃ parts : List Derivation, parts.length = bounds.min ∧
      (∀ d ∈ parts, d.rule = child ∧ m.Fits d) ∧ Derivation.yieldAll parts = [] := by
    by_cases hzero : bounds.min = 0
    · exact ⟨[], hzero.symm, by simp, rfl⟩
    · rcases h hzero with ⟨d, hd, hrule, hyield⟩
      have hnone : ∀ n, Derivation.yieldAll (List.replicate n d) = [] := by
        intro n
        induction n with
        | zero => rfl
        | succ n ih => rw [List.replicate_succ, Derivation.yieldAll, hyield, ih, List.append_nil]
      refine ⟨List.replicate bounds.min d, List.length_replicate, ?_, hnone _⟩
      intro e he
      rw [List.eq_of_mem_replicate he]
      exact ⟨hrule, hd⟩
  rcases hparts with ⟨parts, hlength, hparts, hyield⟩
  rcases exists_of_body? hbody with ⟨r, hr, hbody⟩
  refine ⟨.repetition key parts, .repetition hr hbody (fun d hd => (hparts d hd).1) ?_ ?_
    (fun d hd => (hparts d hd).2), rfl, hyield⟩
  · exact Nat.le_of_eq hlength.symm
  · rw [hlength]
    exact bounds.admits_min
/-! ## Rules that do not lead back -/

theorem Leads.mem_keys (h : m.Leads key child) : key ∈ m.rules.keys := by
  have hmem {body : RuleBody} (hbody : m.body? key = some body) : key ∈ m.rules.keys := by
    rcases exists_of_body? hbody with ⟨r, hr, -⟩
    exact List.mem_map_of_mem (OrderedMap.mem_entries_of_get? hr)
  cases h with
  | part hbody => exact hmem hbody
  | alternative hbody => exact hmem hbody
  | pass hbody => exact hmem hbody

/-- Where no rule leads back to itself, no rule leads on for ever: there are finitely many. -/
theorem acc_leads (hacyclic : ∀ key, ¬Relation.TransGen m.Leads key key) (key : RuleKey) :
    Acc (fun child key => m.Leads key child) key := by
  let after (a b : {k // k ∈ m.rules.keys}) : Prop := Relation.TransGen m.Leads b.1 a.1
  have : IsTrans _ after := ⟨fun _ _ _ hab hbc => hbc.trans hab⟩
  have : Std.Irrefl after := ⟨fun a => hacyclic a.1⟩
  have : Finite {k // k ∈ m.rules.keys} := List.finite_toSet m.rules.keys
  have hwf : WellFounded after := Finite.wellFounded_of_trans_of_irrefl after
  have hknown : ∀ k : {k // k ∈ m.rules.keys}, Acc (fun child key => m.Leads key child) k.1 := by
    intro k
    induction k using hwf.induction with
    | h k ih =>
      refine .intro _ fun child hchild => ?_
      by_cases hmem : child ∈ m.rules.keys
      · exact ih ⟨child, hmem⟩ (.single hchild)
      · exact .intro _ fun next hnext => absurd hnext.mem_keys hmem
  by_cases hmem : key ∈ m.rules.keys
  · exact hknown ⟨key, hmem⟩
  · exact .intro _ fun next hnext => absurd hnext.mem_keys hmem

/-! ## What there is to do after a move -/

/-- What a move makes of the steps to do and of the number of tokens matched, of `total` tokens. -/
inductive Onward (m : Machine) (total : Nat) : Todo × Nat → Todo × Nat → Prop
  | leave {todo rest : Todo} {n : Nat} {call : Call} {decision : Bool}
      (hpop : todo.pop? = some (.leave call decision, rest)) : Onward m total (todo, n) (rest, n)
  | again {todo rest : Todo} {n : Nat} {call : Call}
      (hpop : todo.pop? = some (.leave call true, rest)) :
      Onward m total (todo, n) (rest.push (.enter { call with data := call.data + 1 }), n)
  | token {todo rest : Todo} {n : Nat} {call : Call} {kind : String} {unification : Option Nat}
      {kept : Bool} (hpop : todo.pop? = some (.enter call, rest))
      (hbody : m.body? call.rule = some (.token kind unification kept)) (hn : n < total) :
      Onward m total (todo, n) (rest.drop, n + 1)
  | concatenation {todo rest : Todo} {n : Nat} {call : Call} {children : List RuleKey}
      (hpop : todo.pop? = some (.enter call, rest))
      (hbody : m.body? call.rule = some (.concatenation children)) :
      Onward m total (todo, n) (m.plannedAll rest children, n)
  | take {todo rest : Todo} {n : Nat} {call : Call} {children : List RuleKey} {child : RuleKey}
      (hpop : todo.pop? = some (.enter call, rest))
      (hbody : m.body? call.rule = some (.choice children))
      (hchild : children[call.data]? = some child) :
      Onward m total (todo, n) (m.planned rest child, n)
  | skip {todo rest : Todo} {n : Nat} {call : Call} {children : List RuleKey} {child : RuleKey}
      (hpop : todo.pop? = some (.enter call, rest))
      (hbody : m.body? call.rule = some (.choice children))
      (hchild : children[call.data]? = some child) :
      Onward m total (todo, n) (rest.push (.enter { call with data := call.data + 1 }), n)
  | begin {todo rest : Todo} {n : Nat} {call : Call} {bounds : Bounds} {child : RuleKey}
      (hpop : todo.pop? = some (.enter call, rest))
      (hbody : m.body? call.rule = some (.repetition bounds child)) (hdata : call.data = 0) :
      Onward m total (todo, n) (m.passesLeft call.rule child rest.drop 0, n)
  | pass {todo rest : Todo} {n : Nat} {call : Call} {bounds : Bounds} {child : RuleKey}
      (hpop : todo.pop? = some (.enter call, rest))
      (hbody : m.body? call.rule = some (.repetition bounds child)) (hdata : call.data ≠ 0)
      (hadmits : bounds.admits call.data = true) :
      Onward m total (todo, n)
        (m.planned (rest.push (.leave (m.use call.rule call.data) true)) child, n)

variable {items : List (Except LexError Token)}

private theorem body?_eq_some {r : Rule} {body : RuleBody} (hr : m.rules.get? key = some r)
    (hbody : r.body = body) : m.body? key = some body := by
  rw [body?, hr, Option.map_some, hbody]

private theorem onward_of_enter {c' : Config} {ds : List Bool} {call : Call} {rest : Todo}
    {depth : Int} {trace : List Event}
    (h : (ds, c') ∈ m.moves items ⟨rest.push (.enter call), depth, trace⟩) :
    m.Onward items.length (rest.push (.enter call), matchedCount trace)
      (c'.todo, matchedCount c'.trace) := by
  have hpop := rest.pop?_push (.enter call)
  cases entered_of_mem_moves h with
  | token hr hbody hitem =>
    have hn : matchedCount trace < items.length := (List.getElem?_eq_some_iff.1 hitem).1
    simpa using Onward.token hpop (body?_eq_some hr hbody) hn
  | concatenation hr hbody => simpa using Onward.concatenation hpop (body?_eq_some hr hbody)
  | take hr hbody hchild => simpa using Onward.take hpop (body?_eq_some hr hbody) hchild
  | skip hr hbody hchild => exact .skip hpop (body?_eq_some hr hbody) hchild
  | begin hr hbody hdata => simpa using Onward.begin hpop (body?_eq_some hr hbody) hdata
  | again hr hbody hdata hadmits => exact .pass hpop (body?_eq_some hr hbody) hdata hadmits

theorem onward_of_mem_moves {c c' : Config} {ds : List Bool} (h : (ds, c') ∈ m.moves items c) :
    m.Onward items.length (c.todo, matchedCount c.trace) (c'.todo, matchedCount c'.trace) := by
  rcases c with ⟨todo, depth, trace⟩
  dsimp only
  rcases hpop : todo.pop? with _ | ⟨call | ⟨call, _ | _⟩, rest⟩
  · simp only [moves, hpop] at h
    cases h
  · obtain rfl := Stack.eq_push_of_pop? hpop
    exact onward_of_enter h
  · simp only [moves, hpop, List.mem_singleton] at h
    cases h
    simpa using Onward.leave hpop
  · simp only [moves, hpop, List.mem_cons, List.not_mem_nil, or_false] at h
    rcases h with hstop | hgoOn
    · cases hstop
      simpa using Onward.leave hpop
    · cases hgoOn
      exact .again hpop

/-! ## Moves that come to an end -/

/-- From some steps to do after `n` tokens there is no endless run of moves. -/
def Safe (m : Machine) (total n : Nat) (todo : Todo) : Prop :=
  Acc (fun after before => m.Onward total before after) (todo, n)

/-- A use of a rule is safe wherever what comes after it is, should the rule match nothing. -/
def SafeRule (m : Machine) (total n : Nat) (key : RuleKey) : Prop :=
  ∀ todo, (m.Nullable key → m.Safe total n todo) → m.Safe total n (m.planned todo key)

section

variable {total n : Nat} {todo : Todo}

theorem safe_empty : m.Safe total n .empty := by
  refine .intro _ fun c h => ?_
  cases h <;> contradiction

theorem Safe.leave (h : m.Safe total n todo) (call : Call) :
    m.Safe total n (todo.push (.leave call false)) := by
  refine .intro _ fun c hc => ?_
  cases hc with
  | leave hpop =>
    cases hpop
    exact h
  | again hpop => cases hpop
  | token hpop | concatenation hpop | take hpop | skip hpop | begin hpop | pass hpop => cases hpop

theorem Safe.decision (h : m.Safe total n todo) {call : Call}
    (hagain : m.Safe total n (todo.push (.enter { call with data := call.data + 1 }))) :
    m.Safe total n (todo.push (.leave call true)) := by
  refine .intro _ fun c hc => ?_
  cases hc with
  | leave hpop =>
    cases hpop
    exact h
  | again hpop =>
    cases hpop
    exact hagain
  | token hpop | concatenation hpop | take hpop | skip hpop | begin hpop | pass hpop => cases hpop

/-- Of several rules one after the other only those count before which the others match nothing. -/
theorem safe_plannedAll {keys : List RuleKey}
    (hkeys : ∀ before k after, keys = before ++ k :: after → (∀ b ∈ before, m.Nullable b) →
      m.SafeRule total n k)
    (htodo : (∀ k ∈ keys, m.Nullable k) → m.Safe total n todo) :
    m.Safe total n (m.plannedAll todo keys) := by
  induction keys with
  | nil => exact htodo fun k hk => absurd hk List.not_mem_nil
  | cons k keys ih =>
    refine hkeys [] k keys rfl (fun b hb => absurd hb List.not_mem_nil) _ fun hnull => ?_
    refine ih ?_ ?_
    · intro before k' after hsplit hbefore
      refine hkeys (k :: before) k' after (by rw [hsplit, List.cons_append]) ?_
      intro b hb
      rcases List.mem_cons.1 hb with rfl | hb
      · exact hnull
      · exact hbefore b hb
    · intro hall
      refine htodo fun b hb => ?_
      rcases List.mem_cons.1 hb with rfl | hb
      · exact hnull
      · exact hall b hb

section

variable {call : Call}

theorem safe_enter_token {kind : String} {unification : Option Nat} {kept : Bool}
    (hbody : m.body? call.rule = some (.token kind unification kept))
    (hlater : n < total → m.Safe total (n + 1) todo.drop) :
    m.Safe total n (todo.push (.enter call)) := by
  refine .intro _ fun c hc => ?_
  cases hc with
  | token hpop hbody' hn =>
    cases hpop
    exact hlater hn
  | leave hpop | again hpop => cases hpop
  | concatenation hpop hbody' | take hpop hbody' | skip hpop hbody' | begin hpop hbody'
  | pass hpop hbody' =>
    cases hpop
    cases hbody.symm.trans hbody'

theorem safe_enter_concatenation {children : List RuleKey}
    (hbody : m.body? call.rule = some (.concatenation children))
    (hinside : m.Safe total n (m.plannedAll todo children)) :
    m.Safe total n (todo.push (.enter call)) := by
  refine .intro _ fun c hc => ?_
  cases hc with
  | concatenation hpop hbody' =>
    cases hpop
    cases hbody.symm.trans hbody'
    exact hinside
  | leave hpop | again hpop => cases hpop
  | token hpop hbody' | take hpop hbody' | skip hpop hbody' | begin hpop hbody'
  | pass hpop hbody' =>
    cases hpop
    cases hbody.symm.trans hbody'

/-- Whatever alternatives of a choice were passed over, only so many are left. -/
theorem safe_enter_choice {children : List RuleKey}
    (hbody : m.body? call.rule = some (.choice children))
    (hinside : ∀ k ∈ children, m.Safe total n (m.planned todo k)) :
    m.Safe total n (todo.push (.enter call)) := by
  induction hleft : children.length - call.data using Nat.strongRecOn generalizing call with
  | ind left ih =>
    refine .intro _ fun c hc => ?_
    cases hc with
    | take hpop hbody' hchild =>
      cases hpop
      cases hbody.symm.trans hbody'
      exact hinside _ (List.mem_of_getElem? hchild)
    | skip hpop hbody' hchild =>
      cases hpop
      cases hbody.symm.trans hbody'
      have hlt := (List.getElem?_eq_some_iff.1 hchild).1
      refine ih (children.length - (call.data + 1)) ?_ hbody rfl
      omega
    | leave hpop | again hpop => cases hpop
    | token hpop hbody' | concatenation hpop hbody' | begin hpop hbody' | pass hpop hbody' =>
      cases hpop
      cases hbody.symm.trans hbody'

/-- A pass that matches nothing is followed by another one only as long as the bounds allow. -/
theorem safe_enter_again {bounds : Bounds}
    (hbody : m.body? call.rule = some (.repetition bounds child)) (hdata : call.data ≠ 0)
    (hchild : m.SafeRule total n child) (htodo : m.Nullable child → m.Safe total n todo)
    (hbounded : m.Nullable child → bounds.isUnbounded = false) :
    m.Safe total n (todo.push (.enter call)) := by
  induction hleft : bounds.max.getD 0 + 1 - call.data using Nat.strongRecOn
      generalizing call with
  | ind left ih =>
    refine .intro _ fun c hc => ?_
    cases hc with
    | pass hpop hbody' hdata' hadmits =>
      cases hpop
      cases hbody.symm.trans hbody'
      refine hchild _ fun hnull => (htodo hnull).decision ?_
      have hlt : bounds.max.getD 0 + 1 - (call.data + 1) < left := by
        have hmax := hbounded hnull
        rcases htop : bounds.max with _ | top
        · simp [Bounds.isUnbounded, htop] at hmax
        · simp only [Bounds.admits, htop, decide_eq_true_eq] at hadmits
          rw [htop, Option.getD_some] at hleft
          rw [Option.getD_some]
          omega
      exact ih _ hlt hbody (Nat.succ_ne_zero _) rfl
    | begin hpop hbody' hdata' =>
      cases hpop
      exact absurd hdata' hdata
    | leave hpop | again hpop => cases hpop
    | token hpop hbody' | concatenation hpop hbody' | take hpop hbody' | skip hpop hbody' =>
      cases hpop
      cases hbody.symm.trans hbody'

theorem safe_enter_repetition {bounds : Bounds}
    (hbody : m.body? call.rule = some (.repetition bounds child))
    (hchild : m.SafeRule total n child)
    (htodo : m.Nullable call.rule → m.Safe total n todo ∧ m.Safe total n todo.drop)
    (hbounded : m.Nullable child → bounds.isUnbounded = false) :
    m.Safe total n (todo.push (.enter call)) := by
  have hnullable (hnull : m.Nullable child) : m.Nullable call.rule :=
    nullable_repetition hbody fun _ => hnull
  by_cases hdata : call.data = 0
  · refine .intro _ fun c hc => ?_
    cases hc with
    | begin hpop hbody' hdata' =>
      cases hpop
      cases hbody.symm.trans hbody'
      refine safe_plannedAll ?_ fun hall => ?_
      · intro before k after hsplit _
        have hk : k ∈ List.replicate (m.leastPasses call.rule - 0) child := by
          rw [hsplit]
          simp
        rw [List.eq_of_mem_replicate hk]
        exact hchild
      · have hnull : m.Nullable call.rule := by
          refine nullable_repetition hbody fun hmin => hall child ?_
          rcases exists_of_body? hbody with ⟨r, hr, hrbody⟩
          rw [leastPasses_eq hr hrbody]
          exact List.mem_replicate.2 ⟨by omega, rfl⟩
        refine (htodo hnull).2.decision ?_
        exact safe_enter_again hbody (Nat.succ_ne_zero _) hchild
          (fun hnull => (htodo (hnullable hnull)).2) hbounded
    | pass hpop hbody' hdata' =>
      cases hpop
      exact absurd hdata hdata'
    | leave hpop | again hpop => cases hpop
    | token hpop hbody' | concatenation hpop hbody' | take hpop hbody' | skip hpop hbody' =>
      cases hpop
      cases hbody.symm.trans hbody'
  · exact safe_enter_again hbody hdata hchild (fun hnull => (htodo (hnullable hnull)).1) hbounded

theorem safe_enter_unknown (hbody : m.body? call.rule = none) :
    m.Safe total n (todo.push (.enter call)) := by
  refine .intro _ fun c hc => ?_
  cases hc with
  | leave hpop | again hpop => cases hpop
  | token hpop hbody' | concatenation hpop hbody' | take hpop hbody' | skip hpop hbody'
  | begin hpop hbody' | pass hpop hbody' =>
    cases hpop
    cases hbody.symm.trans hbody'

end

variable (hbounded : m.Bounded) (hlater : n < total → ∀ todo, m.Safe total (n + 1) todo)

include hbounded hlater

/-- A rule is entered safely if those it leads to are. -/
theorem safe_enter {call : Call} (hchildren : ∀ k, m.Leads call.rule k → m.SafeRule total n k)
    (htodo : m.Nullable call.rule → m.Safe total n todo ∧ m.Safe total n todo.drop) :
    m.Safe total n (todo.push (.enter call)) := by
  rcases hbody : m.body? call.rule with _ | body
  · exact safe_enter_unknown hbody
  · cases body with
    | token kind unification kept => exact safe_enter_token hbody fun hn => hlater hn _
    | concatenation children =>
      refine safe_enter_concatenation hbody (safe_plannedAll ?_ ?_)
      · intro before k after hsplit hbefore
        rw [hsplit] at hbody
        exact hchildren k (.part hbody hbefore)
      · exact fun hall => (htodo (nullable_concatenation hbody hall)).1
    | choice children =>
      refine safe_enter_choice hbody fun k hk => ?_
      exact hchildren k (.alternative hbody hk) _ fun hnull =>
        (htodo (nullable_choice hbody hk hnull)).1
    | repetition bounds child =>
      exact safe_enter_repetition hbody (hchildren child (.pass hbody)) htodo (hbounded hbody)

theorem safeRule (hacc : Acc (fun child key => m.Leads key child) key) :
    m.SafeRule total n key := by
  induction hacc with
  | intro key _ ih =>
    intro todo htodo
    exact safe_enter hbounded hlater ih fun hnull => ⟨(htodo hnull).leave _, htodo hnull⟩

end

/-- Where no rule leads back to itself and no repetition without end passes over nothing, there is
no endless run of moves. -/
theorem safe (hacyclic : ∀ key, ¬Relation.TransGen m.Leads key key) (hbounded : m.Bounded)
    (total n : Nat) (todo : Todo) : m.Safe total n todo := by
  induction hleft : total - n using Nat.strongRecOn generalizing n todo with
  | ind left ih =>
    have hlater (hn : n < total) (todo : Todo) : m.Safe total (n + 1) todo :=
      ih (total - (n + 1)) (by omega) (n + 1) todo rfl
    have hrule (key : RuleKey) : m.SafeRule total n key :=
      safeRule hbounded hlater (acc_leads hacyclic key)
    have hsteps (steps : List Step) : m.Safe total n ⟨steps⟩ ∧ m.Safe total n ⟨steps.tail⟩ := by
      induction steps with
      | nil => exact ⟨safe_empty, safe_empty⟩
      | cons step rest ihrest =>
        have henter (call : Call) : m.Safe total n (Stack.push ⟨rest⟩ (.enter call)) :=
          safe_enter hbounded hlater (fun k _ => hrule k) fun _ => ihrest
        refine ⟨?_, ihrest.1⟩
        match step with
        | .enter call => exact henter call
        | .leave call false => exact ihrest.1.leave call
        | .leave call true => exact ihrest.1.decision (henter _)
    exact (hsteps todo.items).1

/-! ## Searches that end -/

/-- Going on after a step comes to a result. -/
def Concludes (m : Machine) (p : Progress) : Prop :=
  ∃ fuel r, m.proceed fuel p = some r

theorem Concludes.running {s : State} (h : m.Concludes (m.step s)) : m.Concludes (.running s) := by
  rcases h with ⟨fuel, r, hr⟩
  exact ⟨fuel + 1, r, (m.run_succ_eq_proceed fuel s).trans hr⟩

theorem concludes_done (s : State) : m.Concludes (.done s) :=
  ⟨0, .ok s, rfl⟩

theorem concludes_failed (f : Failure) : m.Concludes (.failed f) :=
  ⟨0, .error f, rfl⟩

/-- From where there is no endless run of moves, a search ends if it does so after going back. -/
theorem concludes_of_safe {capacity : Nat} {s : State}
    (hsafe : m.Safe items.length (matchedCount s.trace) s.todo) (hgood : m.Good items capacity s)
    (hback : ∀ s₁, Placed items capacity s₁ → s₁.trace = s.trace →
      m.Concludes (m.backtrack s₁)) : m.Concludes (.running s) := by
  unfold Safe at hsafe
  generalize hload : (s.todo, matchedCount s.trace) = load at hsafe
  induction hsafe generalizing s with
  | intro load _ ih =>
    subst hload
    apply Concludes.running
    cases stepped hgood with
    | done hstep =>
      rw [hstep]
      exact concludes_done s
    | broken hstep =>
      rw [hstep]
      exact concludes_failed _
    | stuck hstep htrace hplaced =>
      rw [hstep]
      exact hback _ hplaced htrace
    | @forced s' hstep hmoves hgood' hundo =>
      rw [hstep]
      have hmove := onward_of_mem_moves (m := m) (by rw [hmoves]; exact List.mem_singleton_self _)
      refine ih _ hmove hgood' (fun s₁ hplaced₁ htrace₁ => ?_) rfl
      rcases hundo s₁ hplaced₁ htrace₁ with ⟨s₂, hplaced₂, htrace₂, heq⟩ | ⟨⟨f, hf⟩, -⟩
      · rw [heq]
        exact hback s₂ hplaced₂ htrace₂
      · rw [hf]
        exact concludes_failed f
    | @decided s' c hstep hmoves hsame hgood' hresume =>
      rw [hstep]
      have htake := onward_of_mem_moves (m := m) (by rw [hmoves]; exact List.mem_cons_self)
      have hskip := onward_of_mem_moves (m := m)
        (by rw [hmoves]; exact List.mem_cons_of_mem _ (List.mem_singleton_self _))
      refine ih _ htake hgood' (fun s₁ hplaced₁ htrace₁ => ?_) rfl
      rcases hresume s₁ hplaced₁ htrace₁ with ⟨s₂, hgood₂, rfl, hresumed⟩
      rw [hresumed]
      refine ih _ hskip hgood₂ (fun s₃ hplaced₃ htrace₃ => ?_) rfl
      exact hback s₃ hplaced₃ (htrace₃.trans hsame)

/-- Where no rule comes to itself again without matching a token in between, and no repetition
without end has a child that may match nothing, every search ends: from any rule, over any items
and in any window. -/
theorem search_halts (hacyclic : ∀ key, ¬Relation.TransGen m.Leads key key)
    (hbounded : m.Bounded) (items : List (Except LexError Token)) (capacity : Nat)
    (root : RuleKey) : ∃ fuel r, m.search items capacity root fuel = some r := by
  by_cases hroot : m.rules.get? root = none
  · rcases plan_of_unknown hroot .empty with ⟨f, hf⟩
    refine ⟨0, .error f, ?_⟩
    rw [search, initial, hf]
  · have hgood : m.Good items (max capacity 1) _ := good_initial hroot
    have hends := concludes_of_safe (safe hacyclic hbounded _ _ _) hgood fun s₁ _ htrace => by
      rcases backtrack_of_nil (m := m) (s := s₁) htrace with ⟨f, hf⟩
      rw [hf]
      exact concludes_failed f
    rcases hends with ⟨fuel, r, hrun⟩
    refine ⟨fuel, r.map fun s => s.trace.reverse, ?_⟩
    rw [search, initial, plan_of_get? hroot]
    exact Option.map_eq_some_iff.2 ⟨r, hrun, rfl⟩

/-- A search comes to one end, whatever steps it is given. -/
theorem search_unique {items : List (Except LexError Token)} {capacity fuel fuel' : Nat}
    {root : RuleKey} {r r' : Except Failure (List Event)}
    (h : m.search items capacity root fuel = some r)
    (h' : m.search items capacity root fuel' = some r') : r = r' := by
  unfold search at h h'
  generalize m.initial items capacity root = start at h h'
  rcases start with f | s
  · cases h
    cases h'
    rfl
  · rcases Option.map_eq_some_iff.1 h with ⟨a, ha, rfl⟩
    rcases Option.map_eq_some_iff.1 h' with ⟨a', ha', rfl⟩
    rw [Halts.unique ⟨fuel, ha⟩ ⟨fuel', ha'⟩]

/-- The rules of nested brackets: an opening one, brackets inside if there are any, and a closing
one. -/
def brackets : Machine :=
  ⟨⟨[(.named "pair", ⟨.named "pair", .concatenation [.part 0, .part 1, .part 2], none, none,
      some "::open:: pair()? ::close::"⟩),
    (.part 0, .ofBody (.part 0) (.token "open" none true)),
    (.part 1, .ofBody (.part 1) (.repetition ⟨0, some 1, by simp⟩ (.named "pair"))),
    (.part 2, .ofBody (.part 2) (.token "close" none true))]⟩, ⟨.empty, false, true⟩⟩

/-- A text of a pair of brackets inside another one. -/
def nestedBrackets : List (Except LexError Token) :=
  [.ok ⟨"open", "(", 1, defaultSpace, true, 0⟩, .ok ⟨"open", "(", 1, defaultSpace, true, 1⟩,
    .ok ⟨"close", ")", 1, defaultSpace, true, 2⟩, .ok ⟨"close", ")", 1, defaultSpace, true, 3⟩,
    .ok (.ending 4)]

/-- The kinds of the tokens that a search matches, if it ends well. -/
def kindsFound : Option (Except Failure (List Event)) → Option (List String)
  | some (.ok events) => some (events.filterMap fun e => match e with
      | .token t => some t.kind
      | _ => none)
  | _ => none

/-- An upper bound of how many rules brackets lead through before a match. -/
private def bracketRank : RuleKey → Nat
  | .part 1 => 2
  | .named _ => 1
  | _ => 0

private theorem brackets_body? {body : RuleBody} (h : brackets.body? key = some body) :
    key = .named "pair" ∧ body = .concatenation [.part 0, .part 1, .part 2] ∨
      (key = .part 1 ∧ ∃ bounds : Bounds, bounds.isUnbounded = false ∧
        body = .repetition bounds (.named "pair")) ∨
      ∃ kind, body = .token kind none true := by
  rcases exists_of_body? h with ⟨r, hr, rfl⟩
  have hmem := OrderedMap.mem_entries_of_get? hr
  simp only [brackets, List.mem_cons, Prod.mk.injEq, List.not_mem_nil, or_false] at hmem
  rcases hmem with ⟨rfl, rfl⟩ | ⟨-, rfl⟩ | ⟨rfl, rfl⟩ | ⟨-, rfl⟩
  · exact .inl ⟨rfl, rfl⟩
  · exact .inr (.inr ⟨_, rfl⟩)
  · exact .inr (.inl ⟨rfl, _, rfl, rfl⟩)
  · exact .inr (.inr ⟨_, rfl⟩)

private theorem bracketRank_lt (h : brackets.Leads key child) :
    bracketRank child < bracketRank key := by
  have hopen : ¬brackets.Nullable (.part 0) := not_nullable_token rfl
  cases h with
  | @part before after hbody hbefore =>
    rcases brackets_body? hbody with ⟨rfl, hparts⟩ | ⟨-, bounds, -, hparts⟩ | ⟨kind, hparts⟩
    · rcases before with _ | ⟨first, before⟩
      · cases hparts
        decide
      · simp only [List.cons_append, RuleBody.concatenation.injEq, List.cons.injEq] at hparts
        exact absurd (hparts.1 ▸ hbefore first List.mem_cons_self) hopen
    · cases hparts
    · cases hparts
  | alternative hbody =>
    rcases brackets_body? hbody with
      ⟨-, hparts⟩ | ⟨-, bounds, -, hparts⟩ | ⟨kind, hparts⟩ <;> cases hparts
  | pass hbody =>
    rcases brackets_body? hbody with ⟨-, hparts⟩ | ⟨rfl, bounds, -, hparts⟩ | ⟨kind, hparts⟩
    · cases hparts
    · cases hparts
      decide
    · cases hparts

/-- Brackets lead to themselves only after an opening one, so a search for them ends; one over nested
brackets comes to all four. -/
theorem search_halts_brackets :
    (∀ key, ¬Relation.TransGen brackets.Leads key key) ∧ brackets.Bounded ∧
      ∃ fuel r, brackets.search nestedBrackets 1 (.named "pair") fuel = some r ∧
        kindsFound (some r) = some ["open", "open", "close", "close"] := by
  have hacyclic : ∀ key, ¬Relation.TransGen brackets.Leads key key := by
    intro key hcycle
    have hlt : ∀ {child}, Relation.TransGen brackets.Leads key child →
        bracketRank child < bracketRank key := by
      intro child h
      induction h with
      | single h => exact bracketRank_lt h
      | tail _ h ih => exact (bracketRank_lt h).trans ih
    exact Nat.lt_irrefl _ (hlt hcycle)
  have hbounded : brackets.Bounded := by
    intro key child bounds hbody _
    rcases brackets_body? hbody with
      ⟨-, hparts⟩ | ⟨-, bounds', hbounds, hparts⟩ | ⟨kind, hparts⟩ <;> cases hparts
    exact hbounds
  rcases search_halts hacyclic hbounded nestedBrackets 1 (.named "pair") with ⟨fuel, r, hr⟩
  have hfound : kindsFound (brackets.search nestedBrackets 1 (.named "pair") 40) =
      some ["open", "open", "close", "close"] := by
    decide +kernel
  refine ⟨hacyclic, hbounded, fuel, r, hr, ?_⟩
  rcases hsearch : brackets.search nestedBrackets 1 (.named "pair") 40 with _ | r'
  · rw [hsearch] at hfound
    cases hfound
  · rw [search_unique hr hsearch, ← hsearch]
    exact hfound

end Machine

end Descent
