import Descent.Proofs.Rule.Course

/-!
# Making rules

While a body is compiled, what was made waits until a rule refers to it: its key is held.  A key that is held may be
dropped.  The name of a declared rule may be held at any time.  A rule that is made takes the keys that it refers to,
and its own key is held then.  Only a rule whose key is held gets a name for its node.  Nothing else happens to rules,
so that what these four keep is kept by compiling.

Main results:

- `MakingInvariant` is a property of rules and of the keys held that the four keep.
- `MakingInvariant.of_course`: compiling keeps it, whatever else is held.
- `Compilation.makingInvariant_continues`: what was made before stays in front.
-/

namespace Descent

/-- A property of the rules made so far, the number of the next part and the keys that are held is kept by all that
happens to them. -/
structure MakingInvariant (names : List String) (I : RuleTable → Nat → List RuleKey → Prop) :
    Prop where
  drop : ∀ {rules : RuleTable} {counter : Nat} {held held' : List RuleKey},
    I rules counter held → (∀ k : RuleKey, held'.count k ≤ held.count k) → I rules counter held'
  hold : ∀ {rules : RuleTable} {counter : Nat} {held : List RuleKey} {name : String},
    I rules counter held → name ∈ names → I rules counter (.named name :: held)
  make : ∀ {rules : RuleTable} {counter : Nat} {held : List RuleKey} {r : Rule},
    I rules counter (r.children ++ held) →
    I (rules.insert (.part counter) r) (counter + 1) (.part counter :: held)
  rename : ∀ {rules : RuleTable} {counter n : Nat} {held : List RuleKey} {r r' : Rule},
    I rules counter (.part n :: held) → rules.get? (.part n) = some r →
    r'.children = r.children → I (rules.insert (.part n) r') counter (.part n :: held)

/-- Where every key comes at most as often as before, none is new. -/
theorem RuleTable.mem_of_count_le {k : RuleKey} {ks ls : List RuleKey}
    (h : ∀ k, ks.count k ≤ ls.count k) (hk : k ∈ ks) : k ∈ ls :=
  List.count_pos_iff.1 (Nat.lt_of_lt_of_le (List.count_pos_iff.2 hk) (h k))

namespace Compilation

/-- The parts or alternatives that a task comes after. -/
def Task.done : Task → List RuleKey
  | choice done _ | concatenation done _ => done
  | simple _ => []

end Compilation

namespace MakingInvariant

open Compilation

variable {s : BodyScope} {I : RuleTable → Nat → List RuleKey → Prop} {c c₁ : Compilation}
  {pending pending₁ : Pending} {key : RuleKey} {key? : Option RuleKey} {held : List RuleKey}

theorem addPart (hI : MakingInvariant s.names I) {body : RuleBody} {children : List RuleKey}
    (h : I c.rules c.counter (children ++ held))
    (hchildren : (Rule.ofBody (.part c.counter) body).children = children) :
    I (c.addPart body).2.rules (c.addPart body).2.counter ((c.addPart body).1 :: held) :=
  hI.make (hchildren ▸ h)

theorem nameWaiting (hI : MakingInvariant s.names I) (h : I c.rules c.counter (key :: held))
    (pending : Pending) :
    I (c.nameWaiting key pending).rules (c.nameWaiting key pending).counter (key :: held) := by
  cases pending with
  | none => exact h
  | some id =>
    unfold Compilation.nameWaiting Compilation.nameNode
    dsimp only
    split
    · rename_i hr
      exact hI.rename h hr rfl
    · exact h

theorem call (hI : MakingInvariant s.names I) {name : String} (h : I c.rules c.counter held)
    (hkey : c.call s name = .ok (key, c₁)) : I c₁.rules c₁.counter (key :: held) := by
  rcases call_cases hkey with ⟨hname, hpart⟩
  have hnamed : I c.advance.rules c.advance.counter ([.named name] ++ held) := hI.hold h hname
  rcases hpart with hpart | hpart
  · cases hpart
    exact hI.addPart hnamed rfl
  · cases hpart
    exact hnamed

theorem afterPart (hI : MakingInvariant s.names I) {child : RuleKey}
    (h : I c.rules c.counter (child :: held))
    (hafter : c.afterPart s child pending = .ok (some key, pending₁, c₁)) :
    I c₁.rules c₁.counter (key :: held) := by
  rcases exists_of_afterPart hafter with ⟨numbers, c₂, c₃, key, hquantifier, hname, hrepeat, hkey⟩
  cases hkey
  have h₂ : I c₂.rules c₂.counter (child :: held) := by
    rcases quantifier_cases hquantifier with ⟨-, rfl⟩ | ⟨_, _, -, -, -, rfl⟩
    · exact h
    · exact h
  have h₃ : I c₃.rules c₃.counter (child :: held) := by
    rcases nodeMark_cases hname with ⟨-, rfl⟩ | ⟨_, _, -, -, -, rfl⟩
    · exact h₂
    · exact h₂
  rcases repeatPart_cases hrepeat with ⟨-, hpart⟩ | ⟨bounds, -, hpart⟩
  · cases hpart
    exact h₃
  · cases hpart
    exact hI.addPart h₃ rfl

/-- A rule of several parts takes them. -/
private theorem reverse (hI : MakingInvariant s.names I) {done : List RuleKey} {body : RuleBody}
    (h : I c.rules c.counter (done ++ held))
    (hbody : (Rule.ofBody (.part c.counter) body).children = done.reverse) :
    I (c.addPart body).2.rules (c.addPart body).2.counter ((c.addPart body).1 :: held) := by
  refine hI.addPart (hI.drop h fun k => Nat.le_of_eq ?_) hbody
  rw [List.count_append, List.count_append, List.count_reverse]

theorem sequence (hI : MakingInvariant s.names I) {done : List RuleKey}
    (h : I c.rules c.counter (done ++ held)) (pending : Pending) :
    I (c.sequence done.reverse pending).2.rules (c.sequence done.reverse pending).2.counter
      ((c.sequence done.reverse pending).1 :: held) := by
  unfold Compilation.sequence
  split
  · rename_i key hdone
    obtain rfl : done = [key] := by simpa using List.reverse_eq_iff.1 hdone
    exact h
  · exact hI.reverse h rfl

theorem alternatives (hI : MakingInvariant s.names I) {done : List RuleKey}
    (h : I c.rules c.counter (done ++ held)) :
    I (c.alternatives done.reverse).2.rules (c.alternatives done.reverse).2.counter
      ((c.alternatives done.reverse).1 :: held) := by
  unfold Compilation.alternatives
  split
  · rename_i key hdone
    obtain rfl : done = [key] := by simpa using List.reverse_eq_iff.1 hdone
    exact h
  · exact hI.reverse h rfl

/-- Compiling keeps the invariant, whatever else is held: it takes what was done, and what it makes is held. -/
theorem of_course (hI : MakingInvariant s.names I) {task : Task}
    (h : Course s task c key? pending c₁) (hc : I c.rules c.counter (task.done ++ held)) :
    I c₁.rules c₁.counter (key?.toList ++ held) := by
  have hdrop {rules : RuleTable} {counter : Nat} {held held' : List RuleKey}
      (h : I rules counter held) (hsub : held'.Sublist held) : I rules counter held' :=
    hI.drop h fun k => hsub.count_le k
  induction h generalizing held with
  | idle task c => exact hdrop hc (List.sublist_append_right _ _)
  | other hw hopening => exact hc
  | token hw hsign hkey =>
    rcases exists_of_reference hkey with ⟨kind, index, -, -, hpart⟩
    cases hpart
    exact hI.addPart hc rfl
  | call hw hsign hkey => exact hI.call hc hkey
  | emptyGroup hw hopening hinside ih => exact ih hc
  | openGroup hw hopening hinside hw₁ hclosing ih => exact hdrop (ih hc) (List.sublist_cons_self _ _)
  | group hw hopening hinside hw₁ hclosing ih => exact ih hc
  | part hpart hafter hrest ih ihrest => exact ihrest (hI.afterPart (ih hc) hafter)
  | noPart hpart ih => exact ih hc
  | @parts done pending pending₁ c c₁ hpart hdone ih =>
    have hparts : I c₁.rules c₁.counter (done ++ held) := ih hc
    exact hI.sequence hparts pending₁
  | @noBranch done pending branchId c c₁ hbranch ih =>
    have hnone : I c₁.rules c₁.counter (done ++ held) := ih hc
    exact hdrop hnone (List.sublist_append_right _ _)
  | @branch done pending pending₂ branchId c c₁ c₂ w key key? hbranch hw hbar hrest ih ihrest =>
    have hkey : I c₁.rules c₁.counter (key :: (done ++ held)) := ih hc
    exact ihrest (hI.nameWaiting hkey _)
  | @branches done pending branchId c c₁ w key hbranch hw hbar ih =>
    have hkey : I c₁.rules c₁.counter (key :: (done ++ held)) := ih hc
    exact hI.alternatives (hI.nameWaiting hkey branchId)

end MakingInvariant

/-! ## What stays in front -/

namespace Compilation

variable {base : RuleTable} {bound : Nat}

/-- Some rules stay in front of those that are made while parts are numbered from a bound on. -/
structure Continues (base : RuleTable) (bound : Nat) (rules : RuleTable) (counter : Nat)
    (held : List RuleKey) : Prop where
  counter_le : bound ≤ counter
  new : ∀ n, .part n ∈ held → bound ≤ n
  extends_base : OrderedMap.Extends base rules

theorem makingInvariant_continues (names : List String) (hbase : ∀ n, .part n ∈ base.keys → n < bound) :
    MakingInvariant names (Continues base bound) where
  drop h hheld := { h with new := fun n hn => h.new n (RuleTable.mem_of_count_le hheld hn) }
  hold h _ := { h with new := fun n hn => h.new n (by simpa using hn) }
  make {_ counter _ _} h := by
    have hnew : .part counter ∉ base.keys := fun hmem =>
      absurd (hbase _ hmem) (Nat.not_lt.2 h.counter_le)
    refine ⟨Nat.le_succ_of_le h.counter_le, fun n hn => ?_, h.extends_base.insert hnew _⟩
    rcases List.mem_cons.1 hn with hsame | hn
    · cases hsame
      exact h.counter_le
    · exact h.new n (List.mem_append_right _ hn)
  rename {_ _ n _ _ _} h _ _ := by
    have hnew : .part n ∉ base.keys := fun hmem =>
      absurd (hbase _ hmem) (Nat.not_lt.2 (h.new n List.mem_cons_self))
    exact { h with extends_base := h.extends_base.insert hnew _ }

end Compilation

end Descent
