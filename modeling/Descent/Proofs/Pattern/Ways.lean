import Mathlib.Tactic.Tauto
import Descent.Pattern.Matching

/-!
# Ways through a pattern

The ways that matching a pattern can come to are the parts of the pattern, each before what has to be passed after
it; a counted repetition gives some for each count.  There are no more of them than the weight of the pattern says,
and opening one leads to others of them.  Since each is opened once at a position, the fuel of matching suffices.

Main results:

- `Node.ways` are the ways of a pattern before a way that goes on.
- `Node.leads_of_mem_ways`: opening a way of a pattern leads to ways of it, or beyond it.
- `Node.length_ways_le`: there are no more of them than the weight of the pattern.
-/

namespace Descent.Pattern

/-- The ways that an opening leads to pass a test. -/
def Opening.Leads (P : Way → Prop) : Opening → Prop
  | .matched => True
  | .ways next => ∀ w ∈ next, P w
  | .taken t => P t.way

theorem Opening.Leads.mono {P Q : Way → Prop} {o : Opening} (h : o.Leads P) (hsub : ∀ w, P w → Q w) :
    o.Leads Q := by
  cases o with
  | matched => trivial
  | ways next => exact fun w hw => hsub w (h w hw)
  | taken t => exact hsub _ h

namespace Node

variable {before after : List UInt8} {a : Node} {greedy : Bool} {k w : Way} {min m : Nat} {max : Option Nat}

/-! ## Ways of a pattern -/

/-- The ways of a pattern at most `max` times, before a way that goes on. -/
def optionalWays (ways : Way → List Way) (a : Node) (greedy : Bool) (k : Way) : (max : Nat) → List Way
  | 0 => [.node (.repeated a 0 (some 0) greedy) :: k]
  | m + 1 =>
    (.node (.repeated a 0 (some (m + 1)) greedy) :: k) ::
      (ways (.node (.repeated a 0 (some m) greedy) :: k) ++ optionalWays ways a greedy k m)

/-- The ways of a repetition, before a way that goes on. -/
def repeatedWays (ways : Way → List Way) (a : Node) (greedy : Bool) (k : Way) :
    (min : Nat) → (max : Option Nat) → List Way
  | 0, some m => optionalWays ways a greedy k m
  | 0, none =>
    (.node (.repeated a 0 none greedy) :: k) :: (.again a greedy :: k) :: ways (.again a greedy :: k)
  | 1, none =>
    (.node (.repeated a 1 none greedy) :: k) :: (.again a greedy :: k) :: ways (.again a greedy :: k)
  | n + 1, max =>
    (.node (.repeated a (n + 1) max greedy) :: k) ::
      (ways (.node (.repeated a n (max.map (· - 1)) greedy) :: k) ++
        repeatedWays ways a greedy k n (max.map (· - 1)))

/-- The ways of a pattern, before a way that goes on. -/
def ways : Node → Way → List Way
  | .seq a b, k => (.node (.seq a b) :: k) :: (a.ways (.node b :: k) ++ b.ways k)
  | .alt a b, k =>
    (.node (.alt a b) :: k) :: (.join false :: k) :: (.join true :: k) ::
      (a.ways (.join false :: k) ++ b.ways (.join true :: k))
  | .group name a, k => (.node (.group name a) :: k) :: a.ways k
  | .repeated a min max greedy, k => repeatedWays a.ways a greedy k min max
  | .empty, k => [.node .empty :: k]
  | .char s, k => [.node (.char s) :: k]
  | .octet s, k => [.node (.octet s) :: k]
  | .look l, k => [.node (.look l) :: k]

theorem mem_optionalWays (ways : Way → List Way) (a : Node) (greedy : Bool) (k : Way) (m : Nat) :
    (.node (.repeated a 0 (some m) greedy) :: k) ∈ optionalWays ways a greedy k m := by
  cases m <;> exact List.mem_cons_self

theorem mem_repeatedWays (ways : Way → List Way) (a : Node) (greedy : Bool) (k : Way) (min : Nat)
    (max : Option Nat) :
    (.node (.repeated a min max greedy) :: k) ∈ repeatedWays ways a greedy k min max := by
  rcases min with _ | _ | n <;> rcases max with _ | m
  · exact List.mem_cons_self
  · exact mem_optionalWays ways a greedy k m
  all_goals exact List.mem_cons_self

theorem repeatedWays_succ {ways : Way → List Way} {n : Nat} (h : ¬ (n = 0 ∧ max = none)) :
    repeatedWays ways a greedy k (n + 1) max =
      (.node (.repeated a (n + 1) max greedy) :: k) ::
        (ways (.node (.repeated a n (max.map (· - 1)) greedy) :: k) ++
          repeatedWays ways a greedy k n (max.map (· - 1))) := by
  rcases n with _ | n <;> rcases max with _ | m
  · exact absurd ⟨rfl, rfl⟩ h
  all_goals rfl

theorem repeatWays_succ {n : Nat} (h : ¬ (n = 0 ∧ max = none)) :
    repeatWays a (n + 1) max greedy k =
      [.node a :: .node (.repeated a n (max.map (· - 1)) greedy) :: k] := by
  rcases n with _ | n <;> rcases max with _ | m
  · exact absurd ⟨rfl, rfl⟩ h
  all_goals rfl

/-- A pattern is at the beginning of its ways. -/
theorem mem_ways (a : Node) (k : Way) : (.node a :: k) ∈ a.ways k := by
  cases a with
  | repeated a min max greedy => exact mem_repeatedWays a.ways a greedy k min max
  | _ => exact List.mem_cons_self

/-! ## Opening -/

/-- Opening a way of a pattern leads to ways of it, or beyond it. -/
def Closed (before after : List UInt8) (ways : Way → List Way) : Prop :=
  ∀ k, ∀ w ∈ ways k, (Opening.ofWay before after w).Leads fun u => u ∈ ways k ∨ u = k

/-- Opening any of some ways leads to ways among them, or on to a way after them. -/
def Exits (before after : List UInt8) (ws : List Way) (k : Way) : Prop :=
  ∀ w ∈ ws, (Opening.ofWay before after w).Leads fun u => u ∈ ws ∨ u = k

theorem Closed.exits {ways : Way → List Way} (h : Closed before after ways) (k : Way) :
    Exits before after (ways k) k :=
  h k

namespace Exits

variable {ws first second : List Way} {head k₁ : Way}

theorem single (h : (Opening.ofWay before after w).Leads (· = k)) : Exits before after [w] k := by
  intro w' hw
  rw [List.mem_singleton.1 hw]
  exact h.mono fun _ => .inr

/-- One more way goes before ways that it leads to. -/
theorem cons (h : Exits before after ws k)
    (hhead : (Opening.ofWay before after head).Leads fun u => u ∈ ws ∨ u = k) :
    Exits before after (head :: ws) k := by
  have hsub : ∀ u, u ∈ ws ∨ u = k → u ∈ head :: ws ∨ u = k :=
    fun u hu => hu.imp_left (List.mem_cons_of_mem _)
  intro w hw
  rcases List.mem_cons.1 hw with rfl | hw
  · exact hhead.mono hsub
  · exact (h w hw).mono hsub

/-- Ways that lead back to the way before them come to what that way leads to. -/
theorem loop (h : Exits before after ws head)
    (hhead : (Opening.ofWay before after head).Leads fun u => u ∈ ws ∨ u = k) :
    Exits before after (head :: ws) k := by
  intro w hw
  rcases List.mem_cons.1 hw with rfl | hw
  · exact hhead.mono fun u hu => hu.imp_left (List.mem_cons_of_mem _)
  · apply (h w hw).mono
    rintro u (hu | rfl)
    · exact .inl (List.mem_cons_of_mem _ hu)
    · exact .inl List.mem_cons_self

/-- Ways go on with others that come after them. -/
theorem append (hfirst : Exits before after first k₁) (hsecond : Exits before after second k)
    (hk₁ : k₁ ∈ second) : Exits before after (first ++ second) k := by
  intro w hw
  rcases List.mem_append.1 hw with hw | hw
  · apply (hfirst w hw).mono
    rintro u (hu | rfl)
    · exact .inl (List.mem_append_left _ hu)
    · exact .inl (List.mem_append_right _ hk₁)
  · exact (hsecond w hw).mono fun u hu => hu.imp_left (List.mem_append_right _)

end Exits

section

variable {ways : Way → List Way}

theorem exits_optionalWays (hways : Closed before after ways) (ha : ∀ k, (.node a :: k) ∈ ways k)
    (m : Nat) : Exits before after (optionalWays ways a greedy k m) k := by
  induction m with
  | zero => exact .single fun u hu => List.mem_singleton.1 hu
  | succ m ih =>
    refine ((hways.exits _).append ih (mem_optionalWays ways a greedy k m)).cons ?_
    intro u hu
    have hu : u = .node a :: .node (.repeated a 0 (some m) greedy) :: k ∨ u = k := by
      simp only [repeatWays, prefer] at hu
      cases greedy <;> simp at hu <;> tauto
    rcases hu with rfl | rfl
    · exact .inl (List.mem_append_left _ (ha _))
    · exact .inr rfl

/-- A repetition without an upper bound that has begun goes on with the same ways again and again. -/
theorem exits_againWays (hways : Closed before after ways) (ha : ∀ k, (.node a :: k) ∈ ways k) :
    Exits before after ((.again a greedy :: k) :: ways (.again a greedy :: k)) k := by
  refine (hways.exits _).loop ?_
  intro u hu
  have hu : u = .node a :: .again a greedy :: k ∨ u = k := by
    simp only [prefer] at hu
    cases greedy <;> simp at hu <;> tauto
  rcases hu with rfl | rfl
  · exact .inl (ha _)
  · exact .inr rfl

theorem exits_repeatedWays (hways : Closed before after ways) (ha : ∀ k, (.node a :: k) ∈ ways k)
    (min : Nat) (max : Option Nat) : Exits before after (repeatedWays ways a greedy k min max) k := by
  induction min generalizing max with
  | zero =>
    rcases max with _ | m
    · refine (exits_againWays hways ha).cons fun u hu => ?_
      rw [List.mem_singleton.1 hu]
      exact .inl List.mem_cons_self
    · exact exits_optionalWays hways ha m
  | succ n ih =>
    by_cases hone : n = 0 ∧ max = none
    · rcases hone with ⟨rfl, rfl⟩
      refine (exits_againWays hways ha).cons fun u hu => ?_
      rw [List.mem_singleton.1 hu]
      exact .inl (List.mem_cons_of_mem _ (ha _))
    · rw [repeatedWays_succ hone]
      refine ((hways.exits _).append (ih _) (mem_repeatedWays ways a greedy k n (max.map (· - 1)))).cons ?_
      intro u hu
      rw [repeatWays_succ hone, List.mem_singleton] at hu
      rw [hu]
      exact .inl (List.mem_append_left _ (ha _))

end

/-- Opening a way of a pattern leads to ways of it, or beyond it. -/
theorem leads_of_mem_ways (a : Node) : Closed before after a.ways := by
  induction a with
  | empty => exact fun k => Exits.single fun u hu => List.mem_singleton.1 hu
  | char s =>
    refine fun k => Exits.single ?_
    rw [Opening.ofWay]
    rcases Text.charAfter? after with _ | ⟨c, width⟩
    · exact fun u hu => absurd hu List.not_mem_nil
    · dsimp only
      split
      · exact rfl
      · exact fun u hu => absurd hu List.not_mem_nil
  | octet s =>
    refine fun k => Exits.single ?_
    rcases after with _ | ⟨b, rest⟩
    · exact fun u hu => absurd hu List.not_mem_nil
    · simp only [Opening.ofWay]
      split
      · exact rfl
      · exact fun u hu => absurd hu List.not_mem_nil
  | look l =>
    refine fun k => Exits.single ?_
    rw [Opening.ofWay]
    intro u hu
    split at hu
    · exact List.mem_singleton.1 hu
    · cases hu
  | seq a b iha ihb =>
    refine fun k => ((iha.exits _).append (ihb.exits k) (mem_ways b k)).cons fun u hu => ?_
    rw [List.mem_singleton.1 hu]
    exact .inl (List.mem_append_left _ (mem_ways a _))
  | alt a b iha ihb =>
    -- Either alternative goes on with its own way to the end, so neither list comes after the other.
    intro k w hw
    rw [ways] at hw ⊢
    simp only [List.mem_cons, List.mem_append] at hw ⊢
    rcases hw with rfl | rfl | rfl | hw | hw
    · intro u hu
      simp only [List.mem_cons, List.not_mem_nil, or_false] at hu
      rcases hu with rfl | rfl
      · have := mem_ways a (.join false :: k)
        tauto
      · have := mem_ways b (.join true :: k)
        tauto
    · intro u hu
      exact .inr (List.mem_singleton.1 hu)
    · intro u hu
      exact .inr (List.mem_singleton.1 hu)
    · apply (iha _ w hw).mono
      intro u hu
      tauto
    · apply (ihb _ w hw).mono
      intro u hu
      tauto
  | repeated a min max greedy ih => exact fun k => exits_repeatedWays ih (mem_ways a) min max
  | group name a ih =>
    refine fun k => (ih.exits k).cons fun u hu => ?_
    rw [List.mem_singleton.1 hu]
    exact .inl (mem_ways a k)

/-! ## Weights -/

theorem max_pred_lt (n : Nat) (max : Option Nat) :
    Nat.max n ((max.map (· - 1)).getD 0) < Nat.max (n + 1) (max.getD 0) := by
  rcases max with _ | m
  · show Max.max n 0 < Max.max (n + 1) 0
    omega
  · show Max.max n (m - 1) < Max.max (n + 1) m
    omega

theorem length_optionalWays_le {ways : Way → List Way} {size : Nat} (h : ∀ k, (ways k).length ≤ size) :
    (optionalWays ways a greedy k m).length ≤ (m + 1) * (size + 1) := by
  induction m with
  | zero => simp [optionalWays]
  | succ m ih =>
    have hsize := h (.node (.repeated a 0 (some m) greedy) :: k)
    have hsplit : (m + 1 + 1) * (size + 1) = (m + 1) * (size + 1) + (size + 1) := Nat.succ_mul _ _
    rw [optionalWays, List.length_cons, List.length_append, hsplit]
    omega

theorem length_repeatedWays_le {ways : Way → List Way} {size : Nat} (h : ∀ k, (ways k).length ≤ size) :
    (repeatedWays ways a greedy k min max).length ≤ (Nat.max min (max.getD 0) + 2) * (size + 2) := by
  have hagain := h (.again a greedy :: k)
  have hbase (n : Nat) : 2 * (size + 2) ≤ (n + 2) * (size + 2) := Nat.mul_le_mul_right _ (by omega)
  induction min generalizing max with
  | zero =>
    rcases max with _ | m
    · have := hbase (Nat.max 0 0)
      rw [repeatedWays, List.length_cons, List.length_cons]
      dsimp only [Option.getD_none]
      omega
    · have hmax : m + 1 ≤ Nat.max 0 m + 2 := by simp
      calc (optionalWays ways a greedy k m).length ≤ (m + 1) * (size + 1) := length_optionalWays_le h
        _ ≤ (Nat.max 0 m + 2) * (size + 2) := Nat.mul_le_mul hmax (by omega)
  | succ n ih =>
    by_cases hone : n = 0 ∧ max = none
    · rcases hone with ⟨rfl, rfl⟩
      have := hbase (Nat.max (0 + 1) 0)
      rw [repeatedWays, List.length_cons, List.length_cons]
      dsimp only [Option.getD_none]
      omega
    · have hsize := h (.node (.repeated a n (max.map (· - 1)) greedy) :: k)
      have hrest := @ih (max.map (· - 1))
      have hlt := max_pred_lt n max
      have hle : (Nat.max n ((max.map (· - 1)).getD 0) + 2) * (size + 2) + (size + 2) ≤
          (Nat.max (n + 1) (max.getD 0) + 2) * (size + 2) := by
        rw [← Nat.succ_mul]
        exact Nat.mul_le_mul_right _ (by omega)
      rw [repeatedWays_succ hone, List.length_cons, List.length_append]
      omega

/-- There are no more ways than the weight of the pattern. -/
theorem length_ways_le (a : Node) (k : Way) : (a.ways k).length ≤ a.weight := by
  induction a generalizing k with
  | empty | char s | octet s | look l => exact Nat.le_refl 1
  | seq a b iha ihb =>
    have ha := iha (.node b :: k)
    have hb := ihb k
    rw [ways, weight, List.length_cons, List.length_append]
    omega
  | alt a b iha ihb =>
    have ha := iha (.join false :: k)
    have hb := ihb (.join true :: k)
    rw [ways, weight, List.length_cons, List.length_cons, List.length_cons, List.length_append]
    omega
  | repeated a min max greedy ih => exact length_repeatedWays_le ih
  | group name a ih =>
    have ha := ih k
    rw [ways, weight, List.length_cons]
    omega

end Node

end Descent.Pattern
