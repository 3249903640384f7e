import Descent.Proofs.Search.Brackets

/-!
# Tokens in the innermost bracket

A token that is matched is in the brackets that are open then, and it stays in them when they are closed.
The test of unification compares a value with the tokens whose innermost bracket of a declared rule is the
innermost one that is still open: not with those in brackets that were opened inside of it, nor with those
before it.

Main results:

- `MatchedIn` says of a token which bracket of a declared rule is the innermost one around it.
- `mem_tokens_iff`: the tokens of the uses that have not ended are those in the brackets that are open.
- `Machine.unifies_of_reaches`: what the test of unification compares in the states that a search reaches.
-/

namespace Descent

variable {rules : RuleTable} {trace : List Event} {b : Bracket} {around : Option Bracket}
  {call : Call} {depth : Int} {left : Todo} {t u : MatchedToken}

/-! ## Where brackets begin -/

theorem place_lt_of_mem_openBrackets (h : b ∈ openBrackets trace) : b.place < trace.length := by
  induction trace with
  | nil => cases h
  | cons e trace ih =>
    rw [List.length_cons]
    cases e with
    | enter call depth left =>
      rcases List.mem_cons.1 h with rfl | hbefore
      · exact Nat.lt_succ_self _
      · exact Nat.lt_succ_of_lt (ih hbefore)
    | leave => exact Nat.lt_succ_of_lt (ih (List.mem_of_mem_tail h))
    | token => exact Nat.lt_succ_of_lt (ih h)

/-- The brackets that are open began one after the other. -/
theorem nodup_openBrackets (trace : List Event) : (openBrackets trace).Nodup := by
  induction trace with
  | nil => exact List.nodup_nil
  | cons e trace ih =>
    cases e with
    | enter call depth left =>
      refine List.nodup_cons.2 ⟨fun hmem => ?_, ih⟩
      exact Nat.lt_irrefl _ (place_lt_of_mem_openBrackets hmem)
    | leave => exact ih.sublist (List.tail_sublist _)
    | token => exact ih

theorem place_lt_of_mem_openUses (h : b ∈ openUses trace) : b.place < trace.length :=
  place_lt_of_mem_openBrackets (List.mem_filter.1 h).1

theorem nodup_openUses (trace : List Event) : (openUses trace).Nodup :=
  (nodup_openBrackets trace).sublist List.filter_sublist

/-! ## Brackets of declared rules -/

theorem openUses_enter :
    openUses (.enter call depth left :: trace) =
      if call.transitional then openUses trace
      else ⟨call.rule, call.transitional, depth, trace.length⟩ :: openUses trace := by
  rcases hcall : call.transitional with _ | _ <;> simp [openUses, hcall]

theorem openUses_leave (h : Closing rules (.leave call depth left :: trace)) :
    openUses (.leave call depth left :: trace) =
      if call.transitional then openUses trace else (openUses trace).tail := by
  rcases h.1 with ⟨b, outer, hopen, hsubject⟩
  have hb : b.transitional = call.transitional := congrArg Prod.snd hsubject
  rcases hcall : call.transitional with _ | _ <;> simp [openUses, hopen, hb, hcall]

/-! ## Tokens in brackets -/

/-- Among some events a token is matched, and of the brackets of declared rules around it, whether they
are closed later or not, a given one is the innermost, or there is none. -/
def MatchedIn (trace : List Event) (around : Option Bracket) (t : MatchedToken) : Prop :=
  ∃ later before, trace = later ++ .token t :: before ∧ (openUses before).head? = around

theorem not_matchedIn_nil : ¬MatchedIn [] around t := by
  rintro ⟨later, before, htrace, -⟩
  simp at htrace

theorem matchedIn_cons_iff {e : Event} :
    MatchedIn (e :: trace) around t ↔
      (e = .token t ∧ (openUses trace).head? = around) ∨ MatchedIn trace around t := by
  constructor
  · rintro ⟨later, before, htrace, haround⟩
    rcases List.cons_eq_append_iff.1 htrace with ⟨-, hhere⟩ | ⟨later', -, hbefore⟩
    · cases hhere
      exact .inl ⟨rfl, haround⟩
    · exact .inr ⟨later', before, hbefore, haround⟩
  · rintro (⟨rfl, haround⟩ | ⟨later, before, rfl, haround⟩)
    · exact ⟨[], trace, rfl, haround⟩
    · exact ⟨e :: later, before, rfl, haround⟩

@[simp]
theorem matchedIn_enter_iff :
    MatchedIn (.enter call depth left :: trace) around t ↔ MatchedIn trace around t := by
  simp [matchedIn_cons_iff]

@[simp]
theorem matchedIn_leave_iff :
    MatchedIn (.leave call depth left :: trace) around t ↔ MatchedIn trace around t := by
  simp [matchedIn_cons_iff]

/-- A bracket that began after some events has no token among them. -/
theorem not_matchedIn_of_place (hplace : trace.length ≤ b.place) : ¬MatchedIn trace (some b) t := by
  rintro ⟨later, before, rfl, haround⟩
  have hbefore := place_lt_of_mem_openUses (List.mem_of_mem_head? haround)
  simp only [List.length_append, List.length_cons] at hplace
  omega

/-! ## Uses and brackets -/

theorem unended_enter :
    (usesOf (.enter call depth left :: trace)).unended =
      if call.transitional then (usesOf trace).unended
      else ⟨some call.rule, []⟩ :: (usesOf trace).unended := by
  rcases hcall : call.transitional with _ | _ <;> simp [usesOf, hcall, Uses.enter, Uses.unended]

/-- The use that ends is the innermost one, and it is within another one. -/
theorem unended_leave (h : Closing rules (.leave call depth left :: trace)) :
    (usesOf (.leave call depth left :: trace)).unended =
      if call.transitional then (usesOf trace).unended else (usesOf trace).unended.tail := by
  rcases h with ⟨⟨b, outer, hopen, hsubject⟩, h⟩
  rcases hcall : call.transitional with _ | _
  · have hb : b.transitional = false := (congrArg Prod.snd hsubject).trans hcall
    have hlength := length_around_usesOf h
    rw [openUses, hopen, List.filter_cons_of_pos (by simp [hb]), List.length_cons] at hlength
    rcases Uses.leave_eq hlength with ⟨use, uses, haround, -, hleave⟩
    simp [usesOf, hcall, hleave, Uses.unended, haround]
  · simp [usesOf, hcall]

/-- The tokens of a use that has not ended are those in the bracket of it that is open; those of the
outermost one are in no bracket. -/
theorem mem_tokens_iff (h : Closing rules trace) {n : Nat} {use : Use}
    (huse : (usesOf trace).unended[n]? = some use) :
    t ∈ use.tokens ↔ MatchedIn trace (openUses trace)[n]? t := by
  induction trace generalizing n use with
  | nil =>
    have hnone : use.tokens = [] := by
      have hmem := List.mem_of_getElem? huse
      rw [List.mem_singleton.1 hmem]
      rfl
    simp [hnone, not_matchedIn_nil]
  | cons e trace ih =>
    cases e with
    | enter call depth left =>
      rw [matchedIn_enter_iff, openUses_enter]
      rw [unended_enter] at huse
      by_cases hcall : call.transitional = true
      · rw [if_pos hcall] at huse ⊢
        exact ih h.2 huse
      · rw [if_neg hcall] at huse ⊢
        cases n with
        | zero =>
          cases huse
          have hnew : ¬MatchedIn trace (some ⟨call.rule, call.transitional, depth, trace.length⟩) t :=
            not_matchedIn_of_place (Nat.le_refl _)
          simpa using hnew
        | succ n => exact ih h.2 huse
    | leave call depth left =>
      rw [matchedIn_leave_iff, openUses_leave h]
      rw [unended_leave h] at huse
      by_cases hcall : call.transitional = true
      · rw [if_pos hcall] at huse ⊢
        exact ih h.2 huse
      · rw [if_neg hcall, List.getElem?_tail] at huse ⊢
        exact ih h.2 huse
    | token u =>
      have hbefore : Closing rules trace := h
      show _ ↔ MatchedIn _ (openUses trace)[n]? t
      rw [matchedIn_cons_iff, List.head?_eq_getElem?]
      cases n with
      | zero =>
        cases huse
        have hcurrent : t ∈ (usesOf trace).current.tokens ↔ MatchedIn trace (openUses trace)[0]? t :=
          ih hbefore rfl
        show t ∈ (usesOf trace).current.tokens ++ [u] ↔ _
        simp [← hcurrent, or_comm, eq_comm]
      | succ n =>
        have haround : (usesOf trace).around[n]? = some use := huse
        have hlt : n < (openUses trace).length := by
          rw [← length_around_usesOf hbefore]
          exact (List.getElem?_eq_some_iff.1 haround).1
        -- The token is in the innermost bracket, which is none of those around it.
        have hother : (openUses trace)[0]? ≠ (openUses trace)[n + 1]? := fun hsame =>
          absurd ((List.getElem?_inj (by omega) (nodup_openUses trace)).1 hsame) (Nat.succ_ne_zero n).symm
        have huse : (usesOf trace).unended[n + 1]? = some use := huse
        simp [hother, ih hbefore huse]

/-! ## The test of unification -/

namespace Machine

variable {m : Machine} {items : List (Except LexError Token)} {capacity : Nat} {s s₀ : State}
  {root : RuleKey}

/-- In all states that a search reaches, the test of unification compares a value with all tokens of an
index whose innermost bracket of a declared rule is the innermost one that is open, and with no others.
Where none is open, these are the tokens outside of the brackets that are closed. -/
theorem unifies_of_reaches (hinitial : m.initial items capacity root = .ok s₀) (h : m.Reaches s₀ s)
    (index : Nat) (value : String) :
    unifies s.depth index value 0 s.trace = true ↔
      ∀ t, MatchedIn s.trace (openUses s.trace).head? t → t.unification = some index →
        t.value = value := by
  rcases aligned_of_reaches hinitial h List.mem_cons_self with ⟨haligned, hscoped⟩
  have hclosing : Closing m.rules s.trace := haligned.closing
  have hcurrent : (usesOf s.trace).unended[0]? = some (usesOf s.trace).current := rfl
  calc
    unifies s.depth index value 0 s.trace = true ↔
        ∀ t ∈ (usesOf s.trace).current.tokens, t.unification = some index → t.value = value :=
      unifies_iff hscoped.tallied.leveled hscoped.tallied.depth_eq
    _ ↔ ∀ t, MatchedIn s.trace (openUses s.trace).head? t → t.unification = some index →
        t.value = value := by
      simp only [mem_tokens_iff hclosing hcurrent, List.head?_eq_getElem?]

/-- Three letters with the same index, of which the one in the middle belongs to a rule of its own. -/
def enclosing : Machine :=
  ⟨⟨[(.named "outer", ⟨.named "outer", .concatenation [.part 0, .named "inner", .part 0], none, none,
      some "<letter[0]> inner() <letter[0]>"⟩),
    (.named "inner", ⟨.named "inner", .concatenation [.part 1], none, none, some "(<letter[0]>)"⟩),
    (.part 0, .ofBody (.part 0) (.token "letter" (some 0) true)),
    (.part 1, .ofBody (.part 1) (.token "letter" (some 0) true))]⟩, ⟨.empty, false, true⟩⟩

/-- Two equal letters with another one between them. -/
def enclosed : List (Except LexError Token) :=
  [.ok (letter 0), .ok { letter 1 with value := "y" }, .ok (letter 2), .ok (.ending 3)]

/-- Before the last letter only the first one counts. -/
theorem unifies_of_reaches_enclosing :
    ∃ s₀ s, enclosing.initial enclosed 3 (.named "outer") = .ok s₀ ∧ enclosing.Reaches s₀ s ∧
      matchedCount s.trace = 2 ∧ unifies s.depth 0 "x" 0 s.trace = true ∧
      ∀ t, MatchedIn s.trace (openUses s.trace).head? t → t.unification = some 0 → t.value = "x" := by
  obtain ⟨s₀, s, hinitial, hs, hmatched, hunifies⟩ : ∃ s₀ s,
      enclosing.initial enclosed 3 (.named "outer") = .ok s₀ ∧
      enclosing.stateAfter 5 s₀ = some s ∧ matchedCount s.trace = 2 ∧
      unifies s.depth 0 "x" 0 s.trace = true :=
    ⟨_, _, rfl, rfl, rfl, rfl⟩
  have hreach := reaches_of_stateAfter hs
  exact ⟨s₀, s, hinitial, hreach, hmatched, hunifies,
    (unifies_of_reaches hinitial hreach 0 "x").1 hunifies⟩

end Machine

end Descent
