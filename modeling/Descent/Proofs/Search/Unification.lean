import Descent.Proofs.Search.Derivation

/-!
# What the unification test sees

The test scans the events back to the beginning of the innermost declared rule that is still open,
and passes over what finished uses of declared rules hold.  On the events of a derivation it sees
the tokens that belong to the rule around it, and nothing else.

Main results:

- `Sees` says which tokens the test sees in some events.
- `Sees.linearize`: after the events of a derivation, it sees the derivation's own tokens as well.
- `Machine.admits_token_iff`: a token passes the test if it is consistent with those seen.
-/

namespace Descent

variable {m : Machine} {depth level nested : Int} {index : Nat} {value : String}

/-! ## Events that a scan passes over -/

/-- Events that a scan passes over inside a number of finished uses of declared rules. -/
private def Hidden (depth : Int) (index : Nat) (value : String) (nested : Int)
    (es : List Event) : Prop :=
  ∀ trace, unifies depth index value nested (es.reverse ++ trace) =
    unifies depth index value nested trace

private theorem Hidden.append {es fs : List Event} (he : Hidden depth index value nested es)
    (hf : Hidden depth index value nested fs) : Hidden depth index value nested (es ++ fs) := by
  intro trace
  rw [List.reverse_append, List.append_assoc, hf, he]

private theorem Hidden.node {key : RuleKey} {data data' : Nat} {left left' : Todo}
    (es : Int → List Event) (hn : 0 < nested) (hlevel : depth + nested ≤ level)
    (h : ∀ nested level, 0 < nested → depth + nested ≤ level →
      Hidden depth index value nested (es level)) :
    Hidden depth index value nested
      (.enter (m.use key data) (m.depthInside key level) left ::
        (es (m.depthInside key level) ++
          [.leave (m.use key data') (m.depthInside key level) left'])) := by
  intro trace
  simp only [List.reverse_cons, List.reverse_append, List.reverse_nil, List.nil_append,
    List.append_assoc, List.cons_append, Machine.depthInside, Machine.use]
  rcases m.isTransitional key with _ | _
  · have hdeeper : depth < level + 1 := by omega
    have hnot : ¬level + 1 ≤ depth := by omega
    have hback : nested + 1 - 1 = nested := by omega
    simp only [unifies, Bool.false_eq_true, if_false, Bool.not_false, Bool.true_and,
      decide_eq_true_eq, if_pos hdeeper]
    rw [h (nested + 1) (level + 1) (by omega) (by omega)]
    simp only [unifies, Bool.false_eq_true, if_false, if_neg hnot, hback]
  · simp only [unifies, if_true, Bool.not_true, Bool.false_and, Bool.false_eq_true, if_false]
    rw [h nested level hn hlevel]
    simp only [unifies, if_true]

private theorem Hidden.inTurn {ds : List Derivation} {es : List Event}
    (hes : Derivation.InTurn m level ds es)
    (h : ∀ d ∈ ds, ∀ todo, Hidden depth index value nested (d.linearize m level todo)) :
    Hidden depth index value nested es := by
  induction hes with
  | nil => exact fun _ => rfl
  | cons todo _ ih =>
    exact (h _ List.mem_cons_self todo).append (ih fun c hc => h c (List.mem_cons_of_mem _ hc))

/-- Inside a finished use of a declared rule, a scan passes over the events of a derivation. -/
private theorem hidden_linearize (d : Derivation) {todo : Todo} (hn : 0 < nested)
    (hlevel : depth + nested ≤ level) :
    Hidden depth index value nested (d.linearize m level todo) := by
  induction d generalizing level nested todo with
  | token key t =>
    intro trace
    have hnot : ¬nested ≤ 0 := by omega
    simp [Derivation.linearize, unifies, hnot]
  | concatenation key parts ih =>
    exact Hidden.node (fun level => Derivation.linearizeAll m level _ parts) hn hlevel
      fun nested level hn hlevel =>
        Hidden.inTurn (Derivation.inTurn_linearizeAll _ _ _) fun d hd todo => ih d hd hn hlevel
  | choice key i part ih =>
    exact Hidden.node (fun level => part.linearize m level _) hn hlevel
      fun nested level hn hlevel => ih hn hlevel
  | repetition key parts ih =>
    exact Hidden.node (fun level => Derivation.linearizeTimes m key level _ 0 parts) hn hlevel
      fun nested level hn hlevel =>
        Hidden.inTurn (Derivation.inTurn_linearizeTimes _ _ _ _ _) fun d hd todo => ih d hd hn hlevel

/-! ## Events that show their tokens -/

/-- Whether the test allows a value beside a token. -/
private def MatchedToken.allows (index : Nat) (value : String) (t : MatchedToken) : Bool :=
  !(t.unification == some index && t.value != value)

/-- Events in which a scan sees exactly some tokens. -/
private def Shows (depth : Int) (index : Nat) (value : String) (ts : List MatchedToken)
    (es : List Event) : Prop :=
  ∀ trace, unifies depth index value 0 (es.reverse ++ trace) =
    (ts.all (MatchedToken.allows index value) && unifies depth index value 0 trace)

private theorem Shows.append {ts us : List MatchedToken} {es fs : List Event}
    (he : Shows depth index value ts es) (hf : Shows depth index value us fs) :
    Shows depth index value (ts ++ us) (es ++ fs) := by
  intro trace
  rw [List.reverse_append, List.append_assoc, hf, he, List.all_append, ← Bool.and_assoc,
    Bool.and_comm (us.all _)]

private theorem Shows.node {key : RuleKey} {data data' : Nat} {left left' : Todo}
    {ts : List MatchedToken} (es : Int → List Event) (h : Shows depth index value ts (es depth))
    (h' : Hidden depth index value 1 (es (depth + 1))) :
    Shows depth index value (if m.isTransitional key then ts else [])
      (.enter (m.use key data) (m.depthInside key depth) left ::
        (es (m.depthInside key depth) ++
          [.leave (m.use key data') (m.depthInside key depth) left'])) := by
  intro trace
  simp only [List.reverse_cons, List.reverse_append, List.reverse_nil, List.nil_append,
    List.append_assoc, List.cons_append, Machine.depthInside, Machine.use]
  rcases m.isTransitional key with _ | _
  · have hdeeper : depth < depth + 1 := by omega
    have hnot : ¬depth + 1 ≤ depth := by omega
    simp only [unifies, Bool.false_eq_true, if_false, Bool.not_false, Bool.true_and,
      decide_eq_true_eq, if_pos hdeeper, Int.zero_add, List.all_nil]
    rw [h']
    simp only [unifies, Bool.false_eq_true, if_false, if_neg hnot, Int.sub_self]
  · simp only [unifies, if_true, Bool.not_true, Bool.false_and, Bool.false_eq_true, if_false]
    rw [h]
    simp only [unifies, if_true]

private theorem Shows.inTurn {ds : List Derivation} {es : List Event}
    (hes : Derivation.InTurn m depth ds es)
    (h : ∀ d ∈ ds, ∀ todo, Shows depth index value (d.direct m) (d.linearize m depth todo)) :
    Shows depth index value (Derivation.directAll m ds) es := by
  induction hes with
  | nil => exact fun _ => rfl
  | cons todo _ ih =>
    exact (h _ List.mem_cons_self todo).append (ih fun c hc => h c (List.mem_cons_of_mem _ hc))

/-- At its own depth, a scan sees of a derivation the tokens that belong to the rule around. -/
private theorem shows_linearize (d : Derivation) {todo : Todo} :
    Shows depth index value (d.direct m) (d.linearize m depth todo) := by
  induction d generalizing todo with
  | token key t =>
    intro trace
    show unifies depth index value 0 (.token (m.matched key t) :: trace) =
      ([m.matched key t].all (MatchedToken.allows index value) && _)
    rw [unifies]
    simp only [Int.le_refl, decide_true, Bool.true_and, List.all_cons, List.all_nil, Bool.and_true,
      MatchedToken.allows]
    rcases (m.matched key t).unification == some index && (m.matched key t).value != value
      with _ | _ <;> rfl
  | concatenation key parts ih =>
    have hturn (level : Int) (todo : Todo) := Derivation.inTurn_linearizeAll (m := m) parts level todo
    exact Shows.node (fun level => Derivation.linearizeAll m level _ parts)
      (Shows.inTurn (hturn _ _) fun d hd todo => ih d hd)
      (Hidden.inTurn (hturn _ _) fun d hd todo => hidden_linearize d (by omega) (by omega))
  | choice key i part ih =>
    exact Shows.node (fun level => part.linearize m level _) ih
      (hidden_linearize part (by omega) (by omega))
  | repetition key parts ih =>
    have hturn (level : Int) (todo : Todo) :=
      Derivation.inTurn_linearizeTimes (m := m) parts key level todo 0
    exact Shows.node (fun level => Derivation.linearizeTimes m key level _ 0 parts)
      (Shows.inTurn (hturn _ _) fun d hd todo => ih d hd)
      (Hidden.inTurn (hturn _ _) fun d hd todo => hidden_linearize d (by omega) (by omega))

/-! ## The tokens seen -/

/-- The test sees some tokens, which agree with each other, in events at a depth. -/
structure Sees (trace : List Event) (depth : Int) (seen : List MatchedToken) : Prop where
  consistent : Consistent seen
  unifies_iff : ∀ index value, unifies depth index value 0 trace = true ↔
    ∀ t ∈ seen, t.unification = some index → t.value = value

/-- Nothing is seen where no event is. -/
theorem sees_nil (depth : Int) : Sees [] depth [] :=
  ⟨List.Pairwise.nil, fun _ _ => by simp [unifies]⟩

namespace Machine

/-- A derivation whose tokens pass the test after those seen in the rule around it. -/
def Admits (m : Machine) (seen : List MatchedToken) (d : Derivation) : Prop :=
  Consistent (seen ++ d.direct m) ∧ ∀ scope ∈ d.scopes m, Consistent scope

/-- Derivations whose tokens pass the test one after the other. -/
def AdmitsAll (m : Machine) (seen : List MatchedToken) (ds : List Derivation) : Prop :=
  Consistent (seen ++ Derivation.directAll m ds) ∧
    ∀ scope ∈ Derivation.scopesAll m ds, Consistent scope

/-- The tokens seen inside the use of a rule at its beginning. -/
def seenInside (m : Machine) (key : RuleKey) (seen : List MatchedToken) : List MatchedToken :=
  if m.isTransitional key then seen else []

theorem admits_nil_iff {d : Derivation} : m.Admits [] d ↔ m.Unified d := by
  simp [Admits, Unified]

theorem admitsAll_nil {seen : List MatchedToken} (h : Consistent seen) : m.AdmitsAll seen [] := by
  simpa [AdmitsAll, Derivation.directAll, Derivation.scopesAll] using h

theorem admitsAll_cons_iff {seen : List MatchedToken} {d : Derivation} {ds : List Derivation} :
    m.AdmitsAll seen (d :: ds) ↔ m.Admits seen d ∧ m.AdmitsAll (seen ++ d.direct m) ds := by
  simp only [AdmitsAll, Admits, Derivation.directAll, Derivation.scopesAll, List.mem_append,
    List.append_assoc]
  constructor
  · rintro ⟨hdirect, hscopes⟩
    refine ⟨⟨?_, fun s hs => hscopes s (.inl hs)⟩, hdirect, fun s hs => hscopes s (.inr hs)⟩
    rw [← List.append_assoc] at hdirect
    exact (List.pairwise_append.1 hdirect).1
  · rintro ⟨⟨-, hhead⟩, hdirect, htail⟩
    exact ⟨hdirect, fun s hs => hs.elim (hhead s) (htail s)⟩

theorem admits_concatenation_iff {seen : List MatchedToken} {key : RuleKey}
    {parts : List Derivation} (h : Consistent seen) :
    m.Admits seen (.concatenation key parts) ↔ m.AdmitsAll (m.seenInside key seen) parts := by
  unfold Admits AdmitsAll seenInside
  rw [Derivation.direct, Derivation.scopes]
  split <;> simp [h]

theorem admits_choice_iff {seen : List MatchedToken} {key : RuleKey} {i : Nat}
    {part : Derivation} (h : Consistent seen) :
    m.Admits seen (.choice key i part) ↔ m.Admits (m.seenInside key seen) part := by
  unfold Admits seenInside
  rw [Derivation.direct, Derivation.scopes]
  split <;> simp [h]

theorem admits_repetition_iff {seen : List MatchedToken} {key : RuleKey}
    {parts : List Derivation} (h : Consistent seen) :
    m.Admits seen (.repetition key parts) ↔ m.AdmitsAll (m.seenInside key seen) parts := by
  unfold Admits AdmitsAll seenInside
  rw [Derivation.direct, Derivation.scopes]
  split <;> simp [h]

/-- A token passes the test if it is consistent with those seen. -/
theorem admits_token_iff {seen : List MatchedToken} {trace : List Event} {key : RuleKey}
    {t : Token} (h : Sees trace depth seen) :
    m.Admits seen (.token key t) ↔
      ∀ index ∈ (m.matched key t).unification, unifies depth index t.value 0 trace = true := by
  simp only [Admits, Derivation.direct, Derivation.scopes, Consistent, List.pairwise_append,
    List.not_mem_nil, false_imp_iff, implies_true, and_true, List.pairwise_singleton, true_and,
    List.mem_singleton, forall_eq, Option.mem_def]
  constructor
  · rintro ⟨-, hagree⟩ index hindex
    exact (h.unifies_iff index t.value).2 fun u hu hui => hagree u hu index hui hindex
  · intro htest
    refine ⟨h.consistent, ?_⟩
    intro u hu index hui hindex
    exact (h.unifies_iff index t.value).1 (htest index hindex) u hu hui

end Machine

namespace Sees

variable {trace : List Event} {seen : List MatchedToken}

private theorem all_allows_iff {ts : List MatchedToken} :
    ts.all (MatchedToken.allows index value) = true ↔
      ∀ t ∈ ts, t.unification = some index → t.value = value := by
  simp only [MatchedToken.allows, List.all_eq_true, Bool.not_eq_true', Bool.and_eq_false_iff,
    beq_eq_false_iff_ne, bne_eq_false_iff_eq]
  exact forall₂_congr fun t _ => Decidable.imp_iff_not_or.symm

/-- After the events of a derivation, the test sees the derivation's own tokens as well. -/
theorem linearize {d : Derivation} {todo : Todo} (h : Sees trace depth seen)
    (hd : m.Admits seen d) :
    Sees ((d.linearize m depth todo).reverse ++ trace) depth (seen ++ d.direct m) := by
  refine ⟨hd.1, ?_⟩
  intro index value
  rw [shows_linearize d trace, Bool.and_eq_true, all_allows_iff, h.unifies_iff]
  simp only [List.mem_append]
  constructor
  · rintro ⟨hnew, hold⟩ t ht
    exact ht.elim (hold t) (hnew t)
  · intro hall
    exact ⟨fun t ht => hall t (.inr ht), fun t ht => hall t (.inl ht)⟩

/-- After the events of some derivations, the test sees the tokens of all of them. -/
theorem inTurn {ds : List Derivation} {es : List Event} (hes : Derivation.InTurn m depth ds es)
    (h : Sees trace depth seen) (hds : m.AdmitsAll seen ds) :
    Sees (es.reverse ++ trace) depth (seen ++ Derivation.directAll m ds) := by
  induction hes generalizing trace seen with
  | nil => simpa [Derivation.directAll] using h
  | cons todo _ ih =>
    rcases Machine.admitsAll_cons_iff.1 hds with ⟨hd, hrest⟩
    rw [Derivation.directAll, List.reverse_append, List.append_assoc, ← List.append_assoc seen]
    exact ih (h.linearize hd) hrest

/-- At the beginning of a use of a rule, the test sees what it saw before, or nothing. -/
theorem enter {key : RuleKey} {data : Nat} {left : Todo} (h : Sees trace depth seen) :
    Sees (.enter (m.use key data) (m.depthInside key depth) left :: trace)
      (m.depthInside key depth) (m.seenInside key seen) := by
  unfold Machine.depthInside Machine.seenInside Machine.use
  rcases m.isTransitional key with _ | _
  · refine ⟨List.Pairwise.nil, ?_⟩
    intro index value
    simp [unifies]
  · refine ⟨h.consistent, ?_⟩
    intro index value
    simpa [unifies] using h.unifies_iff index value

end Sees

end Descent
