import Descent.Proofs.Search.Unification

/-!
# Beginnings of derivations

A derivation is made from left to right.  Its beginning up to some place is whole on the left of the
place: of the rules whose use has not ended there, it holds the parts that are whole, and at last the
beginning of one part.

Main results:

- `Beginning` is a derivation up to some place, and `Machine.Starts` says that it is as the rules allow.
- `Machine.DerivesPart` says that a beginning of a rule matches some tokens, with unification.
- `Beginning.linearize` lists the events up to the place.
-/

namespace Descent

/-- Whether a derivation is the match of a token. -/
def Derivation.isToken : Derivation → Bool
  | token _ _ => true
  | _ => false

/-- A derivation up to some place. -/
inductive Beginning where
  /-- Nothing of a rule yet. -/
  | nothing (rule : RuleKey)
  /-- All parts of a derivation, at the place before its use ends. -/
  | unclosed (d : Derivation)
  | whole (d : Derivation)
  /-- The parts that are whole, the beginning of the next one, and the rules of those to come later. -/
  | concatenation (rule : RuleKey) (done : List Derivation) (part : Beginning)
    (later : List RuleKey)
  | choice (rule : RuleKey) (index : Nat) (part : Beginning)
  /-- The passes that are whole, and the beginning of the next one. -/
  | repetition (rule : RuleKey) (done : List Derivation) (part : Beginning)

namespace Beginning

/-- The rule that a beginning is one of. -/
def rule : Beginning → RuleKey
  | nothing rule | concatenation rule _ _ _ | choice rule _ _ | repetition rule _ _ => rule
  | unclosed d | whole d => d.rule

/-- The tokens that a beginning matches. -/
def yield : Beginning → List Token
  | nothing _ => []
  | unclosed d | whole d => d.yield
  | concatenation _ done part _ | repetition _ done part =>
    Derivation.yieldAll done ++ part.yield
  | choice _ _ part => part.yield

/-- The tokens of a beginning that belong to the use of a declared rule around it. -/
def direct (m : Machine) : Beginning → List MatchedToken
  | nothing _ => []
  | unclosed d | whole d => d.direct m
  | concatenation key done part _ | repetition key done part =>
    if m.isTransitional key then Derivation.directAll m done ++ part.direct m else []
  | choice key _ part => if m.isTransitional key then part.direct m else []

/-- The uses of declared rules inside a beginning, ended or not, each with the tokens that belong to
it. -/
def scopes (m : Machine) : Beginning → List (List MatchedToken)
  | nothing _ => []
  | unclosed d | whole d => d.scopes m
  | concatenation key done part _ | repetition key done part =>
    if m.isTransitional key then Derivation.scopesAll m done ++ part.scopes m
    else (Derivation.directAll m done ++ part.direct m) ::
      (Derivation.scopesAll m done ++ part.scopes m)
  | choice key _ part =>
    if m.isTransitional key then part.scopes m else part.direct m :: part.scopes m

/-- The events of a beginning at a depth, with the steps that are left to do after its rule. -/
def linearize (m : Machine) (depth : Int) (todo : Todo) : Beginning → List Event
  | nothing _ => []
  | unclosed d => (d.linearize m depth todo).dropLast
  | whole d => d.linearize m depth todo
  | concatenation key done part later =>
    let inner := m.depthInside key depth
    let left := todo.push (.leave (m.use key 0) false)
    .enter (m.use key 0) inner .empty ::
      (Derivation.linearizeAll m inner (m.plannedAll left (part.rule :: later)) done ++
        part.linearize m inner (m.plannedAll left later))
  | choice key index part =>
    let inner := m.depthInside key depth
    let left := todo.push (.leave (m.use key 0) false)
    .enter (m.use key index) inner left :: part.linearize m inner left
  | repetition key done part =>
    let inner := m.depthInside key depth
    .enter (m.use key (m.leastPasses key)) inner .empty ::
      (Derivation.linearizeTimes m key inner todo 0 done ++
        part.linearize m inner (m.passesLeft key part.rule todo (done.length + 1)))

end Beginning

namespace Machine

/-- Whether every node of a beginning is as the body of its rule allows. -/
inductive Starts (m : Machine) : Beginning → Prop
  | nothing (key : RuleKey) : Starts m (.nothing key)
  | unclosed {d : Derivation} (h : m.Fits d) (hd : d.isToken = false) : Starts m (.unclosed d)
  | whole {d : Derivation} (h : m.Fits d) : Starts m (.whole d)
  | concatenation {key : RuleKey} {r : Rule} {children later : List RuleKey}
      {done : List Derivation} {part : Beginning} (hr : m.rules.get? key = some r)
      (hbody : r.body = .concatenation children)
      (hrules : done.map Derivation.rule ++ part.rule :: later = children)
      (hdone : ∀ d ∈ done, m.Fits d) (hpart : Starts m part) :
      Starts m (.concatenation key done part later)
  | choice {key : RuleKey} {r : Rule} {children : List RuleKey} {index : Nat} {part : Beginning}
      (hr : m.rules.get? key = some r) (hbody : r.body = .choice children)
      (hrule : children[index]? = some part.rule) (hpart : Starts m part) :
      Starts m (.choice key index part)
  | repetition {key : RuleKey} {r : Rule} {bounds : Bounds} {done : List Derivation}
      {part : Beginning} (hr : m.rules.get? key = some r)
      (hbody : r.body = .repetition bounds part.rule) (hrules : ∀ d ∈ done, d.rule = part.rule)
      (hmax : bounds.admits (done.length + 1) = true) (hdone : ∀ d ∈ done, m.Fits d)
      (hpart : Starts m part) : Starts m (.repetition key done part)

/-- Every token of a beginning passes the test against those matched before it in the same use of a
declared rule. -/
def UnifiedPart (m : Machine) (b : Beginning) : Prop :=
  Consistent (b.direct m) ∧ ∀ scope ∈ b.scopes m, Consistent scope

/-- The beginning of a derivation of a rule that matches some tokens. -/
structure DerivesPart (m : Machine) (root : RuleKey) (ts : List Token) (b : Beginning) : Prop where
  rule_eq : b.rule = root
  starts : m.Starts b
  yield_eq : b.yield = ts
  unified : m.UnifiedPart b

/-- A beginning whose tokens pass the test after those seen in the rule around it. -/
def AdmitsPart (m : Machine) (seen : List MatchedToken) (b : Beginning) : Prop :=
  Consistent (seen ++ b.direct m) ∧ ∀ scope ∈ b.scopes m, Consistent scope

variable {m : Machine} {seen : List MatchedToken} {key : RuleKey} {done : List Derivation}
  {part : Beginning}

theorem admitsPart_nil_iff {b : Beginning} : m.AdmitsPart [] b ↔ m.UnifiedPart b := by
  simp [AdmitsPart, UnifiedPart]

/-- The beginning of a part passes the test after the parts that are whole. -/
def AdmitsUpTo (m : Machine) (seen : List MatchedToken) (done : List Derivation)
    (part : Beginning) : Prop :=
  m.AdmitsAll seen done ∧ m.AdmitsPart (seen ++ Derivation.directAll m done) part

private theorem admitsUpTo_iff :
    m.AdmitsUpTo seen done part ↔
      Consistent (seen ++ (Derivation.directAll m done ++ part.direct m)) ∧
        ∀ scope ∈ Derivation.scopesAll m done ++ part.scopes m, Consistent scope := by
  simp only [AdmitsUpTo, AdmitsAll, AdmitsPart, List.mem_append, List.append_assoc]
  constructor
  · rintro ⟨⟨-, hdone⟩, hdirect, hpart⟩
    exact ⟨hdirect, fun s hs => hs.elim (hdone s) (hpart s)⟩
  · rintro ⟨hdirect, hscopes⟩
    have hfront := hdirect
    rw [← List.append_assoc] at hfront
    exact ⟨⟨(List.pairwise_append.1 hfront).1, fun s hs => hscopes s (.inl hs)⟩, hdirect,
      fun s hs => hscopes s (.inr hs)⟩

theorem admitsPart_concatenation_iff {later : List RuleKey} (h : Consistent seen) :
    m.AdmitsPart seen (.concatenation key done part later) ↔
      m.AdmitsUpTo (m.seenInside key seen) done part := by
  rw [admitsUpTo_iff, AdmitsPart, Beginning.direct, Beginning.scopes, seenInside]
  split <;> simp [h]

theorem admitsPart_choice_iff {index : Nat} (h : Consistent seen) :
    m.AdmitsPart seen (.choice key index part) ↔ m.AdmitsPart (m.seenInside key seen) part := by
  rw [AdmitsPart, AdmitsPart, Beginning.direct, Beginning.scopes, seenInside]
  split <;> simp [h]

theorem admitsPart_repetition_iff (h : Consistent seen) :
    m.AdmitsPart seen (.repetition key done part) ↔
      m.AdmitsUpTo (m.seenInside key seen) done part := by
  rw [admitsUpTo_iff, AdmitsPart, Beginning.direct, Beginning.scopes, seenInside]
  split <;> simp [h]

end Machine

end Descent
