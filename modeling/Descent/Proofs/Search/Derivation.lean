import Descent.Search.Run

/-!
# Derivations

A derivation tells how a rule matches a stretch of tokens: which alternative each choice takes, and
how many passes each repetition makes.  It is what a search looks for, said without the steps and
the going back of a search.

Main results:

- `Machine.Derives` says that a derivation of a rule matches some tokens.
- `Derivation.decisions` orders derivations: the one whose decisions come first in lexicographic
  order is the one to be preferred.
- `Derivation.linearize` is the list of events that a derivation stands for, and `Derivation.InTurn`
  says of events that they are those of some derivations.
- `Machine.Fits.unique`: no two derivations of a rule over one text decide alike.
-/

namespace Descent

/-- How a rule matches a stretch of tokens. -/
inductive Derivation where
  | token (rule : RuleKey) (t : Token)
  | concatenation (rule : RuleKey) (parts : List Derivation)
  /-- The alternative with the given number, counted from zero. -/
  | choice (rule : RuleKey) (index : Nat) (part : Derivation)
  /-- One part for every pass. -/
  | repetition (rule : RuleKey) (parts : List Derivation)

namespace Derivation

/-- Induction over derivations, with the parts of a node taken together. -/
@[elab_as_elim, induction_eliminator]
theorem induct {motive : Derivation → Prop} (token : ∀ rule t, motive (.token rule t))
    (concatenation :
      ∀ rule parts, (∀ d ∈ parts, motive d) → motive (.concatenation rule parts))
    (choice : ∀ rule index part, motive part → motive (.choice rule index part))
    (repetition : ∀ rule parts, (∀ d ∈ parts, motive d) → motive (.repetition rule parts))
    (d : Derivation) : motive d := by
  refine @Derivation.rec motive (fun ds => ∀ d ∈ ds, motive d) token concatenation choice
    repetition ?_ ?_ d
  · intro d hd
    cases hd
  · intro head tail hhead htail d hd
    rcases List.mem_cons.1 hd with rfl | hd
    · exact hhead
    · exact htail d hd

/-- The rule that a derivation is one of. -/
def rule : Derivation → RuleKey
  | token rule _ | concatenation rule _ | choice rule _ _ | repetition rule _ => rule

@[simp]
theorem rule_token (key : RuleKey) (t : Token) : (token key t).rule = key :=
  rfl

@[simp]
theorem rule_concatenation (key : RuleKey) (parts : List Derivation) :
    (concatenation key parts).rule = key :=
  rfl

@[simp]
theorem rule_choice (key : RuleKey) (index : Nat) (part : Derivation) :
    (choice key index part).rule = key :=
  rfl

@[simp]
theorem rule_repetition (key : RuleKey) (parts : List Derivation) :
    (repetition key parts).rule = key :=
  rfl

mutual

/-- The tokens that a derivation matches. -/
def yield : Derivation → List Token
  | token _ t => [t]
  | concatenation _ parts | repetition _ parts => yieldAll parts
  | choice _ _ part => yield part

/-- The tokens that some derivations match one after the other. -/
def yieldAll : List Derivation → List Token
  | [] => []
  | d :: rest => yield d ++ yieldAll rest

end

end Derivation

/-! ## Derivations of a table of rules -/

namespace Machine

/-- Whether a rule is only a part of another one's body. -/
def isTransitional (m : Machine) (key : RuleKey) : Bool :=
  match m.rules.get? key with
  | some r => r.transitional
  | none => false

/-- The use of a rule as a search plans it. -/
def use (m : Machine) (key : RuleKey) (data : Nat) : Call :=
  ⟨key, data, m.isTransitional key⟩

/-- The least number of passes of a repetition. -/
def leastPasses (m : Machine) (key : RuleKey) : Nat :=
  match m.rules.get? key with
  | some r =>
    match r.body with
    | .repetition bounds _ => bounds.min
    | _ => 0
  | none => 0

/-- What the event of a token says when a rule matches it. -/
def matched (m : Machine) (key : RuleKey) (t : Token) : MatchedToken :=
  let (unification, kept) :=
    match m.rules.get? key with
    | some ⟨_, .token _ unification kept, _, _, _⟩ => (unification, kept)
    | _ => (none, true)
  ⟨key, t.kind, t.value, t.space, (m.lexicon.representation? t.space t.kind).getD "", unification,
    kept⟩

/-- Whether every node of a derivation is as the body of its rule allows. -/
inductive Fits (m : Machine) : Derivation → Prop
  | token {key : RuleKey} {r : Rule} {kind : String} {unification : Option Nat} {kept : Bool}
      {t : Token} (hr : m.rules.get? key = some r)
      (hbody : r.body = .token kind unification kept) (hkind : t.kind = kind) :
      Fits m (.token key t)
  | concatenation {key : RuleKey} {r : Rule} {children : List RuleKey} {parts : List Derivation}
      (hr : m.rules.get? key = some r) (hbody : r.body = .concatenation children)
      (hrules : parts.map Derivation.rule = children) (hparts : ∀ d ∈ parts, Fits m d) :
      Fits m (.concatenation key parts)
  | choice {key : RuleKey} {r : Rule} {children : List RuleKey} {index : Nat}
      {part : Derivation} (hr : m.rules.get? key = some r)
      (hbody : r.body = .choice children) (hrule : children[index]? = some part.rule)
      (hpart : Fits m part) : Fits m (.choice key index part)
  | repetition {key : RuleKey} {r : Rule} {bounds : Bounds} {child : RuleKey}
      {parts : List Derivation} (hr : m.rules.get? key = some r)
      (hbody : r.body = .repetition bounds child) (hrules : ∀ d ∈ parts, d.rule = child)
      (hmin : bounds.min ≤ parts.length) (hmax : bounds.admits parts.length = true)
      (hparts : ∀ d ∈ parts, Fits m d) : Fits m (.repetition key parts)

end Machine

/-! ## Unification -/

/-- Two tokens of the same index have the same value. -/
def MatchedToken.Agrees (t u : MatchedToken) : Prop :=
  ∀ index, t.unification = some index → u.unification = some index → t.value = u.value

/-- Every token agrees with those before it. -/
def Consistent (ts : List MatchedToken) : Prop :=
  ts.Pairwise MatchedToken.Agrees

namespace Derivation

mutual

/-- The tokens of a derivation that belong to the use of a declared rule around it. -/
def direct (m : Machine) : Derivation → List MatchedToken
  | token key t => [m.matched key t]
  | concatenation key parts | repetition key parts =>
    if m.isTransitional key then directAll m parts else []
  | choice key _ part => if m.isTransitional key then direct m part else []

/-- The tokens of some derivations that belong to the use of a declared rule around them. -/
def directAll (m : Machine) : List Derivation → List MatchedToken
  | [] => []
  | d :: rest => direct m d ++ directAll m rest

end

mutual

/-- The uses of declared rules inside a derivation, each with the tokens that belong to it. -/
def scopes (m : Machine) : Derivation → List (List MatchedToken)
  | token _ _ => []
  | concatenation key parts | repetition key parts =>
    if m.isTransitional key then scopesAll m parts else directAll m parts :: scopesAll m parts
  | choice key _ part =>
    if m.isTransitional key then scopes m part else direct m part :: scopes m part

/-- The uses of declared rules inside some derivations. -/
def scopesAll (m : Machine) : List Derivation → List (List MatchedToken)
  | [] => []
  | d :: rest => scopes m d ++ scopesAll m rest

end

end Derivation

namespace Machine

/-- Every token passes the test against those matched before it in the same use of a declared
rule. -/
def Unified (m : Machine) (d : Derivation) : Prop :=
  Consistent (d.direct m) ∧ ∀ scope ∈ d.scopes m, Consistent scope

/-- A derivation of a rule that matches some tokens. -/
structure Derives (m : Machine) (root : RuleKey) (ts : List Token) (d : Derivation) : Prop where
  rule_eq : d.rule = root
  fits : m.Fits d
  yield_eq : d.yield = ts
  unified : m.Unified d

end Machine

/-! ## Order -/

namespace Derivation

/-- The mark of a pass beyond those that are due. -/
def passMark (due : Nat) : List Bool :=
  if due = 0 then [true] else []

mutual

/-- What a derivation decides, from left to right: `true` passes over a possibility and `false`
takes it.  The possibilities of a choice are its alternatives in order; those of a repetition, once
it has made the passes that are due, are to end and to make one more pass. -/
def decisions (m : Machine) : Derivation → List Bool
  | token _ _ => []
  | concatenation _ parts => decisionsAll m parts
  | choice _ index part => List.replicate index true ++ false :: decisions m part
  | repetition key parts => decisionsTimes m (m.leastPasses key) parts

/-- What some derivations decide one after the other. -/
def decisionsAll (m : Machine) : List Derivation → List Bool
  | [] => []
  | d :: rest => decisions m d ++ decisionsAll m rest

/-- What the passes of a repetition decide when some more are due. -/
def decisionsTimes (m : Machine) (due : Nat) : List Derivation → List Bool
  | [] => [false]
  | d :: rest => passMark due ++ (decisions m d ++ decisionsTimes m (due - 1) rest)

end

end Derivation

/-! ## Events -/

namespace Machine

/-- The depth inside the use of a rule. -/
def depthInside (m : Machine) (key : RuleKey) (depth : Int) : Int :=
  if m.isTransitional key then depth else depth + 1

/-- The steps to do with a whole use of a rule before them. -/
def planned (m : Machine) (todo : Todo) (key : RuleKey) : Todo :=
  (todo.push (.leave (m.use key 0) false)).push (.enter (m.use key 0))

/-- The steps to do with whole uses of some rules before them, the first rule first. -/
def plannedAll (m : Machine) (todo : Todo) (keys : List RuleKey) : Todo :=
  keys.foldr (fun key todo => m.planned todo key) todo

/-- The steps to do in a repetition when `made` passes have begun. -/
def passesLeft (m : Machine) (key child : RuleKey) (todo : Todo) (made : Nat) : Todo :=
  let least := m.leastPasses key
  m.plannedAll (todo.push (.leave (m.use key (max least made)) true))
    (List.replicate (least - made) child)

end Machine

namespace Derivation

mutual

/-- The events of a derivation at a depth, with the steps that are left to do after it. -/
def linearize (m : Machine) (depth : Int) (todo : Todo) : Derivation → List Event
  | token key t => [.token (m.matched key t)]
  | concatenation key parts =>
    let inner := m.depthInside key depth
    let left := todo.push (.leave (m.use key 0) false)
    .enter (m.use key 0) inner .empty ::
      (linearizeAll m inner left parts ++ [.leave (m.use key 0) inner .empty])
  | choice key index part =>
    let inner := m.depthInside key depth
    let left := todo.push (.leave (m.use key 0) false)
    .enter (m.use key index) inner left ::
      (linearize m inner left part ++ [.leave (m.use key 0) inner .empty])
  | repetition key parts =>
    let inner := m.depthInside key depth
    .enter (m.use key (m.leastPasses key)) inner .empty ::
      (linearizeTimes m key inner todo 0 parts ++ [.leave (m.use key parts.length) inner todo])

/-- The events of some derivations one after the other. -/
def linearizeAll (m : Machine) (depth : Int) (todo : Todo) : List Derivation → List Event
  | [] => []
  | d :: rest =>
    linearize m depth (m.plannedAll todo (rest.map rule)) d ++ linearizeAll m depth todo rest

/-- The events of the passes of a repetition after some that were made. -/
def linearizeTimes (m : Machine) (key : RuleKey) (depth : Int) (todo : Todo) (made : Nat) :
    List Derivation → List Event
  | [] => []
  | d :: rest =>
    linearize m depth (m.passesLeft key d.rule todo (made + 1)) d ++
      linearizeTimes m key depth todo (made + 1) rest

end

/-- The events of some derivations one after the other, whatever steps each leaves to do. -/
inductive InTurn (m : Machine) (depth : Int) : List Derivation → List Event → Prop
  | nil : InTurn m depth [] []
  | cons {d : Derivation} {ds : List Derivation} {es : List Event} (todo : Todo)
      (hrest : InTurn m depth ds es) : InTurn m depth (d :: ds) (linearize m depth todo d ++ es)

variable {m : Machine}

theorem inTurn_linearizeAll (ds : List Derivation) (depth : Int) (todo : Todo) :
    InTurn m depth ds (linearizeAll m depth todo ds) := by
  induction ds with
  | nil => exact .nil
  | cons d ds ih => exact .cons _ ih

theorem inTurn_linearizeTimes (ds : List Derivation) (key : RuleKey) (depth : Int) (todo : Todo)
    (made : Nat) : InTurn m depth ds (linearizeTimes m key depth todo made ds) := by
  induction ds generalizing made with
  | nil => exact .nil
  | cons d ds ih => exact .cons _ (ih (made + 1))

/-- Something happens in every derivation. -/
theorem linearize_ne_nil (d : Derivation) (depth : Int) (todo : Todo) :
    d.linearize m depth todo ≠ [] := by
  cases d <;> simp [linearize]

theorem InTurn.ne_nil {d : Derivation} {ds : List Derivation} {depth : Int} {es : List Event}
    (h : InTurn m depth (d :: ds) es) : es ≠ [] := by
  cases h with
  | cons todo => exact List.append_ne_nil_of_left_ne_nil (d.linearize_ne_nil depth todo) _

end Derivation

/-! ## Derivations by the body of their rule -/

namespace Machine

namespace Fits

variable {m : Machine} {d : Derivation} {r : Rule}

/-- A derivation is one of a rule that there is. -/
theorem get?_ne_none (h : m.Fits d) : m.rules.get? d.rule ≠ none := by
  cases h with
  | token hr => simp [hr]
  | concatenation hr => simp [hr]
  | choice hr => simp [hr]
  | repetition hr => simp [hr]

/-- A derivation of a rule that matches a token is the leaf of one. -/
theorem eq_token {kind : String} {unification : Option Nat} {kept : Bool} (h : m.Fits d)
    (hr : m.rules.get? d.rule = some r) (hbody : r.body = .token kind unification kept) :
    ∃ t, d = .token d.rule t ∧ t.kind = kind := by
  cases h <;> simp_all

/-- A derivation of a concatenation has a part for every child. -/
theorem eq_concatenation {children : List RuleKey} (h : m.Fits d)
    (hr : m.rules.get? d.rule = some r) (hbody : r.body = .concatenation children) :
    ∃ parts, d = .concatenation d.rule parts ∧ parts.map Derivation.rule = children ∧
      ∀ d ∈ parts, m.Fits d := by
  cases h <;> simp_all

/-- A derivation of a choice has a part for one of its alternatives. -/
theorem eq_choice {children : List RuleKey} (h : m.Fits d)
    (hr : m.rules.get? d.rule = some r) (hbody : r.body = .choice children) :
    ∃ index part, d = .choice d.rule index part ∧ children[index]? = some part.rule ∧
      m.Fits part := by
  cases h with
  | choice hr' hbody' hrule hpart =>
    simp only [Derivation.rule_choice] at hr
    rw [hr'] at hr
    cases hr
    rw [hbody'] at hbody
    cases hbody
    exact ⟨_, _, rfl, hrule, hpart⟩
  | token hr' hbody' => simp_all
  | concatenation hr' hbody' => simp_all
  | repetition hr' hbody' => simp_all

/-- A derivation of a repetition has a part for every pass. -/
theorem eq_repetition {bounds : Bounds} {child : RuleKey} (h : m.Fits d)
    (hr : m.rules.get? d.rule = some r) (hbody : r.body = .repetition bounds child) :
    ∃ parts, d = .repetition d.rule parts ∧ (∀ d ∈ parts, d.rule = child) ∧
      bounds.min ≤ parts.length ∧ bounds.admits parts.length = true ∧ ∀ d ∈ parts, m.Fits d := by
  cases h with
  | repetition hr' hbody' hrules hmin hmax hparts =>
    simp only [Derivation.rule_repetition] at hr
    rw [hr'] at hr
    cases hr
    rw [hbody'] at hbody
    cases hbody
    exact ⟨_, rfl, hrules, hmin, hmax, hparts⟩
  | token hr' hbody' => simp_all
  | concatenation hr' hbody' => simp_all
  | choice hr' hbody' => simp_all

end Fits

theorem leastPasses_eq {m : Machine} {key : RuleKey} {r : Rule} {bounds : Bounds}
    {child : RuleKey} (hr : m.rules.get? key = some r)
    (hbody : r.body = .repetition bounds child) : m.leastPasses key = bounds.min := by
  simp [leastPasses, hr, hbody]

/-! ## Decisions tell derivations apart -/

/-- A derivation can be read off the decisions and the tokens that begin with its own. -/
private def Decodable (m : Machine) (d : Derivation) : Prop :=
  ∀ {e : Derivation} {x y : List Bool} {u v : List Token}, m.Fits e → d.rule = e.rule →
    d.decisions m ++ x = e.decisions m ++ y → d.yield ++ u = e.yield ++ v →
    d = e ∧ x = y ∧ u = v

private theorem decodable_all {m : Machine} {ds es : List Derivation}
    (hds : ∀ d ∈ ds, Decodable m d) (hes : ∀ e ∈ es, m.Fits e)
    (hrules : ds.map Derivation.rule = es.map Derivation.rule) {x y : List Bool}
    {u v : List Token}
    (hdec : Derivation.decisionsAll m ds ++ x = Derivation.decisionsAll m es ++ y)
    (hyield : Derivation.yieldAll ds ++ u = Derivation.yieldAll es ++ v) :
    ds = es ∧ x = y ∧ u = v := by
  induction ds generalizing es with
  | nil =>
    obtain rfl : es = [] := by simpa using hrules.symm
    exact ⟨rfl, hdec, hyield⟩
  | cons d ds ih =>
    rcases es with _ | ⟨e, es⟩
    · cases hrules
    · simp only [List.map_cons, List.cons.injEq] at hrules
      simp only [Derivation.decisionsAll, Derivation.yieldAll, List.append_assoc] at hdec hyield
      have hhead := hds d List.mem_cons_self (hes e List.mem_cons_self) hrules.1 hdec hyield
      have htail := ih (fun c hc => hds c (List.mem_cons_of_mem _ hc))
        (fun c hc => hes c (List.mem_cons_of_mem _ hc)) hrules.2 hhead.2.1 hhead.2.2
      exact ⟨by rw [hhead.1, htail.1], htail.2⟩

private theorem decodable_times {m : Machine} {child : RuleKey} {due : Nat}
    {ds es : List Derivation} (hds : ∀ d ∈ ds, Decodable m d) (hes : ∀ e ∈ es, m.Fits e)
    (hrules : ∀ d ∈ ds, d.rule = child) (hrules' : ∀ e ∈ es, e.rule = child)
    (hdue : due ≤ ds.length) (hdue' : due ≤ es.length) {x y : List Bool} {u v : List Token}
    (hdec : Derivation.decisionsTimes m due ds ++ x = Derivation.decisionsTimes m due es ++ y)
    (hyield : Derivation.yieldAll ds ++ u = Derivation.yieldAll es ++ v) :
    ds = es ∧ x = y ∧ u = v := by
  induction ds generalizing es due with
  | nil =>
    obtain rfl : due = 0 := by simpa using hdue
    rcases es with _ | ⟨e, es⟩
    · exact ⟨rfl, by simpa [Derivation.decisionsTimes] using hdec, hyield⟩
    · simp [Derivation.decisionsTimes, Derivation.passMark] at hdec
  | cons d ds ih =>
    rcases es with _ | ⟨e, es⟩
    · obtain rfl : due = 0 := by simpa using hdue'
      simp [Derivation.decisionsTimes, Derivation.passMark] at hdec
    · simp only [Derivation.decisionsTimes, Derivation.yieldAll, List.append_assoc,
        List.append_cancel_left_eq] at hdec hyield
      have hrule : d.rule = e.rule := by
        rw [hrules d List.mem_cons_self, hrules' e List.mem_cons_self]
      have hhead := hds d List.mem_cons_self (hes e List.mem_cons_self) hrule hdec hyield
      simp only [List.length_cons] at hdue hdue'
      have htail := ih (fun c hc => hds c (List.mem_cons_of_mem _ hc))
        (fun c hc => hes c (List.mem_cons_of_mem _ hc))
        (fun c hc => hrules c (List.mem_cons_of_mem _ hc))
        (fun c hc => hrules' c (List.mem_cons_of_mem _ hc)) (by omega) (by omega)
        hhead.2.1 hhead.2.2
      exact ⟨by rw [hhead.1, htail.1], htail.2⟩

private theorem replicate_true_inj {i j : Nat} {x y : List Bool}
    (h : List.replicate i true ++ false :: x = List.replicate j true ++ false :: y) :
    i = j ∧ x = y := by
  induction i generalizing j with
  | zero =>
    cases j with
    | zero => simpa using h
    | succ j => simp [List.replicate_succ] at h
  | succ i ih =>
    cases j with
    | zero => simp [List.replicate_succ] at h
    | succ j =>
      have := ih (by simpa [List.replicate_succ] using h)
      exact ⟨by rw [this.1], this.2⟩

private theorem Fits.decodable {m : Machine} {d : Derivation} (h : m.Fits d) :
    Decodable m d := by
  induction h with
  | token hr hbody hkind =>
    intro e x y u v he hrule hdec hyield
    simp only [Derivation.rule_token] at hrule
    rcases he.eq_token (hrule ▸ hr) hbody with ⟨t, ht, -⟩
    rw [ht] at hdec hyield ⊢
    simp only [Derivation.yield, List.cons_append, List.nil_append, List.cons.injEq] at hyield
    exact ⟨by rw [hrule, hyield.1], by simpa [Derivation.decisions] using hdec, hyield.2⟩
  | concatenation hr hbody hrules hparts ih =>
    intro e x y u v he hrule hdec hyield
    simp only [Derivation.rule_concatenation] at hrule
    rcases he.eq_concatenation (hrule ▸ hr) hbody with ⟨parts, ht, hrules', hparts'⟩
    rw [ht] at hdec hyield ⊢
    have := decodable_all ih hparts' (hrules.trans hrules'.symm) hdec hyield
    exact ⟨by rw [hrule, this.1], this.2⟩
  | choice hr hbody hchild hpart ih =>
    intro e x y u v he hrule hdec hyield
    simp only [Derivation.rule_choice] at hrule
    rcases he.eq_choice (hrule ▸ hr) hbody with ⟨index, part, ht, hchild', hpart'⟩
    rw [ht] at hdec hyield ⊢
    simp only [Derivation.decisions, List.append_assoc, List.cons_append] at hdec
    rcases replicate_true_inj hdec with ⟨rfl, hrest⟩
    have hsame := Option.some.inj (hchild.symm.trans hchild')
    have := ih hpart' hsame hrest hyield
    exact ⟨by rw [hrule, this.1], this.2⟩
  | repetition hr hbody hrules hmin hmax hparts ih =>
    intro e x y u v he hrule hdec hyield
    simp only [Derivation.rule_repetition] at hrule
    rcases he.eq_repetition (hrule ▸ hr) hbody with ⟨parts, ht, hrules', hmin', -, hparts'⟩
    rw [ht] at hdec hyield ⊢
    rw [← hrule] at hdec
    simp only [Derivation.decisions, leastPasses_eq hr hbody] at hdec
    have := decodable_times ih hparts' hrules hrules' hmin hmin' hdec hyield
    exact ⟨by rw [hrule, this.1], this.2⟩

/-- No two derivations of a rule over one text decide alike. -/
theorem Fits.unique {m : Machine} {d e : Derivation} (hd : m.Fits d) (he : m.Fits e)
    (hrule : d.rule = e.rule) (hdec : d.decisions m = e.decisions m)
    (hyield : d.yield = e.yield) : d = e :=
  (hd.decodable (x := []) (y := []) (u := []) (v := []) he hrule (by rw [hdec])
    (by rw [hyield])).1

end Machine

end Descent
