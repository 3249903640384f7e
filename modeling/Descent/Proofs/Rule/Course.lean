import Descent.Rule.Compilation

/-!
# The course of compiling

What compiling a body goes through if it meets with no error, said without the fuel: which part is
compiled after which, what is made of them, and where a part is missing.

Main results:

- `Compilation.Course` relates what there is to compile, before and after.
- `Compilation.course_of_ok`: compiling without an error takes such a course.
- `Compilation.exists_of_declareBody`: what declaring a rule goes through.
- `Compilation.invariant_of_declareBodies`: what declaring one rule after the other keeps.
-/

namespace Descent

theorem Bounds.eq_of_of? {min : Nat} {max : Option Nat} {b : Bounds}
    (h : Bounds.of? min max = some b) : b.min = min ∧ b.max = max := by
  unfold Bounds.of? at h
  split at h
  · cases h
    exact ⟨rfl, rfl⟩
  · split at h
    · cases h
      exact ⟨rfl, rfl⟩
    · cases h

namespace Compilation

/-- What there is to compile, and the name that waits.  Alternatives and sequences come after those
that are done, the last one first. -/
inductive Task where
  | choice (done : List RuleKey) (pending : Pending)
  | concatenation (done : List RuleKey) (pending : Pending)
  | simple (pending : Pending)

/-- The name that waits when a task begins. -/
def Task.pending : Task → Pending
  | choice _ pending | concatenation _ pending | simple pending => pending

/-- Compiles a task. -/
def Task.compile (s : BodyScope) (fuel : Nat) (c : Compilation) : Task → Compiled
  | choice done pending => Compilation.choice s pending fuel done c
  | concatenation done pending => Compilation.concatenation s fuel done pending c
  | simple pending => Compilation.simple s fuel pending c

/-- What compiling a task comes to without an error: the rule that is made or none, the name that
waits then, and what is left. -/
inductive Course (s : BodyScope) :
    Task → Compilation → Option RuleKey → Pending → Compilation → Prop
  /-- Nothing is compiled for lack of fuel. -/
  | idle (task : Task) (c : Compilation) : Course s task c none task.pending c
  | other {pending : Pending} {c : Compilation} {w : WrittenSign} (hw : c.current s = .ok w)
      (hopening : w.sign ≠ .opening) : Course s (.simple pending) c none pending c
  | token {pending : Pending} {c c₁ : Compilation} {w : WrittenSign} {key : RuleKey}
      {ref : Option (String × Option Nat)} {kept : Bool} (hw : c.current s = .ok w)
      (hsign : w.sign = .token ref kept) (hkey : c.reference s ref kept w.written = .ok (key, c₁)) :
      Course s (.simple pending) c (some key) pending c₁.advance
  | call {pending : Pending} {c c₁ : Compilation} {w : WrittenSign} {key : RuleKey}
      {name : String} (hw : c.current s = .ok w) (hsign : w.sign = .call name)
      (hkey : c.call s name = .ok (key, c₁)) : Course s (.simple pending) c (some key) pending c₁
  | emptyGroup {pending pending₁ : Pending} {c c₁ : Compilation} {w : WrittenSign}
      (hw : c.current s = .ok w) (hopening : w.sign = .opening)
      (hinside : Course s (.choice [] pending) c.advance none pending₁ c₁) :
      Course s (.simple pending) c none pending₁ c₁
  | openGroup {pending pending₁ : Pending} {c c₁ : Compilation} {w w₁ : WrittenSign}
      {key : RuleKey} (hw : c.current s = .ok w) (hopening : w.sign = .opening)
      (hinside : Course s (.choice [] pending) c.advance (some key) pending₁ c₁)
      (hw₁ : c₁.current s = .ok w₁) (hclosing : w₁.sign ≠ .closing) :
      Course s (.simple pending) c none pending₁ c₁
  | group {pending pending₁ : Pending} {c c₁ : Compilation} {w w₁ : WrittenSign} {key : RuleKey}
      (hw : c.current s = .ok w) (hopening : w.sign = .opening)
      (hinside : Course s (.choice [] pending) c.advance (some key) pending₁ c₁)
      (hw₁ : c₁.current s = .ok w₁) (hclosing : w₁.sign = .closing) :
      Course s (.simple pending) c (some key) pending₁ c₁.advance
  | part {done : List RuleKey} {pending pending₁ pending₂ pending₃ : Pending}
      {c c₁ c₂ c₃ : Compilation} {child key : RuleKey} {key? : Option RuleKey}
      (hpart : Course s (.simple pending) c (some child) pending₁ c₁)
      (hafter : c₁.afterPart s child pending₁ = .ok (some key, pending₂, c₂))
      (hrest : Course s (.concatenation (key :: done) pending₂) c₂ key? pending₃ c₃) :
      Course s (.concatenation done pending) c key? pending₃ c₃
  | noPart {pending pending₁ : Pending} {c c₁ : Compilation}
      (hpart : Course s (.simple pending) c none pending₁ c₁) :
      Course s (.concatenation [] pending) c none pending₁ c₁
  | parts {done : List RuleKey} {pending pending₁ : Pending} {c c₁ : Compilation}
      (hpart : Course s (.simple pending) c none pending₁ c₁) (hdone : done ≠ []) :
      Course s (.concatenation done pending) c
        (some (c₁.sequence done.reverse pending₁).1) pending₁
        (c₁.sequence done.reverse pending₁).2
  | noBranch {done : List RuleKey} {pending branchId : Pending} {c c₁ : Compilation}
      (hbranch : Course s (.concatenation [] pending) c none branchId c₁) :
      Course s (.choice done pending) c none pending c₁
  | branch {done : List RuleKey} {pending pending₂ branchId : Pending} {c c₁ c₂ : Compilation}
      {w : WrittenSign} {key : RuleKey} {key? : Option RuleKey}
      (hbranch : Course s (.concatenation [] pending) c (some key) branchId c₁)
      (hw : (c₁.nameWaiting key branchId).current s = .ok w) (hbar : w.sign = .bar)
      (hrest : Course s (.choice (key :: done) pending) (c₁.nameWaiting key branchId).advance key?
        pending₂ c₂) :
      Course s (.choice done pending) c key? pending₂ c₂
  | branches {done : List RuleKey} {pending branchId : Pending} {c c₁ : Compilation}
      {w : WrittenSign} {key : RuleKey}
      (hbranch : Course s (.concatenation [] pending) c (some key) branchId c₁)
      (hw : (c₁.nameWaiting key branchId).current s = .ok w) (hbar : w.sign ≠ .bar) :
      Course s (.choice done pending) c
        (some ((c₁.nameWaiting key branchId).alternatives (key :: done).reverse).1) none
        ((c₁.nameWaiting key branchId).alternatives (key :: done).reverse).2

variable {s : BodyScope} {fuel : Nat} {c c' : Compilation} {pending pending' : Pending}
  {done : List RuleKey} {key? : Option RuleKey}

/-! ## Single steps -/

/-- A reference to a token that goes through is one to a declared kind. -/
theorem exists_of_reference {ref : Option (String × Option Nat)} {kept : Bool} {written : String}
    {key : RuleKey} (h : c.reference s ref kept written = .ok (key, c')) :
    ∃ kind index, ref = some (kind, index) ∧ kind ∈ s.kinds ∧
      (key, c') = c.addPart (.token kind index kept) := by
  unfold reference at h
  split at h
  · cases h
  · rename_i kind index
    split at h
    · rename_i hkind
      exact ⟨kind, index, rfl, by simpa using hkind, (Except.ok.inj h).symm⟩
    · cases h

/-- A call that goes through is one of a declared rule. -/
theorem call_cases {name : String} {key : RuleKey} (h : c.call s name = .ok (key, c')) :
    name ∈ s.names ∧ ((key, c') = c.advance.addPart (.concatenation [.named name]) ∨
      (key, c') = (.named name, c.advance)) := by
  unfold call at h
  split at h
  · rename_i hname
    refine ⟨by simpa using hname, ?_⟩
    split at h
    · exact .inl (Except.ok.inj h).symm
    · exact .inr (Except.ok.inj h).symm
  · cases h

/-- A mark of repetition is read, or there is none. -/
theorem quantifier_cases {numbers : Option (Nat × Option Nat)}
    (h : c.quantifier s = .ok (numbers, c')) :
    numbers = none ∧ c' = c ∨
      ∃ w bounds, c.current s = .ok w ∧ w.sign = .quantifier (some bounds) ∧
        numbers = some bounds ∧ c' = c.advance := by
  unfold quantifier at h
  split at h
  · cases h
  · rename_i w hw
    split at h
    · rename_i bounds hsign
      cases h
      exact .inr ⟨w, bounds, hw, hsign, rfl, rfl⟩
    · cases h
    · cases h
      exact .inl ⟨rfl, rfl⟩

/-- The name of a node is read, or there is none. -/
theorem nodeMark_cases (h : c.nodeMark s pending = .ok (pending', c')) :
    pending' = pending ∧ c' = c ∨
      ∃ w id, c.current s = .ok w ∧ w.sign = .node id ∧ pending' = some id ∧ c' = c.advance := by
  unfold nodeMark at h
  split at h
  · cases h
  · rename_i w hw
    split at h
    · rename_i id hsign
      cases h
      exact .inr ⟨w, id, hw, hsign, rfl, rfl⟩
    · cases h
      exact .inl ⟨rfl, rfl⟩

/-- A part is repeated within bounds that are in order, or stands for itself. -/
theorem repeatPart_cases {child key : RuleKey} {numbers : Option (Nat × Option Nat)}
    (h : c.repeatPart s child numbers = .ok (key, c')) :
    numbers = none ∧ (key, c') = (child, c) ∨
      ∃ bounds : Bounds, numbers = some (bounds.min, bounds.max) ∧
        (key, c') = c.addPart (.repetition bounds child) := by
  unfold repeatPart at h
  split at h
  · exact .inl ⟨rfl, (Except.ok.inj h).symm⟩
  · rename_i min max
    split at h
    · rename_i bounds hbounds
      rcases Bounds.eq_of_of? hbounds with ⟨rfl, rfl⟩
      exact .inr ⟨bounds, rfl, (Except.ok.inj h).symm⟩
    · cases h

/-- What follows a part is a mark of repetition and then the name of a node. -/
theorem exists_of_afterPart {child : RuleKey}
    (h : c.afterPart s child pending = .ok (key?, pending', c')) :
    ∃ numbers c₁ c₂ key, c.quantifier s = .ok (numbers, c₁) ∧
      c₁.nodeMark s pending = .ok (pending', c₂) ∧
      c₂.repeatPart s child numbers = .ok (key, c') ∧ key? = some key := by
  unfold afterPart at h
  split at h
  · cases h
  · rename_i numbers c₁ hquantifier
    split at h
    · cases h
    · rename_i pending₂ c₂ hnode
      split at h
      · cases h
      · rename_i key c₃ hrepeat
        cases h
        exact ⟨numbers, c₁, c₂, key, hquantifier, hnode, hrepeat, rfl⟩

/-! ## Compiling takes its course -/

/-- Compiling with some fuel takes its course. -/
private def Follows (s : BodyScope) (fuel : Nat) : Prop :=
  ∀ (task : Task) {c c' : Compilation} {key? : Option RuleKey} {pending : Pending},
    task.compile s fuel c = .ok (key?, pending, c') → Course s task c key? pending c'

private theorem course_choice (ih : Follows s fuel)
    (h : choice s pending (fuel + 1) done c = .ok (key?, pending', c')) :
    Course s (.choice done pending) c key? pending' c' := by
  unfold choice at h
  split at h
  · cases h
  · rename_i hbranch
    cases h
    exact .noBranch (ih (.concatenation [] pending) hbranch)
  · rename_i key branchId c₁ hbranch
    have hbranch := ih (.concatenation [] pending) hbranch
    dsimp only at h
    split at h
    · cases h
    · rename_i w hw
      split at h
      · rename_i hbar
        exact .branch hbranch hw hbar (ih (.choice (key :: done) pending) h)
      · rename_i hbar
        cases h
        exact .branches hbranch hw hbar

private theorem course_concatenation (ih : Follows s fuel)
    (h : concatenation s (fuel + 1) done pending c = .ok (key?, pending', c')) :
    Course s (.concatenation done pending) c key? pending' c' := by
  unfold concatenation at h
  split at h
  · cases h
  · rename_i child pending₁ c₁ hpart
    have hpart := ih (.simple pending) hpart
    split at h
    · cases h
    · rename_i key pending₂ c₂ hafter
      exact .part hpart hafter (ih (.concatenation (key :: done) pending₂) h)
    · rename_i hafter
      rcases exists_of_afterPart hafter with ⟨_, _, _, _, -, -, -, hkey⟩
      cases hkey
  · rename_i pending₁ c₁ hpart
    have hpart := ih (.simple pending) hpart
    split at h
    · cases h
      exact .noPart hpart
    · rename_i hdone
      cases h
      exact .parts hpart hdone

private theorem course_simple (ih : Follows s fuel)
    (h : simple s (fuel + 1) pending c = .ok (key?, pending', c')) :
    Course s (.simple pending) c key? pending' c' := by
  unfold simple at h
  split at h
  · cases h
  · rename_i w hw
    split at h
    · rename_i hopening
      split at h
      · cases h
      · rename_i hinside
        cases h
        exact .emptyGroup hw hopening (ih (.choice [] pending) hinside)
      · rename_i key pending₁ c₁ hinside
        have hinside := ih (.choice [] pending) hinside
        split at h
        · cases h
        · rename_i w₁ hw₁
          split at h
          · rename_i hclosing
            cases h
            exact .group hw hopening hinside hw₁ hclosing
          · rename_i hclosing
            cases h
            exact .openGroup hw hopening hinside hw₁ hclosing
    · rename_i hsign
      split at h
      · cases h
      · rename_i hkey
        cases h
        exact .token hw hsign hkey
    · rename_i hsign
      split at h
      · cases h
      · rename_i hkey
        cases h
        exact .call hw hsign hkey
    · rename_i hopening _ _
      cases h
      exact .other hw hopening

/-- Compiling without an error takes its course. -/
theorem course_of_ok (task : Task) (h : task.compile s fuel c = .ok (key?, pending, c')) :
    Course s task c key? pending c' := by
  suffices hfollows : ∀ fuel, Follows s fuel from hfollows fuel task h
  intro fuel
  induction fuel with
  | zero =>
    intro task c c' key? pending h
    cases task <;> cases h <;> exact .idle _ _
  | succ fuel ih =>
    intro task c c' key? pending h
    cases task with
    | choice done pending => exact course_choice ih h
    | concatenation done pending => exact course_concatenation ih h
    | simple pending => exact course_simple ih h

theorem course_of_choice (h : choice s pending fuel done c = .ok (key?, pending', c')) :
    Course s (.choice done pending) c key? pending' c' :=
  course_of_ok (.choice done pending) h

end Compilation

/-! ## Declared rules -/

/-- The name that waits at the beginning of the body of a declared rule. -/
def markOf (key : String) : Pending :=
  if isMarked key then some key else none

/-- The rule of a whole body under the declared name. -/
def Rule.declared (r : Rule) (key body : String) : Rule :=
  { r with
    name := .named (bareRuleName key)
    representation := some body
    defaultId := if isMarked key then some (.ofString key) else r.defaultId }

namespace Compilation

variable {s : BodyScope} {rules rules' : RuleTable} {top : RuleKey} {key body : String}
  {counter counter' : Nat}

/-- The rule that is declared is one of the call that the body is, or the rule of the whole body, which
leaves its number. -/
theorem declare_cases (h : declare s rules top key body = .ok rules') :
    (∃ name, top = .named name ∧ rules' = rules.insert (.named (bareRuleName key))
      ((Rule.ofBody top (.concatenation [top])).declared key body)) ∨
    ∃ n r, top = .part n ∧ rules.get? top = some r ∧
      rules' = (rules.erase top).insert (.named (bareRuleName key)) (r.declared key body) := by
  cases top with
  | named name =>
    cases h
    exact .inl ⟨name, rfl, rfl⟩
  | part n =>
    unfold declare at h
    dsimp only at h
    split at h
    · rename_i r hr
      cases h
      exact .inr ⟨n, r, rfl, hr, rfl⟩
    · cases h

/-- A declared body is compiled to its end, and the rule of the whole gets the declared name. -/
theorem exists_of_declareBody (h : declareBody s rules counter key body = .ok (rules', counter')) :
    ∃ top pending c, choice s (markOf key) (4 * (signsOf body).length + 4) []
        ⟨rules, counter, .ofList (signsOf body)⟩ = .ok (some top, pending, c) ∧
      c.expectEnd s = .ok () ∧ declare s c.rules top key body = .ok rules' ∧
      counter' = c.counter := by
  unfold declareBody at h
  dsimp only at h
  split at h
  · cases h
  · cases h
  · rename_i top pending c hchoice
    split at h
    · cases h
    · rename_i hend
      split at h
      · cases h
      · rename_i hdeclare
        cases h
        exact ⟨top, pending, c, hchoice, hend, hdeclare, rfl⟩

section

variable {kinds names : List String} {bodies : List (String × String)}
  (I : List (String × String) → RuleTable → Nat → Prop)
  (hstep : ∀ {front : List (String × String)} {b : String × String} {rules rules' : RuleTable}
    {counter counter' : Nat}, b ∈ bodies → I front rules counter →
    declareBody ⟨kinds, names, bareRuleName b.1⟩ rules counter b.1 b.2 = .ok (rules', counter') →
    I (front ++ [b]) rules' counter')

include hstep

private theorem invariant_of_rest {front : List (String × String)} (h : I front rules counter)
    (hrules : declareBodies kinds names rules counter bodies = .ok rules') :
    ∃ counter', I (front ++ bodies) rules' counter' := by
  induction bodies generalizing front rules counter with
  | nil =>
    cases hrules
    rw [List.append_nil]
    exact ⟨counter, h⟩
  | cons b bodies ih =>
    unfold declareBodies at hrules
    split at hrules
    · cases hrules
    · rename_i hbody
      have hfirst := hstep List.mem_cons_self h hbody
      rcases ih (fun hb => hstep (List.mem_cons_of_mem _ hb)) hfirst hrules with ⟨counter', hlast⟩
      rw [List.append_assoc] at hlast
      exact ⟨counter', hlast⟩

/-- What holds before all bodies, and is kept by declaring each of them after others, holds after all. -/
theorem invariant_of_declareBodies (h : I [] rules counter)
    (hrules : declareBodies kinds names rules counter bodies = .ok rules') :
    ∃ counter', I bodies rules' counter' :=
  invariant_of_rest I hstep h hrules

end

end Compilation

/-- The rules of a grammar come of declaring its bodies one after the other. -/
theorem Grammar.declareBodies_of_rules {g : Grammar} {rules : RuleTable} (h : g.rules = .ok rules) :
    Compilation.declareBodies g.kinds g.ruleNames .empty 0 g.bodies.entries = .ok rules := by
  unfold Grammar.rules at h
  split at h
  · cases h
  · exact h

end Descent
