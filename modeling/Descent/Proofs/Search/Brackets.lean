import Descent.Proofs.Search.Agenda
import Descent.Proofs.Search.Uses
import Descent.Proofs.Tree.Bracketed

/-!
# Brackets of a search

The events of a search open and close the uses of rules like brackets, and the steps to do are to close
those that are open.  So the events, the steps to do, the depth and the place in the text always fit
together, and they still do wherever going back may lead to.

Main results:

- `openBrackets` reads the brackets that are open off some events, and `Machine.pending` reads the uses to
  be ended off the steps to do.
- `Closing.bracketed` and `Closing.exists_enter`: what brackets closed in order are like.
- `Machine.aligned_of_moved`: a move keeps the events and the steps to do aligned.
- `Machine.restored` lists the states that going back leads to.
- `Machine.in_step_of_reaches`: all states that a search reaches, and all that going back from there leads
  to, are in step.
-/

namespace Descent

/-! ## Open brackets -/

/-- The use of a rule that has begun, with the depth noted then and the number of events before. -/
structure Bracket where
  rule : RuleKey
  transitional : Bool
  depth : Int
  place : Nat
  deriving DecidableEq, Repr

/-- What a bracket is the use of. -/
def Bracket.subject (b : Bracket) : RuleKey × Bool :=
  (b.rule, b.transitional)

/-- What a call is the use of. -/
def Call.subject (c : Call) : RuleKey × Bool :=
  (c.rule, c.transitional)

/-- The brackets that are open after some events, the last event first; the innermost bracket first. -/
def openBrackets : List Event → List Bracket
  | [] => []
  | .enter call depth _ :: rest =>
    ⟨call.rule, call.transitional, depth, rest.length⟩ :: openBrackets rest
  | .leave _ _ _ :: rest => (openBrackets rest).tail
  | .token _ :: rest => openBrackets rest

/-- The brackets of declared rules that are open after some events, the innermost first. -/
def openUses (trace : List Event) : List Bracket :=
  (openBrackets trace).filter fun b => !b.transitional

/-- Every event that closes a bracket closes the innermost one that is open, and rules that are entered
are there. -/
def Closing (rules : RuleTable) : List Event → Prop
  | [] => True
  | .enter call _ _ :: rest => rules.get? call.rule ≠ none ∧ Closing rules rest
  | .leave call _ _ :: rest =>
    (∃ b outer, openBrackets rest = b :: outer ∧ b.subject = call.subject) ∧ Closing rules rest
  | .token _ :: rest => Closing rules rest

section

variable {rules : RuleTable} {trace es rest : List Event} {b : Bracket} {outer : List Bracket}
  {call : Call} {depth : Int} {left : Todo} {t : MatchedToken}

@[simp]
theorem openBrackets_enter :
    openBrackets (.enter call depth left :: rest) =
      ⟨call.rule, call.transitional, depth, rest.length⟩ :: openBrackets rest :=
  rfl

@[simp]
theorem openBrackets_leave :
    openBrackets (.leave call depth left :: rest) = (openBrackets rest).tail :=
  rfl

@[simp]
theorem openBrackets_token : openBrackets (.token t :: rest) = openBrackets rest :=
  rfl

theorem Closing.of_suffix (h : Closing rules trace) (hes : es <:+ trace) : Closing rules es := by
  rcases hes with ⟨front, rfl⟩
  induction front with
  | nil => exact h
  | cons e front ih =>
    apply ih
    cases e with
    | enter => exact h.2
    | leave => exact h.2
    | token => exact h

theorem Leveled.of_suffix (h : Leveled trace) (hes : es <:+ trace) : Leveled es := by
  rcases hes with ⟨front, rfl⟩
  induction front with
  | nil => exact h
  | cons e front ih =>
    apply ih
    cases e with
    | enter => exact h.2
    | leave => exact h.2
    | token => exact h

/-- The uses of declared rules around the innermost one are those whose brackets are open. -/
theorem length_around_usesOf (h : Closing rules trace) :
    (usesOf trace).around.length = (openUses trace).length := by
  induction trace with
  | nil => rfl
  | cons e trace ih =>
    cases e with
    | enter call depth left =>
      have ih := ih h.2
      rcases hcall : call.transitional with _ | _
      · simpa [usesOf, openUses, Uses.enter, hcall] using ih
      · simpa [usesOf, openUses, hcall] using ih
    | leave call depth left =>
      have ih := ih h.2
      rcases h.1 with ⟨b, outer, hopen, hsubject⟩
      have hb : b.transitional = call.transitional := congrArg Prod.snd hsubject
      rcases hcall : call.transitional with _ | _
      · rw [hcall] at hb
        have hlength : (usesOf trace).around.length = (outer.filter fun b => !b.transitional).length + 1 := by
          simpa [openUses, hopen, hb] using ih
        rcases Uses.leave_eq hlength with ⟨use, around, -, haround, hleave⟩
        simpa [usesOf, openUses, hcall, hopen, hleave] using haround
      · rw [hcall] at hb
        simpa [usesOf, openUses, hcall, hopen, hb] using ih
    | token t => exact ih h

/-! ## Well-bracketed events -/

/-- Events that close some brackets one after the other, with bracketed events between. -/
inductive Closes (rules : RuleTable) : List Bracket → List Event → Prop
  | nil {es : List Event} (hes : Bracketed rules es) : Closes rules [] es
  | cons {b : Bracket} {outer : List Bracket} {call : Call} {depth : Int} {left : Todo}
      {inside rest : List Event} (hinside : Bracketed rules inside) (hcall : call.rule = b.rule)
      (hrest : Closes rules outer rest) :
      Closes rules (b :: outer) (inside ++ .leave call depth left :: rest)

theorem Closes.append (h : Closes rules outer es) (hfront : Bracketed rules rest) :
    Closes rules outer (rest ++ es) := by
  cases h with
  | nil hes => exact .nil (hfront.append hes)
  | cons hinside hcall hrest =>
    rw [← List.append_assoc]
    exact .cons (hfront.append hinside) hcall hrest

theorem exists_closes (rules : RuleTable) (bs : List Bracket) : ∃ es, Closes rules bs es := by
  induction bs with
  | nil => exact ⟨[], .nil .nil⟩
  | cons b bs ih =>
    rcases ih with ⟨es, hes⟩
    have hlast : Closes rules (b :: bs) ([] ++ .leave ⟨b.rule, 0, b.transitional⟩ b.depth .empty :: es) :=
      .cons .nil rfl hes
    exact ⟨_, hlast⟩

/-- Events become bracketed when the brackets that are open after them are closed. -/
theorem Closing.bracketed (h : Closing rules trace) (hes : Closes rules (openBrackets trace) es) :
    Bracketed rules (trace.reverse ++ es) := by
  induction trace generalizing es with
  | nil =>
    cases hes with
    | nil hes => exact hes
  | cons e trace ih =>
    rw [List.reverse_cons, List.append_assoc, List.singleton_append]
    cases e with
    | enter call depth left =>
      cases hes with
      | @cons _ _ call' depth' left' inside rest hinside hcall hrest =>
        have hpair : Bracketed rules (.enter call depth left :: (inside ++ [.leave call' depth' left'])) :=
          .single h.1 hcall hinside
        have hes := ih h.2 (hrest.append hpair)
        simpa using hes
    | leave call depth left =>
      rcases h.1 with ⟨b, outer, hopen, hsubject⟩
      apply ih h.2
      rw [openBrackets_leave, hopen] at hes
      rw [hopen]
      have hclosed : Closes rules (b :: outer) ([] ++ .leave call depth left :: es) :=
        .cons .nil (congrArg Prod.fst hsubject).symm hes
      exact hclosed
    | token t =>
      apply ih h
      rw [← List.singleton_append]
      exact hes.append (.token t .nil)

/-- The use of a bracket that is open began with an event, and all that came after it in the bracket is
bracketed. -/
theorem Closing.exists_enter (h : Closing rules trace) (hopen : openBrackets trace = b :: outer) :
    ∃ inner call left before, trace = inner ++ .enter call b.depth left :: before ∧
      Bracketed rules inner.reverse ∧ call.subject = b.subject ∧ openBrackets before = outer := by
  induction hlength : trace.length using Nat.strongRecOn generalizing trace b outer with
  | ind n ih =>
    cases trace with
    | nil => cases hopen
    | cons e trace =>
      cases e with
      | enter call depth left =>
        cases hopen
        exact ⟨[], call, left, trace, rfl, .nil, rfl, rfl⟩
      | token t =>
        have hbefore : Closing rules trace := h
        rcases ih trace.length (by simp [← hlength]) hbefore hopen rfl with
          ⟨inner, call, left, before, rfl, hinner, hsubject, houter⟩
        refine ⟨.token t :: inner, call, left, before, rfl, ?_, hsubject, houter⟩
        rw [List.reverse_cons]
        exact hinner.append (.token t .nil)
      | leave call depth left =>
        -- The bracket that was closed last lies inside of the one that is open.
        rcases h.1 with ⟨b₁, outer₁, hopen₁, hsubject₁⟩
        rw [openBrackets_leave, hopen₁, List.tail_cons] at hopen
        rcases ih trace.length (by simp [← hlength]) h.2 hopen₁ rfl with
          ⟨inner₁, call₁, left₁, before₁, rfl, hinner₁, hcall₁, rfl⟩
        have hafter := h.2.of_suffix (List.suffix_append inner₁ _)
        rcases ih before₁.length (by simp [← hlength]; omega) hafter.2 hopen rfl with
          ⟨inner, call', left', before, rfl, hinner, hsubject, houter⟩
        have hsame : call.rule = call₁.rule := congrArg Prod.fst (hsubject₁.symm.trans hcall₁.symm)
        have hpair : Bracketed rules (.enter call₁ b₁.depth left₁ ::
            (inner₁.reverse ++ [.leave call depth left])) :=
          .single hafter.1 hsame hinner₁
        refine ⟨.leave call depth left :: inner₁ ++ .enter call₁ b₁.depth left₁ :: inner, call', left',
          before, by simp, ?_, hsubject, houter⟩
        simpa using hinner.append hpair

end

/-! ## What there is to close -/

namespace Machine

variable {m : Machine} {items : List (Except LexError Token)} {capacity : Nat} {s s' s₀ : State}
  {c c' : Config} {root key : RuleKey} {r : Rule} {todo left : Todo} {trace es : List Event}
  {depth : Int} {data : Nat} {call : Call} {ds : List Bool}

/-- Whether to enter the use of a rule is to go on with a repetition that has begun. -/
def goesOn (m : Machine) (call : Call) : Bool :=
  m.isRepetition call.rule && decide (0 < call.data)

/-- The uses that some steps are to end, from the top down, after a step that enters a rule whose end is
planned right below. -/
def pendingBelow (m : Machine) : Option RuleKey → List Step → List Call
  | _, [] => []
  | entered, .leave call _ :: rest =>
    if entered = some call.rule then m.pendingBelow none rest else call :: m.pendingBelow none rest
  | _, .enter call :: rest =>
    if m.goesOn call then call :: m.pendingBelow none rest else m.pendingBelow (some call.rule) rest

/-- The uses that have begun and that the steps to do are to end, from the top down. -/
def pending (m : Machine) (todo : Todo) : List Call :=
  m.pendingBelow none todo.items

@[simp]
theorem subject_use : (m.use key data).subject = (key, m.isTransitional key) :=
  rfl

@[simp]
theorem pending_leave {decision : Bool} :
    m.pending (todo.push (.leave call decision)) = call :: m.pending todo :=
  rfl

theorem pending_again (hkey : m.isRepetition key = true) :
    m.pending (todo.push (.enter (m.use key (data + 1)))) = m.use key (data + 1) :: m.pending todo := by
  simp [pending, pendingBelow, goesOn, Stack.push, hkey]

/-- A use of a rule that is planned as a whole has not begun. -/
theorem pending_enter (hkey : data = 0 ∨ m.isRepetition key = false) :
    m.pending ((todo.push (.leave (m.use key 0) false)).push (.enter (m.use key data))) =
      m.pending todo := by
  have hbegins : m.goesOn (m.use key data) = false := by
    rcases hkey with rfl | hkey
    · simp [goesOn]
    · simp [goesOn, hkey]
  simp [pending, pendingBelow, Stack.push, hbegins]

@[simp]
theorem pending_planned : m.pending (m.planned todo key) = m.pending todo :=
  pending_enter (.inl rfl)

@[simp]
theorem pending_plannedAll {keys : List RuleKey} : m.pending (m.plannedAll todo keys) = m.pending todo := by
  induction keys with
  | nil => rfl
  | cons key keys ih => rw [plannedAll_cons, pending_planned, ih]

theorem pending_passesLeft {child : RuleKey} {made : Nat} :
    (m.pending (m.passesLeft key child todo made)).map Call.subject =
      (key, m.isTransitional key) :: (m.pending todo).map Call.subject := by
  simp [passesLeft]

/-- The events close brackets in order, and those that are open are the ones the steps to do are to
close. -/
structure Aligned (m : Machine) (c : Config) : Prop where
  closing : Closing m.rules c.trace
  open_eq : (openBrackets c.trace).map Bracket.subject = (m.pending c.todo).map Call.subject

namespace Aligned

/-- To begin the use of a rule opens a bracket that is to be closed. -/
theorem enter {todo' : Todo} (h : m.Aligned ⟨todo, depth, trace⟩) (hr : m.rules.get? key = some r)
    (hpending : (m.pending todo').map Call.subject =
      (key, m.isTransitional key) :: (m.pending todo).map Call.subject) {depth' depth'' : Int} :
    m.Aligned ⟨todo', depth', .enter (m.use key data) depth'' left :: trace⟩ := by
  have hopen : (openBrackets trace).map Bracket.subject = (m.pending todo).map Call.subject := h.open_eq
  refine ⟨⟨by simp [hr], h.closing⟩, ?_⟩
  rw [hpending, ← hopen]
  rfl

/-- To end the use of a rule closes the innermost bracket. -/
theorem leave {decision : Bool} (h : m.Aligned ⟨todo.push (.leave call decision), depth, trace⟩)
    {depth' depth'' : Int} : m.Aligned ⟨todo, depth', .leave call depth'' left :: trace⟩ := by
  have hopen := h.open_eq
  rw [pending_leave, List.map_cons] at hopen
  rcases List.map_eq_cons_iff.1 hopen with ⟨b, outer, htrace, hb, houter⟩
  refine ⟨⟨⟨b, outer, htrace, hb⟩, h.closing⟩, ?_⟩
  rw [openBrackets_leave, htrace]
  exact houter

/-- Other steps to do leave the brackets as they are. -/
theorem of_pending {todo' : Todo} (h : m.Aligned ⟨todo, depth, trace⟩)
    (hpending : (m.pending todo').map Call.subject = (m.pending todo).map Call.subject) :
    m.Aligned ⟨todo', depth, trace⟩ :=
  ⟨h.closing, h.open_eq.trans hpending.symm⟩

/-- The use of a rule that is planned as a whole is not to be closed. -/
theorem below (hkey : data = 0 ∨ m.isRepetition key = false)
    (h : m.Aligned
      ⟨(todo.push (.leave (m.use key 0) false)).push (.enter (m.use key data)), depth, trace⟩) :
    m.Aligned ⟨todo, depth, trace⟩ :=
  h.of_pending (by rw [pending_enter hkey])

end Aligned

/-- A move keeps the events and the steps to do aligned. -/
theorem aligned_of_moved (hc : m.Aligned c) (h : m.Moved items c c') : m.Aligned c' := by
  have hsingle {key : RuleKey} {r : Rule} (hr : m.rules.get? key = some r)
      (hbody : r.body.isRepetition = false) : m.isRepetition key = false :=
    (isRepetition_of_body hr).trans hbody
  cases h with
  | leave => exact hc.leave
  | stop => exact hc.leave
  | goOn hkey => exact hc.of_pending (by simp [pending_again hkey])
  | again hr hbody =>
    have hkey := isRepetition_of_body hr
    rw [hbody] at hkey
    exact hc.of_pending (by simp [pending_again hkey])
  | token hr hbody =>
    have hbelow := hc.below (.inr (hsingle hr (by rw [hbody]; rfl)))
    exact ⟨hbelow.closing, hbelow.open_eq⟩
  | concatenation hr hbody =>
    have hbelow := hc.below (.inr (hsingle hr (by rw [hbody]; rfl)))
    exact hbelow.enter hr (by simp)
  | take hr hbody =>
    have hbelow := hc.below (.inr (hsingle hr (by rw [hbody]; rfl)))
    exact hbelow.enter hr (by simp)
  | skip hr hbody =>
    have hkey := hsingle hr (by rw [hbody]; rfl)
    exact hc.of_pending (by rw [pending_enter (.inr hkey), pending_enter (.inr hkey)])
  | repetition hr => exact (hc.below (.inl rfl)).enter hr pending_passesLeft

theorem aligned_outset (m : Machine) (root : RuleKey) : m.Aligned (m.outset root) := by
  refine ⟨trivial, ?_⟩
  rw [outset, pending_planned]
  rfl

/-- The brackets and the uses of declared rules fit the steps to do, and so they do wherever going back
may lead to. -/
theorem aligned_of_reaches (hinitial : m.initial items capacity root = .ok s₀) (h : m.Reaches s₀ s)
    (hc : c ∈ m.agenda s) : m.Aligned c ∧ m.Scoped root c :=
  forall_agenda_of_reaches (P := fun c => m.Aligned c ∧ m.Scoped root c) hinitial
    ⟨aligned_outset m root, scoped_outset m root⟩
    (fun horderly hmem hc =>
      ⟨aligned_of_moved hc.1 (moved_of_mem_moves horderly hmem), scoped_of_move hc.2 hmem⟩) h c hc

/-! ## States that are in step -/

/-- How the events, the steps to do, the depth and the window of a state fit together. -/
structure InStep (m : Machine) (items : List (Except LexError Token)) (s : State) : Prop where
  /-- The events are the first ones of some that are bracketed. -/
  bracketed : ∃ later, Bracketed m.rules (s.trace.reverse ++ later)
  /-- The uses that have begun and not ended are those that the steps to do are to end. -/
  open_eq : (openBrackets s.trace).map Bracket.subject = (m.pending s.todo).map Call.subject
  depth_eq : s.depth + 1 = (openUses s.trace).length
  /-- The use of a declared rule begins at the depth that says how many there are around it. -/
  began : ∀ {later before : List Event} {call : Call} {depth : Int} {left : Todo},
    s.trace = later ++ .enter call depth left :: before → call.transitional = false →
    depth = (openUses before).length
  /-- The use of a rule ends where all that began inside of it has ended, at the same depth. -/
  ended : ∀ {later rest : List Event} {call : Call} {depth : Int} {left : Todo},
    s.trace = later ++ .leave call depth left :: rest →
    ∃ inner call' depth' left' before, rest = inner ++ .enter call' depth' left' :: before ∧
      Bracketed m.rules inner.reverse ∧ call'.subject = call.subject ∧
      (call.transitional = false → depth' = depth)
  /-- Unless the window has dropped the item, the place in the text is the number of tokens matched. -/
  index_eq : 0 < s.window.place → s.window.index items.length = matchedCount s.trace

theorem inStep_of_aligned (haligned : m.Aligned s.config) (hscoped : m.Scoped root s.config)
    (hplace : 0 < s.window.place → s.window.index items.length = matchedCount s.trace) :
    m.InStep items s := by
  have hclosing : Closing m.rules s.trace := haligned.closing
  have hleveled : Leveled s.trace := hscoped.tallied.leveled
  have hbegan {later before : List Event} {call : Call} {depth : Int} {left : Todo}
      (h : s.trace = later ++ .enter call depth left :: before) (hcall : call.transitional = false) :
      depth = (openUses before).length := by
    have hsuffix : .enter call depth left :: before <:+ s.trace := h ▸ List.suffix_append _ _
    rw [(hleveled.of_suffix hsuffix).1 hcall, length_around_usesOf (hclosing.of_suffix hsuffix).2]
  refine ⟨?_, haligned.open_eq, ?_, hbegan, ?_, hplace⟩
  · rcases exists_closes m.rules (openBrackets s.trace) with ⟨later, hlater⟩
    exact ⟨later, hclosing.bracketed hlater⟩
  · rw [← length_around_usesOf hclosing]
    exact hscoped.tallied.depth_eq.symm
  · intro later rest call depth left h
    have hsuffix : .leave call depth left :: rest <:+ s.trace := h ▸ List.suffix_append _ _
    rcases hclosing.of_suffix hsuffix with ⟨⟨b, outer, hopen, hsubject⟩, hrest⟩
    rcases hrest.exists_enter hopen with ⟨inner, call', left', before, rfl, hinner, hcall', rfl⟩
    refine ⟨inner, call', b.depth, left', before, rfl, hinner, hcall'.trans hsubject, fun hcall => ?_⟩
    have hdeclared : b.transitional = false := (congrArg Prod.snd hsubject).trans hcall
    have hbefore : s.trace =
        (later ++ .leave call depth left :: inner) ++ .enter call' b.depth left' :: before := by
      rw [h, List.append_assoc, List.cons_append]
    have hdepth := hbegan hbefore ((congrArg Prod.snd hcall').trans hdeclared)
    rcases (hleveled.of_suffix hsuffix).1 hcall with ⟨n, rfl, hlength⟩
    rw [length_around_usesOf hrest, openUses, hopen, List.filter_cons] at hlength
    rw [hdepth, Int.ofNat_inj]
    simpa [hdeclared, openUses] using hlength

/-! ## What going back leads to -/

/-- The states that going back leads to from some events, the last decision first. -/
def restored (m : Machine) (s : State) : List Event → List State
  | [] => []
  | .enter call depth left :: rest =>
    if m.isChoice call.rule then
      ({ s with trace := rest } : State).resume call (call.depthOutside depth) left :: m.restored s rest
    else m.restored s rest
  | .leave call depth left :: rest =>
    if m.isRepetition call.rule then
      ({ s with trace := rest } : State).resume call depth left :: m.restored s rest
    else m.restored s rest
  | .token _ :: rest => m.restored { s with window := s.window.previous } rest

/-- What going back leads to is what a search has left for later. -/
theorem map_config_restored : (m.restored s es).map State.config = m.alternatives es := by
  induction es generalizing s with
  | nil => rfl
  | cons e es ih =>
    cases e with
    | enter call depth left =>
      by_cases hchoice : m.isChoice call.rule = true
      · simp [restored, alternatives, hchoice, ih, State.config, State.resume]
      · simp [restored, alternatives, hchoice, ih]
    | leave call depth left =>
      by_cases hrepetition : m.isRepetition call.rule = true
      · simp [restored, alternatives, hrepetition, ih, State.config, State.resume]
      · simp [restored, alternatives, hrepetition, ih]
    | token t => exact ih

/-- Going back leads to the first of them. -/
theorem head_restored (h : State.retreatThrough m s es = .resumed s') :
    (m.restored s es).head? = some s' := by
  induction es generalizing s with
  | nil => cases h
  | cons e es ih =>
    cases e with
    | enter call depth left =>
      by_cases hchoice : m.isChoice call.rule = true
      · simp only [State.retreatThrough, hchoice, if_true] at h
        cases h
        simp [restored, hchoice, Call.depthOutside]
      · simp only [State.retreatThrough, hchoice] at h
        simpa [restored, hchoice] using ih h
    | leave call depth left =>
      by_cases hrepetition : m.isRepetition call.rule = true
      · simp only [State.retreatThrough, hrepetition, if_true] at h
        cases h
        simp [restored, hrepetition]
      · simp only [State.retreatThrough, hrepetition] at h
        simpa [restored, hrepetition] using ih h
    | token t =>
      by_cases hvalid : s.window.previous.isValid = true
      · simp only [State.retreatThrough, hvalid, if_true] at h
        exact ih h
      · simp [State.retreatThrough, hvalid] at h

/-- Unless the window has dropped the item, it stands on the one after the tokens that are matched. -/
theorem index_restored (hs' : s' ∈ m.restored s es)
    (hplace : 0 < s.window.place →
      ∃ pulled, s.window.Covers items pulled (matchedCount es + 1)) (hplace' : 0 < s'.window.place) :
    s'.window.index items.length = matchedCount s'.trace := by
  have hindex {w : Window (Except LexError Token)} {rest : List Event}
      (h : ∃ pulled, w.Covers items pulled (matchedCount rest + 1)) :
      w.index items.length = matchedCount rest := by
    rcases h with ⟨pulled, hcovers⟩
    rw [hcovers.index_eq]
    omega
  induction es generalizing s with
  | nil => cases hs'
  | cons e es ih =>
    cases e with
    | enter call depth left =>
      rw [matchedCount_enter] at hplace
      by_cases hchoice : m.isChoice call.rule = true
      · simp only [restored, hchoice, if_true, List.mem_cons] at hs'
        rcases hs' with rfl | hlater
        · exact hindex (hplace hplace')
        · exact ih hlater hplace
      · simp only [restored, hchoice] at hs'
        exact ih hs' hplace
    | leave call depth left =>
      rw [matchedCount_leave] at hplace
      by_cases hrepetition : m.isRepetition call.rule = true
      · simp only [restored, hrepetition, if_true, List.mem_cons] at hs'
        rcases hs' with rfl | hlater
        · exact hindex (hplace hplace')
        · exact ih hlater hplace
      · simp only [restored, hrepetition] at hs'
        exact ih hs' hplace
    | token t =>
      apply ih hs'
      intro hprevious
      have hpos : 0 < s.window.place := Nat.lt_of_lt_of_le hprevious (Nat.sub_le _ _)
      rcases hplace hpos with ⟨pulled, hcovers⟩
      rw [matchedCount_token] at hcovers
      exact ⟨pulled, hcovers.previous hpos⟩

/-- The events, the steps to do, the depth and the place in the text fit together in all states that a
search reaches, and in all that going back from there leads to. -/
theorem in_step_of_reaches (hinitial : m.initial items capacity root = .ok s₀) (h : m.Reaches s₀ s) :
    0 < s.window.place ∧ m.InStep items s ∧ (∀ s' ∈ m.restored s s.trace, m.InStep items s') ∧
      ∀ s', m.backtrack s = .running s' → (m.restored s s.trace).head? = some s' := by
  have hplaced := (ready_of_reaches hinitial h).good.placed
  refine ⟨hplaced.place_pos, ?_, fun s' hs' => ?_, fun s' hback => ?_⟩
  · rcases aligned_of_reaches hinitial h List.mem_cons_self with ⟨haligned, hscoped⟩
    exact inStep_of_aligned haligned hscoped fun _ => hplaced.index_eq
  · have hlater : s'.config ∈ m.agenda s := by
      rw [agenda, ← map_config_restored]
      exact List.mem_cons_of_mem _ (List.mem_map_of_mem hs')
    rcases aligned_of_reaches hinitial h hlater with ⟨haligned, hscoped⟩
    exact inStep_of_aligned haligned hscoped (index_restored hs' fun _ => hplaced.covers)
  · exact head_restored (resumed_of_backtrack hback)

/-- A word of one letter is too short, and one more letter is to be matched: the repetition that was left
is open again. -/
theorem in_step_of_reaches_word :
    ∃ s₀ s,
      word.initial ([letter 0, letter 1, letter 2].map Except.ok ++ [.ok (.ending 3)]) 3
        (.named "word") = .ok s₀ ∧
      word.Reaches s₀ s ∧ matchedCount s.trace = 1 ∧
      word.pending s.todo = [word.use (.part 1) 2, word.use (.named "word") 0] ∧
      (word.restored s s.trace).length = 1 ∧
      word.InStep ([letter 0, letter 1, letter 2].map Except.ok ++ [.ok (.ending 3)]) s := by
  obtain ⟨s₀, s, hinitial, hs, hmatched, hpending, hrestored⟩ : ∃ s₀ s,
      word.initial ([letter 0, letter 1, letter 2].map Except.ok ++ [.ok (.ending 3)]) 3
        (.named "word") = .ok s₀ ∧
      word.stateAfter 17 s₀ = some s ∧ matchedCount s.trace = 1 ∧
      word.pending s.todo = [word.use (.part 1) 2, word.use (.named "word") 0] ∧
      (word.restored s s.trace).length = 1 :=
    ⟨_, _, rfl, rfl, rfl, rfl, rfl⟩
  have hreach := reaches_of_stateAfter hs
  rcases in_step_of_reaches hinitial hreach with ⟨-, hstep, -⟩
  exact ⟨s₀, s, hinitial, hreach, hmatched, hpending, hrestored, hstep⟩

end Machine

end Descent
