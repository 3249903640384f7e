import Descent.Proofs.Search.Derivation

/-!
# Moves of a search

What a search does between its decisions is forced.  A move goes on from what there is to do without
a window and without going back; where there are two possibilities, it may decide either way.  A
path is a run of moves.

Main results:

- `Machine.moves` lists the next moves with what they decide; the lemmas after it give them for each
  kind of rule, and `Machine.Entered` says what entering a rule can come to.
- `Machine.Path` is a number of moves, and `Machine.Path.stays_or_moves` takes the first one off.
-/

namespace Descent

/-- What a search has to do, where it is, and what it has done. -/
structure Config where
  todo : Todo
  depth : Int
  trace : List Event

/-- Whether an event is the match of a token. -/
def Event.isToken : Event → Bool
  | .token _ => true
  | _ => false

/-- The number of tokens matched in some events. -/
def matchedCount (trace : List Event) : Nat :=
  trace.countP Event.isToken

/-- The depth outside the use of a rule that ends at a depth. -/
def Call.depthOutside (c : Call) (depth : Int) : Int :=
  if c.transitional then depth else depth - 1

@[simp]
theorem matchedCount_nil : matchedCount [] = 0 :=
  rfl

@[simp]
theorem matchedCount_enter (c : Call) (depth : Int) (todo : Todo) (trace : List Event) :
    matchedCount (.enter c depth todo :: trace) = matchedCount trace := by
  simp [matchedCount, Event.isToken]

@[simp]
theorem matchedCount_leave (c : Call) (depth : Int) (todo : Todo) (trace : List Event) :
    matchedCount (.leave c depth todo :: trace) = matchedCount trace := by
  simp [matchedCount, Event.isToken]

@[simp]
theorem matchedCount_token (t : MatchedToken) (trace : List Event) :
    matchedCount (.token t :: trace) = matchedCount trace + 1 :=
  List.countP_cons_of_pos rfl

@[simp]
theorem matchedCount_append (es trace : List Event) :
    matchedCount (es ++ trace) = matchedCount es + matchedCount trace :=
  List.countP_append

@[simp]
theorem matchedCount_reverse (es : List Event) : matchedCount es.reverse = matchedCount es :=
  List.countP_reverse

namespace Machine

variable {m : Machine} {items : List (Except LexError Token)} {todo : Todo} {depth : Int}
  {trace : List Event} {seen : List MatchedToken}

/-! ## Plans -/

@[simp]
theorem data_use (key : RuleKey) (data : Nat) : (m.use key data).data = data :=
  rfl

@[simp]
theorem rule_use (key : RuleKey) (data : Nat) : (m.use key data).rule = key :=
  rfl

@[simp]
theorem depthOutside_depthInside (key : RuleKey) (data : Nat) (depth : Int) :
    (m.use key data).depthOutside (m.depthInside key depth) = depth := by
  unfold Call.depthOutside depthInside use
  dsimp only
  split
  · rfl
  · omega

@[simp]
theorem plannedAll_nil (todo : Todo) : m.plannedAll todo [] = todo :=
  rfl

@[simp]
theorem plannedAll_cons (todo : Todo) (key : RuleKey) (keys : List RuleKey) :
    m.plannedAll todo (key :: keys) = m.planned (m.plannedAll todo keys) key :=
  rfl

/-- While passes are due, the next one is planned already. -/
theorem passesLeft_of_lt {key child : RuleKey} {made : Nat} (h : made < m.leastPasses key) :
    m.passesLeft key child todo made =
      m.planned (m.passesLeft key child todo (made + 1)) child := by
  have hdue : m.leastPasses key - made = m.leastPasses key - (made + 1) + 1 := by omega
  have hmax : max (m.leastPasses key) made = max (m.leastPasses key) (made + 1) := by omega
  unfold passesLeft
  dsimp only
  rw [hdue, hmax, List.replicate_succ, plannedAll_cons]

/-- When no pass is due, the repetition may be left. -/
theorem passesLeft_of_le {key child : RuleKey} {made : Nat} (h : m.leastPasses key ≤ made) :
    m.passesLeft key child todo made = todo.push (.leave (m.use key made) true) := by
  unfold passesLeft
  dsimp only
  rw [Nat.sub_eq_zero_of_le h, Nat.max_eq_right h, List.replicate_zero, plannedAll_nil]

theorem push_ne_empty (todo : Todo) (step : Step) : todo.push step ≠ .empty := by
  intro h
  cases congrArg Stack.items h

/-! ## Moves -/

theorem matched_eq {key : RuleKey} {r : Rule} {kind : String} {unification : Option Nat}
    {kept : Bool} (hr : m.rules.get? key = some r)
    (hbody : r.body = .token kind unification kept) (t : Token) :
    m.matched key t =
      ⟨key, t.kind, t.value, t.space, (m.lexicon.representation? t.space t.kind).getD "",
        unification, kept⟩ := by
  rcases r with ⟨name, body, nodeId, defaultId, representation⟩
  obtain rfl : body = .token kind unification kept := hbody
  simp [matched, hr]

/-- Whether a rule that matches a kind of token may match a given one. -/
def accepts (kind : String) (unification : Option Nat) (depth : Int) (trace : List Event)
    (t : Token) : Bool :=
  t.kind == kind && unification.all fun index => unifies depth index t.value 0 trace

theorem accepts_iff {kind : String} {unification : Option Nat} {depth : Int} {trace : List Event}
    {t : Token} :
    accepts kind unification depth trace t = true ↔ t.kind = kind ∧
      ¬(unification.any fun index => !unifies depth index t.value 0 trace) = true := by
  cases unification <;> simp [accepts]

/-- The moves of a search, each with what it decides.  Where there are two possibilities, `[false]`
takes the first one and `[true]` passes it over. -/
def moves (m : Machine) (items : List (Except LexError Token)) (c : Config) :
    List (List Bool × Config) :=
  match c.todo.pop? with
  | none => []
  | some (.leave call false, todo) =>
    [([], ⟨todo, call.depthOutside c.depth, .leave call c.depth .empty :: c.trace⟩)]
  | some (.leave call true, todo) =>
    [([false], ⟨todo, call.depthOutside c.depth, .leave call c.depth todo :: c.trace⟩),
      ([true], ⟨todo.push (.enter { call with data := call.data + 1 }), c.depth, c.trace⟩)]
  | some (.enter call, todo) =>
    let key := call.rule
    let inner := m.depthInside key c.depth
    match (m.rules.get? key).map Rule.body with
    | none => []
    | some (.token kind unification _) =>
      match items[matchedCount c.trace]? with
      | some (.ok t) =>
        if accepts kind unification c.depth c.trace t then
          [([], ⟨todo.drop, c.depth, .token (m.matched key t) :: c.trace⟩)]
        else []
      | _ => []
    | some (.concatenation children) =>
      [([], ⟨m.plannedAll todo children, inner, .enter (m.use key 0) inner .empty :: c.trace⟩)]
    | some (.choice children) =>
      match children[call.data]? with
      | some child =>
        [([false], ⟨m.planned todo child, inner,
            .enter (m.use key call.data) inner todo :: c.trace⟩),
          ([true], ⟨todo.push (.enter { call with data := call.data + 1 }), c.depth, c.trace⟩)]
      | none => []
    | some (.repetition bounds child) =>
      if call.data = 0 then
        [([], ⟨m.passesLeft key child todo.drop 0, inner,
          .enter (m.use key bounds.min) inner .empty :: c.trace⟩)]
      else if bounds.admits call.data then
        [([], ⟨m.planned (todo.push (.leave (m.use key call.data) true)) child, c.depth, c.trace⟩)]
      else []

section

variable {key : RuleKey} {data : Nat} {r : Rule}

@[simp]
theorem moves_empty : m.moves items ⟨.empty, depth, trace⟩ = [] :=
  rfl

@[simp]
theorem moves_leave (call : Call) :
    m.moves items ⟨todo.push (.leave call false), depth, trace⟩ =
      [([], ⟨todo, call.depthOutside depth, .leave call depth .empty :: trace⟩)] :=
  rfl

@[simp]
theorem moves_decision (call : Call) :
    m.moves items ⟨todo.push (.leave call true), depth, trace⟩ =
      [([false], ⟨todo, call.depthOutside depth, .leave call depth todo :: trace⟩),
        ([true], ⟨todo.push (.enter { call with data := call.data + 1 }), depth, trace⟩)] :=
  rfl

theorem moves_unknown (hr : m.rules.get? key = none) :
    m.moves items ⟨todo.push (.enter (m.use key data)), depth, trace⟩ = [] := by
  simp [moves, hr]

theorem moves_token {kind : String} {unification : Option Nat} {kept : Bool}
    (hr : m.rules.get? key = some r) (hbody : r.body = .token kind unification kept) :
    m.moves items ⟨todo.push (.enter (m.use key data)), depth, trace⟩ =
      match items[matchedCount trace]? with
      | some (.ok t) =>
        if accepts kind unification depth trace t then
          [([], ⟨todo.drop, depth, .token (m.matched key t) :: trace⟩)]
        else []
      | _ => [] := by
  simp [moves, hr, hbody]

theorem moves_concatenation {children : List RuleKey} (hr : m.rules.get? key = some r)
    (hbody : r.body = .concatenation children) :
    m.moves items ⟨todo.push (.enter (m.use key data)), depth, trace⟩ =
      [([], ⟨m.plannedAll todo children, m.depthInside key depth,
        .enter (m.use key 0) (m.depthInside key depth) .empty :: trace⟩)] := by
  simp [moves, hr, hbody]

theorem moves_choice {children : List RuleKey} {child : RuleKey}
    (hr : m.rules.get? key = some r) (hbody : r.body = .choice children)
    (hchild : children[data]? = some child) :
    m.moves items ⟨todo.push (.enter (m.use key data)), depth, trace⟩ =
      [([false], ⟨m.planned todo child, m.depthInside key depth,
          .enter (m.use key data) (m.depthInside key depth) todo :: trace⟩),
        ([true], ⟨todo.push (.enter (m.use key (data + 1))), depth, trace⟩)] := by
  simp [moves, hr, hbody, hchild, use]

theorem moves_choice_of_none {children : List RuleKey} (hr : m.rules.get? key = some r)
    (hbody : r.body = .choice children) (hchild : children[data]? = none) :
    m.moves items ⟨todo.push (.enter (m.use key data)), depth, trace⟩ = [] := by
  simp [moves, hr, hbody, hchild]

theorem moves_repetition {bounds : Bounds} {child : RuleKey} (hr : m.rules.get? key = some r)
    (hbody : r.body = .repetition bounds child) :
    m.moves items ⟨todo.push (.enter (m.use key 0)), depth, trace⟩ =
      [([], ⟨m.passesLeft key child todo.drop 0, m.depthInside key depth,
        .enter (m.use key bounds.min) (m.depthInside key depth) .empty :: trace⟩)] := by
  simp [moves, hr, hbody]

theorem moves_again {bounds : Bounds} {child : RuleKey} (hr : m.rules.get? key = some r)
    (hbody : r.body = .repetition bounds child) :
    m.moves items ⟨todo.push (.enter (m.use key (data + 1))), depth, trace⟩ =
      if bounds.admits (data + 1) then
        [([], ⟨m.planned (todo.push (.leave (m.use key (data + 1)) true)) child, depth, trace⟩)]
      else [] := by
  have hdata : (m.use key (data + 1)).data ≠ 0 := Nat.succ_ne_zero data
  simp only [moves, Stack.pop?_push, rule_use, hr, Option.map_some, hbody, if_neg hdata]
  rfl

end

/-- What entering a rule with a number can come to. -/
inductive Entered (m : Machine) (items : List (Except LexError Token)) (call : Call) (todo : Todo)
    (depth : Int) (trace : List Event) : Config → Prop
  | token {r : Rule} {kind : String} {unification : Option Nat} {kept : Bool} {t : Token}
      (hr : m.rules.get? call.rule = some r) (hbody : r.body = .token kind unification kept)
      (hitem : items[matchedCount trace]? = some (.ok t))
      (haccepts : accepts kind unification depth trace t = true) :
      Entered m items call todo depth trace
        ⟨todo.drop, depth, .token (m.matched call.rule t) :: trace⟩
  | concatenation {r : Rule} {children : List RuleKey} (hr : m.rules.get? call.rule = some r)
      (hbody : r.body = .concatenation children) :
      Entered m items call todo depth trace
        ⟨m.plannedAll todo children, m.depthInside call.rule depth,
          .enter (m.use call.rule 0) (m.depthInside call.rule depth) .empty :: trace⟩
  /-- An alternative of a choice is begun. -/
  | take {r : Rule} {children : List RuleKey} {child : RuleKey}
      (hr : m.rules.get? call.rule = some r) (hbody : r.body = .choice children)
      (hchild : children[call.data]? = some child) :
      Entered m items call todo depth trace
        ⟨m.planned todo child, m.depthInside call.rule depth,
          .enter (m.use call.rule call.data) (m.depthInside call.rule depth) todo :: trace⟩
  /-- An alternative of a choice is passed over. -/
  | skip {r : Rule} {children : List RuleKey} {child : RuleKey}
      (hr : m.rules.get? call.rule = some r) (hbody : r.body = .choice children)
      (hchild : children[call.data]? = some child) :
      Entered m items call todo depth trace
        ⟨todo.push (.enter { call with data := call.data + 1 }), depth, trace⟩
  /-- A repetition is begun. -/
  | begin {r : Rule} {bounds : Bounds} {child : RuleKey} (hr : m.rules.get? call.rule = some r)
      (hbody : r.body = .repetition bounds child) (hdata : call.data = 0) :
      Entered m items call todo depth trace
        ⟨m.passesLeft call.rule child todo.drop 0, m.depthInside call.rule depth,
          .enter (m.use call.rule bounds.min) (m.depthInside call.rule depth) .empty :: trace⟩
  /-- A repetition is gone on with. -/
  | again {r : Rule} {bounds : Bounds} {child : RuleKey} (hr : m.rules.get? call.rule = some r)
      (hbody : r.body = .repetition bounds child) (hdata : call.data ≠ 0)
      (hadmits : bounds.admits call.data = true) :
      Entered m items call todo depth trace
        ⟨m.planned (todo.push (.leave (m.use call.rule call.data) true)) child, depth, trace⟩

/-- The moves that enter a rule, case by case of its body. -/
theorem entered_of_mem_moves {call : Call} {ds : List Bool} {c' : Config}
    (h : (ds, c') ∈ m.moves items ⟨todo.push (.enter call), depth, trace⟩) :
    m.Entered items call todo depth trace c' := by
  rcases hr : m.rules.get? call.rule with _ | r
  · simp only [moves, Stack.pop?_push, hr, Option.map_none] at h
    cases h
  simp only [moves, Stack.pop?_push, hr, Option.map_some] at h
  cases hbody : r.body with
  | token kind unification kept =>
    simp only [hbody] at h
    split at h
    · rename_i t hitem
      split at h
      · rename_i haccepts
        rw [List.mem_singleton] at h
        cases h
        exact .token hr hbody hitem haccepts
      · cases h
    · cases h
  | concatenation children =>
    simp only [hbody, List.mem_singleton] at h
    cases h
    exact .concatenation hr hbody
  | choice children =>
    simp only [hbody] at h
    split at h
    · rename_i child hchild
      rw [List.mem_cons, List.mem_singleton] at h
      rcases h with htake | hskip
      · cases htake
        exact .take hr hbody hchild
      · cases hskip
        exact .skip hr hbody hchild
    · cases h
  | repetition bounds child =>
    simp only [hbody] at h
    split at h
    · rename_i hdata
      rw [List.mem_singleton] at h
      cases h
      exact .begin hr hbody hdata
    · rename_i hdata
      split at h
      · rename_i hadmits
        rw [List.mem_singleton] at h
        cases h
        exact .again hr hbody hdata hadmits
      · cases h

/-- A number of moves, and what they decide. -/
inductive Path (m : Machine) (items : List (Except LexError Token)) :
    Nat → Config → List Bool → Config → Prop
  | refl (c : Config) : Path m items 0 c [] c
  | step {n : Nat} {c c' c'' : Config} {ds es : List Bool} (hmove : (ds, c') ∈ m.moves items c)
      (hrest : Path m items n c' es c'') : Path m items (n + 1) c (ds ++ es) c''

theorem Path.trans {n k : Nat} {c c' c'' : Config} {ds es : List Bool}
    (h : m.Path items n c ds c') (h' : m.Path items k c' es c'') :
    m.Path items (n + k) c (ds ++ es) c'' := by
  induction h with
  | refl c => simpa using h'
  | step hmove _ ih =>
    rw [List.append_assoc, Nat.add_right_comm]
    exact .step hmove (ih h')

theorem Path.single {c c' : Config} {ds : List Bool} (h : (ds, c') ∈ m.moves items c) :
    m.Path items 1 c ds c' := by
  simpa using Path.step h (Path.refl c')

/-- A path has been gone to its end, or it begins with a move. -/
theorem Path.stays_or_moves {n : Nat} {c c' : Config} {ds : List Bool} (h : m.Path items n c ds c') :
    c' = c ∨ ∃ k d es c₁, k < n ∧ (d, c₁) ∈ m.moves items c ∧ ds = d ++ es ∧
      m.Path items k c₁ es c' := by
  cases h with
  | refl => exact .inl rfl
  | step hmove hrest => exact .inr ⟨_, _, _, _, Nat.lt_succ_self _, hmove, rfl, hrest⟩

end Machine

end Descent
