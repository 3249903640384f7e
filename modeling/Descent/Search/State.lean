import Descent.Collection.Window
import Descent.Search.Event

/-!
# The state of a search

A search goes through the steps to do, recording events, and moves along the tokens of a text in a
window.  Where a step fails, the events are taken back to the last decision, the tokens are given
back one by one, and the next possibility of that decision is tried.

Main results:

- `State.enter` begins a rule, `State.leave` ends one.
- `State.retreat` goes back to the last decision that has another possibility to try.
- `unifies` compares a token with those of its index that belong to the same use of a rule.
-/

namespace Descent

/-- The rules that a search follows, and the lexicon of its tokens. -/
structure Machine where
  rules : RuleTable
  lexicon : Lexicon

/-- Why a search ends without a derivation. -/
inductive Failure where
  | lex (e : LexError)
  /-- The rules do not fit together. -/
  | internal (detail : String)
  /-- No derivation goes on with this token. -/
  | unexpected (t : Token)
  deriving DecidableEq, Repr

/-- The state of a search. -/
structure State where
  window : Window (Except LexError Token)
  todo : Todo
  /-- The events, the last one first. -/
  trace : List Event
  /-- The number of declared rules around the place reached, less one. -/
  depth : Int
  /-- The last token that any match led to. -/
  furthest : Option Token
  deriving Repr

/-- The use of a rule, if there is such a rule. -/
def Machine.call (m : Machine) (key : RuleKey) (data : Nat) : Except Failure Call :=
  match m.rules.get? key with
  | some r => .ok ⟨key, data, r.transitional⟩
  | none => .error (.internal ("unknown rule " ++ key.render))

/-- Whether a rule is a choice. -/
def Machine.isChoice (m : Machine) (key : RuleKey) : Bool :=
  match m.rules.get? key with
  | some r => r.body.isChoice
  | none => false

/-- Whether a rule is a repetition. -/
def Machine.isRepetition (m : Machine) (key : RuleKey) : Bool :=
  match m.rules.get? key with
  | some r => r.body.isRepetition
  | none => false

/-! ## Unification -/

/-- Whether a value agrees with every token of the given index in the innermost use of a declared
rule that is still open at a depth.  Events are scanned from the last one back; `nested` counts the
finished uses of declared rules that the scan is inside of. -/
def unifies (depth : Int) (index : Nat) (value : String) (nested : Int) : List Event → Bool
  | [] => true
  | .enter c d _ :: rest =>
    if c.transitional then unifies depth index value nested rest
    else if d ≤ depth then true
    else unifies depth index value (nested - 1) rest
  | .leave c d _ :: rest =>
    if !c.transitional && depth < d then unifies depth index value (nested + 1) rest
    else unifies depth index value nested rest
  | .token t :: rest =>
    if nested ≤ 0 && t.unification == some index && t.value != value then false
    else unifies depth index value nested rest

namespace State

/-- The state before a search over some items of a text. -/
def start (items : List (Except LexError Token)) (capacity : Nat) : State :=
  ⟨(Window.fresh items capacity).rewind, .empty, [], -1, none⟩

/-- The token the window stands on. -/
def token (s : State) : Except Failure Token :=
  match s.window.current with
  | some (.ok t) => .ok t
  | some (.error e) => .error (.lex e)
  | none => .error (.internal "token stream ended before EOF")

/-- Plans a whole use of a rule: to enter it, and then to leave it. -/
def plan (m : Machine) (todo : Todo) (key : RuleKey) : Except Failure Todo :=
  match m.call key 0 with
  | .error e => .error e
  | .ok c => .ok ((todo.push (.leave c false)).push (.enter c))

/-- Plans uses of several rules, the first of them to come last. -/
def planAll (m : Machine) (todo : Todo) : List RuleKey → Except Failure Todo
  | [] => .ok todo
  | key :: rest =>
    match plan m todo key with
    | .error e => .error e
    | .ok todo => planAll m todo rest

/-- Plans a number of uses of one rule. -/
def planTimes (m : Machine) (todo : Todo) (key : RuleKey) : Nat → Except Failure Todo
  | 0 => .ok todo
  | n + 1 =>
    match plan m todo key with
    | .error e => .error e
    | .ok todo => planTimes m todo key n

/-- The depth inside a use of a rule. -/
def innerDepth (s : State) (transitional : Bool) : Int :=
  if transitional then s.depth else s.depth + 1

/-- Notes the token reached, if it is not before the last one noted. -/
def noteProgress (s : State) : Except Failure State :=
  match s.token with
  | .error e => .error e
  | .ok t =>
    match s.furthest with
    | none => .ok { s with furthest := some t }
    | some f => .ok (if f.offset ≤ t.offset then { s with furthest := some t } else s)

/-- What became of a step: the search goes on, or a possibility fails. -/
inductive Entered where
  | on (s : State)
  | blocked (s : State)
  deriving Repr

/-- Matches a token.  A rule that matches one is not left by a step of its own. -/
def matchToken (m : Machine) (s : State) (key : RuleKey) (kind : String)
    (unification : Option Nat) (kept : Bool) : Except Failure Entered :=
  match s.token with
  | .error e => .error e
  | .ok t =>
    if t.kind ≠ kind then .ok (.blocked s)
    else if unification.any fun index => !unifies s.depth index t.value 0 s.trace then
      .ok (.blocked s)
    else
      let matched : MatchedToken :=
        ⟨key, kind, t.value, t.space, (m.lexicon.representation? t.space kind).getD "",
          unification, kept⟩
      let s' : State :=
        { s with
          todo := s.todo.drop
          trace := .token matched :: s.trace
          window := s.window.advance }
      match s'.noteProgress with
      | .error e => .error e
      | .ok s' => .ok (.on s')

/-- Begins a concatenation: all its parts are planned. -/
def enterConcatenation (m : Machine) (s : State) (call : Call) (children : List RuleKey) :
    Except Failure Entered :=
  let depth := s.innerDepth call.transitional
  match planAll m s.todo children.reverse with
  | .error e => .error e
  | .ok todo =>
    .ok (.on { s with
      depth := depth
      trace := .enter { call with data := 0 } depth .empty :: s.trace
      todo := todo })

/-- Begins the alternative of a choice that a call asks for. -/
def enterChoice (m : Machine) (s : State) (call : Call) (children : List RuleKey) :
    Except Failure Entered :=
  match children[call.data]? with
  | none => .ok (.blocked s)
  | some child =>
    let depth := s.innerDepth call.transitional
    match plan m s.todo child with
    | .error e => .error e
    | .ok todo =>
      .ok (.on { s with
        depth := depth
        trace := .enter call depth s.todo :: s.trace
        todo := todo })

/-- Begins a repetition with as few passes as allowed, or goes for one more pass. -/
def enterRepetition (m : Machine) (s : State) (call : Call) (bounds : Bounds) (child : RuleKey) :
    Except Failure Entered :=
  if call.data = 0 then
    let depth := s.innerDepth call.transitional
    let call := { call with data := bounds.min }
    match planTimes m (s.todo.drop.push (.leave call true)) child bounds.min with
    | .error e => .error e
    | .ok todo =>
      .ok (.on { s with
        depth := depth
        trace := .enter call depth .empty :: s.trace
        todo := todo })
  else if bounds.admits call.data then
    match plan m (s.todo.push (.leave call true)) child with
    | .error e => .error e
    | .ok todo => .ok (.on { s with todo := todo })
  else .ok (.blocked s)

/-- Begins a rule, or tries another possibility of one. -/
def enter (m : Machine) (s : State) (c : Call) : Except Failure Entered :=
  match m.rules.get? c.rule with
  | none => .error (.internal ("unknown rule " ++ c.rule.render))
  | some r =>
    let c := { c with transitional := r.transitional }
    match r.body with
    | .token kind unification kept => matchToken m s c.rule kind unification kept
    | .concatenation children => enterConcatenation m s c children
    | .choice children => enterChoice m s c children
    | .repetition bounds child => enterRepetition m s c bounds child

/-- Ends a rule; if that is a decision, the steps left are kept with it. -/
def leave (s : State) (c : Call) (decision : Bool) : State :=
  { s with
    trace := .leave c s.depth (if decision then s.todo else .empty) :: s.trace
    depth := if c.transitional then s.depth else s.depth - 1 }

/-! ## Going back -/

/-- Takes up a decision again with its next possibility. -/
def resume (s : State) (c : Call) (depth : Int) (todo : Todo) : State :=
  { s with depth := depth, todo := todo.push (.enter { c with data := c.data + 1 }) }

/-- What became of going back: a decision is taken up again, or there is none. -/
inductive Retreat where
  | resumed (s : State)
  | exhausted (s : State)
  deriving Repr

/-- Takes events back to the last decision, giving back the tokens matched since.  It is in vain if
the window does not reach back far enough. -/
def retreatThrough (m : Machine) (s : State) : List Event → Retreat
  | [] => .exhausted { s with trace := [] }
  | .enter c depth todo :: rest =>
    if m.isChoice c.rule then
      .resumed (resume { s with trace := rest } c (if c.transitional then depth else depth - 1)
        todo)
    else retreatThrough m s rest
  | .leave c depth todo :: rest =>
    if m.isRepetition c.rule then .resumed (resume { s with trace := rest } c depth todo)
    else retreatThrough m s rest
  | .token _ :: rest =>
    let s := { s with window := s.window.previous }
    if s.window.isValid then retreatThrough m s rest else .exhausted { s with trace := rest }

/-- Goes back to the last decision. -/
def retreat (m : Machine) (s : State) : Retreat :=
  retreatThrough m s s.trace

end State

end Descent
