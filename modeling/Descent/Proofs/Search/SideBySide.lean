import Descent.Proofs.Search.Failing
import Descent.Proofs.Search.Soundness
import Descent.Proofs.Token.Matches

/-!
# Searches side by side

Two searches with the same rules, over texts whose items show the same, take the same steps.  Each has
a window of its own: a search may differ from the other only by having to give up because its window
has dropped a token that the other one still holds.

Main results:

- `Standing` says what a window has pulled, and which token is to be named as unexpected.
- `Machine.paired_step`: states abreast stay abreast, or both searches end alike, or one is lost.
- `Machine.paired_run`: so do whole searches.
-/

namespace Descent

variable {items items' : List (Except LexError Token)} {capacity capacity' pulled matched : Nat}
  {w w' : Window (Except LexError Token)} {furthest furthest' : Option Token}

/-! ## Items -/

/-- What an item shows: an error, or a token without its place. -/
def shownItem (item : Except LexError Token) : Except LexError (String × String × String) :=
  item.map Token.shown

theorem tokenOf_eq_ok {item : Option (Except LexError Token)} {t : Token}
    (h : tokenOf item = .ok t) : item = some (.ok t) := by
  unfold tokenOf at h
  split at h
  · cases h
    rfl
  · cases h
  · cases h

/-- The failure of a search that names an item. -/
def failureAt (items : List (Except LexError Token)) (n : Nat) : Failure :=
  match tokenOf items[n]? with
  | .ok t => .unexpected t
  | .error f => f

theorem failureAt_of_ok {n : Nat} {t : Token} (h : items[n]? = some (.ok t)) :
    failureAt items n = .unexpected t := by
  rw [failureAt, h]
  rfl

/-- A failure that names no token: the same item of two texts is an error, or something is wrong
inside. -/
inductive Nameless (items items' : List (Except LexError Token)) : Failure → Prop
  | lex {n : Nat} {e : LexError} (h : items[n]? = some (.error e))
    (h' : items'[n]? = some (.error e)) : Nameless items items' (.lex e)
  | internal (detail : String) : Nameless items items' (.internal detail)

/-- Failures that are the same, or that name the tokens at the same place of two texts. -/
inductive FailsAlike (items items' : List (Except LexError Token)) (n : Nat) : Failure → Failure → Prop
  | same {f : Failure} (h : Nameless items items' f) : FailsAlike items items' n f f
  | unexpected {t t' : Token} (h : items[n]? = some (.ok t)) (h' : items'[n]? = some (.ok t')) :
    FailsAlike items items' n (.unexpected t) (.unexpected t')

/-- Where the items of two texts show the same, both are tokens that show the same, or the same is
wrong with them. -/
inductive ShownAlike (items items' : List (Except LexError Token)) :
    Except Failure Token → Except Failure Token → Prop
  | ok {t t' : Token} (h : t'.shown = t.shown) : ShownAlike items items' (.ok t) (.ok t')
  | error {f : Failure} (h : Nameless items items' f) : ShownAlike items items' (.error f) (.error f)

theorem shownAlike_tokenOf (h : items'.map shownItem = items.map shownItem) (n : Nat) :
    ShownAlike items items' (tokenOf items[n]?) (tokenOf items'[n]?) := by
  have hn := congrArg (fun xs => xs[n]?) h
  simp only [List.getElem?_map] at hn
  rcases hitem : items[n]? with _ | item
  · rw [hitem, Option.map_none, Option.map_eq_none_iff] at hn
    rw [hn]
    exact .error (.internal _)
  · rw [hitem, Option.map_some, Option.map_eq_some_iff] at hn
    rcases hn with ⟨item', hitem', hshown⟩
    rw [hitem']
    rcases item with e | t
    · rcases item' with e' | t'
      · cases hshown
        exact .error (.lex hitem hitem')
      · cases hshown
    · rcases item' with e' | t'
      · cases hshown
      · exact .ok (Except.ok.inj hshown)

theorem failsAlike_failureAt (h : items'.map shownItem = items.map shownItem) (n : Nat) :
    FailsAlike items items' n (failureAt items n) (failureAt items' n) := by
  have halike := shownAlike_tokenOf h n
  unfold failureAt
  generalize hleft : tokenOf items[n]? = a at halike
  generalize hright : tokenOf items'[n]? = b at halike
  cases halike with
  | ok => exact .unexpected (tokenOf_eq_ok hleft) (tokenOf_eq_ok hright)
  | error hf => exact .same hf

/-! ## Windows -/

/-- A window stands on the item after some that were matched, and has not pulled it just now unless it
is the last one pulled.  That one is to be named as unexpected once something was matched. -/
structure Standing (items : List (Except LexError Token)) (capacity pulled matched : Nat)
    (w : Window (Except LexError Token)) (furthest : Option Token) : Prop where
  room : w.capacity = capacity
  covers : w.Covers items pulled (matched + 1)
  place_pos : 0 < w.place
  matched_lt : matched < pulled
  furthest_eq : furthest = none ∧ pulled = 1 ∨
    1 < pulled ∧ ∃ t, furthest = some t ∧ items[pulled - 1]? = some (.ok t)

namespace Standing

theorem current (h : Standing items capacity pulled matched w furthest) :
    w.current = items[matched]? :=
  h.covers.current h.place_pos

/-- A search begins with the first item. -/
theorem start (hitems : items ≠ []) (capacity : Nat) :
    Standing items (max capacity 1) 1 0 (Window.fresh items capacity).rewind none := by
  have hlength := List.length_pos_iff.2 hitems
  have hcovers := Window.covers_rewind_fresh_eq items capacity
  rw [Nat.min_eq_left hlength] at hcovers
  refine ⟨?_, hcovers, Window.place_rewind_pos _, Nat.one_pos, .inl ⟨rfl, rfl⟩⟩
  rw [Window.capacity_rewind, Window.capacity_fresh]

/-- A token may be given back unless the window has dropped it. -/
theorem isValid_previous_iff (h : Standing items capacity pulled (matched + 1) w furthest) :
    w.previous.isValid = true ↔ pulled ≤ matched + capacity := by
  have hplace := h.covers.place_eq
  have hpos := h.place_pos
  have hlt := h.matched_lt
  have hle := h.covers.pulled_le
  rw [h.room] at hplace
  have hprevious : w.previous.place = w.place - 1 := rfl
  constructor
  · intro hvalid
    by_cases hzero : w.previous.place = 0
    · rw [Window.Covers.isValid_of_place hzero] at hvalid
      cases hvalid
    · omega
  · intro hroom
    exact (h.covers.previous hpos).isValid (by omega) (by omega)

theorem previous (h : Standing items capacity pulled (matched + 1) w furthest)
    (hvalid : w.previous.isValid = true) :
    Standing items capacity pulled matched w.previous furthest := by
  have hplace := h.covers.place_eq
  have hroom := h.isValid_previous_iff.1 hvalid
  have hprevious : w.previous.place = w.place - 1 := rfl
  rw [h.room] at hplace
  refine ⟨h.room, h.covers.previous h.place_pos, by omega, ?_, h.furthest_eq⟩
  have hlt := h.matched_lt
  omega

/-- Once a token was matched, there is one to be named. -/
theorem exists_furthest (h : Standing items capacity pulled (matched + 1) w furthest) :
    ∃ t, furthest = some t ∧ items[pulled - 1]? = some (.ok t) := by
  have hlt := h.matched_lt
  rcases h.furthest_eq with ⟨-, hone⟩ | ⟨-, hfurthest⟩
  · omega
  · exact hfurthest

/-- The token to be named once a match has led to a token. -/
def noted (furthest : Option Token) (t : Token) : Option Token :=
  match furthest with
  | none => some t
  | some f => if f.offset ≤ t.offset then some t else some f

/-- The match of a token leads to the next one, which is pulled now if it was not before. -/
theorem advance (hordered : Ordered items) (h : Standing items capacity pulled matched w furthest)
    {t : Token} (hnext : items[matched + 1]? = some (.ok t)) :
    Standing items capacity (max pulled (matched + 2)) (matched + 1) w.advance
      (noted furthest t) := by
  have hlength := (List.getElem?_eq_some_iff.1 hnext).1
  have hlt := h.matched_lt
  have hcovers := h.covers.advance_eq hlt
  rw [Nat.min_eq_left (show matched + 1 + 1 ≤ items.length from hlength)] at hcovers
  refine ⟨?_, hcovers, Window.Covers.place_advance_pos h.place_pos, by omega, .inr ⟨by omega, ?_⟩⟩
  · rw [Window.capacity_advance, h.room]
  rcases h.furthest_eq with ⟨rfl, hone⟩ | ⟨-, last, rfl, hlast⟩
  · refine ⟨t, rfl, ?_⟩
    rw [show max pulled (matched + 2) - 1 = matched + 1 by omega]
    exact hnext
  -- The token named before is behind the one reached, or it is the last one pulled.
  · by_cases hreached : pulled ≤ matched + 2
    · have hle : last.offset ≤ t.offset := by
        rcases Nat.lt_or_ge (pulled - 1) (matched + 1) with hbefore | hafter
        · exact Nat.le_of_lt (hordered hbefore hlast hnext)
        · rw [show pulled - 1 = matched + 1 by omega, hnext] at hlast
          cases hlast
          exact Nat.le_refl _
      refine ⟨t, if_pos hle, ?_⟩
      rw [show max pulled (matched + 2) - 1 = matched + 1 by omega]
      exact hnext
    · have hlt := hordered (show matched + 1 < pulled - 1 by omega) hnext hlast
      refine ⟨last, if_neg (Nat.not_le.2 hlt), ?_⟩
      rw [show max pulled (matched + 2) = pulled by omega]
      exact hlast

end Standing

/-! ## States -/

/-- The state of a search with a configuration, a window and a token to be named. -/
def Config.state (c : Config) (w : Window (Except LexError Token)) (furthest : Option Token) : State :=
  ⟨w, c.todo, c.trace, c.depth, furthest⟩

@[simp]
theorem Config.config_state (c : Config) : (c.state w furthest).config = c :=
  rfl

theorem State.state_config (s : State) : s.config.state s.window s.furthest = s :=
  rfl

/-- What is left to do and to remember after the match of a token. -/
def Config.afterMatch (m : Machine) (c : Config) (key : RuleKey) (kind : String)
    (unification : Option Nat) (kept : Bool) (t : Token) : Config :=
  ⟨c.todo.drop, c.depth,
    .token ⟨key, kind, t.value, t.space, (m.lexicon.representation? t.space kind).getD "",
      unification, kept⟩ :: c.trace⟩

namespace Machine

variable {m : Machine} {c : Config}

theorem token_state (h : Standing items capacity pulled (matchedCount c.trace) w furthest) :
    (c.state w furthest).token = tokenOf items[matchedCount c.trace]? := by
  rw [State.token_eq, ← h.current]
  rfl

/-- A search that has gone back to its beginning names the last item pulled. -/
theorem giveUp_of_spent (h : Standing items capacity pulled (matchedCount c.trace) w furthest) :
    giveUp (c.state w furthest) = failureAt items (pulled - 1) := by
  have hlt := h.matched_lt
  rcases h.furthest_eq with ⟨rfl, rfl⟩ | ⟨-, t, rfl, hitem⟩
  · have hnone : matchedCount c.trace = 0 := by omega
    have htoken := token_state h
    rw [hnone] at htoken
    unfold giveUp failureAt
    rw [htoken]
    rfl
  · rw [failureAt_of_ok hitem]
    rfl

/-- A search that would have to give back a token that was dropped names the last item pulled. -/
theorem giveUp_of_lost (h : Standing items capacity pulled (matched + 1) w furthest) :
    giveUp (c.state w' furthest) = failureAt items (pulled - 1) := by
  rcases h.exists_furthest with ⟨t, rfl, hitem⟩
  rw [failureAt_of_ok hitem]
  rfl

/-- What a search does once it has entered a rule, or failed to. -/
def entered (m : Machine) : Except Failure State.Entered → Progress
  | .error f => .failed f
  | .ok (.on s) => .running s
  | .ok (.blocked s) => m.backtrack s

/-- What a search does when no step is left to do. -/
def concluded (m : Machine) (s : State) : Progress :=
  match s.token with
  | .error f => .failed f
  | .ok t => if t.isEnding then .done s else m.backtrack s

/-- Two states at the same point of searches over two texts. -/
structure Abreast (items items' : List (Except LexError Token)) (capacity capacity' pulled : Nat)
    (s s' : State) : Prop where
  config_eq : s'.config = s.config
  left : Standing items capacity pulled (matchedCount s.trace) s.window s.furthest
  right : Standing items' capacity' pulled (matchedCount s.trace) s'.window s'.furthest

/-- What two searches come to from states abreast: they stay abreast, they end alike, or the first one
is lost, since its window is the smaller one and has dropped a token. -/
inductive Paired (items items' : List (Except LexError Token)) (capacity capacity' pulled : Nat) :
    Progress → Progress → Prop
  | running {s s' : State} {more : Nat} (h : Abreast items items' capacity capacity' more s s')
      (hmore : more = max pulled (matchedCount s.trace + 1)) :
      Paired items items' capacity capacity' pulled (.running s) (.running s')
  | done {s s' : State} (htrace : s'.trace = s.trace) :
      Paired items items' capacity capacity' pulled (.done s) (.done s')
  | failed {f f' : Failure} (h : FailsAlike items items' (pulled - 1) f f') :
      Paired items items' capacity capacity' pulled (.failed f) (.failed f')
  | lost {t : Token} {p : Progress} (hless : capacity < capacity') (hpulled : capacity < pulled)
      (hitem : items[pulled - 1]? = some (.ok t)) :
      Paired items items' capacity capacity' pulled (.failed (.unexpected t)) p

@[simp]
theorem matchedCount_afterMatch (c : Config) (key : RuleKey) (kind : String)
    (unification : Option Nat) (kept : Bool) (t : Token) :
    matchedCount (c.afterMatch m key kind unification kept t).trace = matchedCount c.trace + 1 :=
  matchedCount_token ..

theorem Abreast.of_state (h : Standing items capacity pulled (matchedCount c.trace) w furthest)
    (h' : Standing items' capacity' pulled (matchedCount c.trace) w' furthest') :
    Abreast items items' capacity capacity' pulled (c.state w furthest) (c.state w' furthest') :=
  ⟨rfl, h, h'⟩

/-- How two searches have ended, if they have. -/
inductive RunsAlike (items items' : List (Except LexError Token)) (capacity capacity' : Nat) :
    Option (Except Failure State) → Option (Except Failure State) → Prop
  | none : RunsAlike items items' capacity capacity' none none
  | ok {s s' : State} (htrace : s'.trace = s.trace) :
    RunsAlike items items' capacity capacity' (some (.ok s)) (some (.ok s'))
  | error {n : Nat} {f f' : Failure} (h : FailsAlike items items' n f f') :
    RunsAlike items items' capacity capacity' (some (.error f)) (some (.error f'))
  | lost {t : Token} {n : Nat} {r : Option (Except Failure State)} (hless : capacity < capacity')
      (hpulled : capacity < n) (hitem : items[n - 1]? = some (.ok t)) :
    RunsAlike items items' capacity capacity' (some (.error (.unexpected t))) r

/-! ## Going back -/

/-- Where the first window has dropped the token to go back to, the first search gives up; the second
one does too, or its window is the larger one. -/
private theorem paired_of_dropped (hshown : items'.map shownItem = items.map shownItem)
    (hcapacity : capacity ≤ capacity') {es : List Event}
    (h : Standing items capacity pulled (matchedCount es + 1) w furthest)
    (h' : Standing items' capacity' pulled (matchedCount es + 1) w' furthest')
    (hleft : ¬w.previous.isValid = true) (p : Progress)
    (hp : ¬w'.previous.isValid = true →
      p = .failed (giveUp (Config.state { c with trace := es } w'.previous furthest'))) :
    Paired items items' capacity capacity' pulled
      (.failed (giveUp (Config.state { c with trace := es } w.previous furthest))) p := by
  have hlost : giveUp (Config.state { c with trace := es } w.previous furthest) =
      failureAt items (pulled - 1) := giveUp_of_lost h
  rw [hlost]
  by_cases hright : w'.previous.isValid = true
  · rcases h.exists_furthest with ⟨t, -, hitem⟩
    rw [failureAt_of_ok hitem]
    rw [h.isValid_previous_iff] at hleft
    rw [h'.isValid_previous_iff] at hright
    exact .lost (by omega) (by omega) hitem
  · have hlost' : giveUp (Config.state { c with trace := es } w'.previous furthest') =
        failureAt items' (pulled - 1) := giveUp_of_lost h'
    rw [hp hright, hlost']
    exact .failed (failsAlike_failureAt hshown _)

/-- Going back from states abreast comes to the same decision, or both searches give up, or the first
one has to. -/
private theorem paired_retreat (hshown : items'.map shownItem = items.map shownItem)
    (hcapacity : capacity ≤ capacity') (es : List Event)
    (h : Standing items capacity pulled (matchedCount es) w furthest)
    (h' : Standing items' capacity' pulled (matchedCount es) w' furthest') :
    Paired items items' capacity capacity' pulled
      (match State.retreatThrough m (c.state w furthest) es with
        | .resumed s => .running s
        | .exhausted s => .failed (giveUp s))
      (match State.retreatThrough m (c.state w' furthest') es with
        | .resumed s => .running s
        | .exhausted s => .failed (giveUp s)) := by
  have hrunning {c : Config} {w w' : Window (Except LexError Token)}
      (h : Standing items capacity pulled (matchedCount c.trace) w furthest)
      (h' : Standing items' capacity' pulled (matchedCount c.trace) w' furthest') :
      Paired items items' capacity capacity' pulled (.running (c.state w furthest))
        (.running (c.state w' furthest')) := by
    refine .running (.of_state h h') ?_
    have hlt := h.matched_lt
    show pulled = max pulled (matchedCount c.trace + 1)
    omega
  induction es generalizing w w' with
  | nil =>
    have hleft := giveUp_of_spent (c := { c with trace := [] }) h
    have hright := giveUp_of_spent (c := { c with trace := [] }) h'
    show Paired _ _ _ _ _ (.failed (giveUp (Config.state { c with trace := [] } w furthest)))
      (.failed (giveUp (Config.state { c with trace := [] } w' furthest')))
    rw [hleft, hright]
    exact .failed (failsAlike_failureAt hshown _)
  | cons e es ih =>
    cases e with
    | enter call depth left =>
      rw [matchedCount_enter] at h h'
      simp only [State.retreatThrough]
      by_cases hchoice : m.isChoice call.rule = true
      · rw [if_pos hchoice, if_pos hchoice]
        exact hrunning
          (c := ⟨left.push (.enter { call with data := call.data + 1 }), call.depthOutside depth, es⟩)
          h h'
      · rw [if_neg hchoice, if_neg hchoice]
        exact ih h h'
    | leave call depth left =>
      rw [matchedCount_leave] at h h'
      simp only [State.retreatThrough]
      by_cases hrepetition : m.isRepetition call.rule = true
      · rw [if_pos hrepetition, if_pos hrepetition]
        exact hrunning
          (c := ⟨left.push (.enter { call with data := call.data + 1 }), depth, es⟩) h h'
      · rw [if_neg hrepetition, if_neg hrepetition]
        exact ih h h'
    | token t =>
      rw [matchedCount_token] at h h'
      simp only [State.retreatThrough]
      by_cases hleft : w.previous.isValid = true
      · have hright : w'.previous.isValid = true := by
          rw [h'.isValid_previous_iff]
          rw [h.isValid_previous_iff] at hleft
          omega
        rw [if_pos (show (Config.state c w furthest).window.previous.isValid = true from hleft),
          if_pos (show (Config.state c w' furthest').window.previous.isValid = true from hright)]
        exact ih (h.previous hleft) (h'.previous hright)
      · rw [if_neg (show ¬(Config.state c w furthest).window.previous.isValid = true from hleft)]
        refine paired_of_dropped (c := c) hshown hcapacity h h' hleft _ fun hright => ?_
        rw [if_neg (show ¬(Config.state c w' furthest').window.previous.isValid = true from hright)]
        rfl

theorem paired_backtrack (hshown : items'.map shownItem = items.map shownItem)
    (hcapacity : capacity ≤ capacity')
    (h : Standing items capacity pulled (matchedCount c.trace) w furthest)
    (h' : Standing items' capacity' pulled (matchedCount c.trace) w' furthest') :
    Paired items items' capacity capacity' pulled (m.backtrack (c.state w furthest))
      (m.backtrack (c.state w' furthest')) :=
  paired_retreat hshown hcapacity c.trace h h'

/-! ## Entering a rule -/

/-- What entering a rule that matches no token comes to, whatever the window. -/
private inductive Blind (m : Machine) (c : Config) (call : Call) : Prop
  | broken (detail : String)
      (h : ∀ w furthest, State.enter m (c.state w furthest) call = .error (.internal detail))
  | blocked (h : ∀ w furthest, State.enter m (c.state w furthest) call =
      .ok (.blocked (c.state w furthest)))
  | on (c' : Config) (hcount : matchedCount c'.trace = matchedCount c.trace)
      (h : ∀ w furthest, State.enter m (c.state w furthest) call = .ok (.on (c'.state w furthest)))

private theorem blind_of_unknown {call : Call} (hr : m.rules.get? call.rule = none) :
    Blind m c call := by
  refine .broken ("unknown rule " ++ call.rule.render) fun w furthest => ?_
  unfold State.enter
  rw [hr]

/-- Planning does not look at the window, so neither does what comes to a plan or to its failure. -/
private theorem blind_of_plan {call : Call} (plan : Except Failure Todo) (after : Todo → Config)
    (hplan : ∀ {f}, plan = .error f → ∃ detail, f = .internal detail)
    (hcount : ∀ todo, matchedCount (after todo).trace = matchedCount c.trace)
    (h : ∀ w furthest, State.enter m (c.state w furthest) call =
      plan.map fun todo => .on ((after todo).state w furthest)) : Blind m c call := by
  rcases plan with f | todo
  · rcases hplan rfl with ⟨detail, rfl⟩
    exact .broken detail h
  · exact .on (after todo) (hcount todo) h

private theorem blind_concatenation {call : Call} {r : Rule} {children : List RuleKey}
    (hr : m.rules.get? call.rule = some r) (hbody : r.body = .concatenation children) :
    Blind m c call := by
  refine blind_of_plan (State.planAll m c.todo children.reverse)
    (fun todo => ⟨todo, if r.transitional then c.depth else c.depth + 1,
      .enter { call with data := 0, transitional := r.transitional }
        (if r.transitional then c.depth else c.depth + 1) .empty :: c.trace⟩)
    internal_of_planAll (fun _ => matchedCount_enter ..) fun w furthest => ?_
  simp only [State.enter, hr, hbody, State.enterConcatenation, Config.state, State.innerDepth]
  cases State.planAll m c.todo children.reverse <;> rfl

private theorem blind_choice {call : Call} {r : Rule} {children : List RuleKey}
    (hr : m.rules.get? call.rule = some r) (hbody : r.body = .choice children) :
    Blind m c call := by
  rcases hchild : children[call.data]? with _ | child
  · refine .blocked fun w furthest => ?_
    simp only [State.enter, hr, hbody, State.enterChoice, hchild]
  · refine blind_of_plan (State.plan m c.todo child)
      (fun todo => ⟨todo, if r.transitional then c.depth else c.depth + 1,
        .enter { call with transitional := r.transitional }
          (if r.transitional then c.depth else c.depth + 1) c.todo :: c.trace⟩)
      internal_of_plan (fun _ => matchedCount_enter ..) fun w furthest => ?_
    simp only [State.enter, hr, hbody, State.enterChoice, hchild, Config.state, State.innerDepth]
    cases State.plan m c.todo child <;> rfl

private theorem blind_repetition {call : Call} {r : Rule} {bounds : Bounds} {child : RuleKey}
    (hr : m.rules.get? call.rule = some r) (hbody : r.body = .repetition bounds child) :
    Blind m c call := by
  by_cases hdata : call.data = 0
  · generalize hleft : c.todo.drop.push
      (.leave { call with data := bounds.min, transitional := r.transitional } true) = left
    refine blind_of_plan (State.planAll m left (List.replicate bounds.min child))
      (fun todo => ⟨todo, if r.transitional then c.depth else c.depth + 1,
        .enter { call with data := bounds.min, transitional := r.transitional }
          (if r.transitional then c.depth else c.depth + 1) .empty :: c.trace⟩)
      internal_of_planAll (fun _ => matchedCount_enter ..) fun w furthest => ?_
    simp only [State.enter, hr, hbody, State.enterRepetition, hdata, if_true, Config.state,
      planTimes_eq_planAll, State.innerDepth, hleft]
    cases State.planAll m left (List.replicate bounds.min child) <;> rfl
  · by_cases hadmits : bounds.admits call.data = true
    · generalize hleft : c.todo.push (.leave { call with transitional := r.transitional } true) = left
      refine blind_of_plan (State.plan m left child) (fun todo => ⟨todo, c.depth, c.trace⟩)
        internal_of_plan (fun _ => rfl) fun w furthest => ?_
      simp only [State.enter, hr, hbody, State.enterRepetition, hdata, if_false, hadmits, if_true,
        Config.state, hleft]
      cases State.plan m left child <;> rfl
    · refine .blocked fun w furthest => ?_
      simp only [State.enter, hr, hbody, State.enterRepetition, hdata, if_false, hadmits]
      rfl

/-- Only a rule that matches a token looks at the window when it is entered. -/
private theorem blind_or_token (c : Config) (call : Call) :
    Blind m c call ∨ ∃ r kind unification kept, m.rules.get? call.rule = some r ∧
      r.body = .token kind unification kept := by
  rcases hr : m.rules.get? call.rule with _ | r
  · exact .inl (blind_of_unknown hr)
  · cases hbody : r.body with
    | token kind unification kept => exact .inr ⟨r, kind, unification, kept, rfl, hbody⟩
    | concatenation children => exact .inl (blind_concatenation hr hbody)
    | choice children => exact .inl (blind_choice hr hbody)
    | repetition bounds child => exact .inl (blind_repetition hr hbody)

/-! ## Matching a token -/

private theorem noteProgress_state
    (h : (c.state w furthest).token = tokenOf items[matched]?) :
    (c.state w furthest).noteProgress =
      (tokenOf items[matched]?).map fun t => c.state w (Standing.noted furthest t) := by
  unfold State.noteProgress
  rw [h]
  rcases tokenOf items[matched]? with f | t
  · rfl
  · rcases furthest with _ | last
    · rfl
    · dsimp only [Config.state, Standing.noted, Except.map]
      split <;> rfl

private theorem matchToken_state (h : Standing items capacity pulled (matchedCount c.trace) w furthest)
    (key : RuleKey) (kind : String) (unification : Option Nat) (kept : Bool) :
    State.matchToken m (c.state w furthest) key kind unification kept =
      (tokenOf items[matchedCount c.trace]?).bind fun t =>
        if accepts kind unification c.depth c.trace t then
          (tokenOf items[matchedCount c.trace + 1]?).map fun u =>
            .on ((c.afterMatch m key kind unification kept t).state w.advance
              (Standing.noted furthest u))
        else .ok (.blocked (c.state w furthest)) := by
  have htoken := token_state h
  unfold State.matchToken
  rw [htoken]
  rcases tokenOf items[matchedCount c.trace]? with f | t
  · rfl
  rw [Except.bind]
  have hcurrent := (h.covers.advance_eq h.matched_lt).current
    (Window.Covers.place_advance_pos h.place_pos)
  have hnext : ((c.afterMatch m key kind unification kept t).state w.advance furthest).token =
      tokenOf items[matchedCount c.trace + 1]? := by
    rw [State.token_eq]
    exact congrArg tokenOf hcurrent
  have hnote := noteProgress_state hnext
  dsimp only
  by_cases haccepts : accepts kind unification c.depth c.trace t = true
  · rcases accepts_iff.1 haccepts with ⟨hkind, hunified⟩
    rw [if_pos haccepts, if_neg (not_not_intro hkind)]
    refine (if_neg hunified).trans ?_
    generalize hr : State.noteProgress _ = r
    obtain rfl : r = _ := hr.symm.trans hnote
    rcases tokenOf items[matchedCount c.trace + 1]? with f | u <;> rfl
  · rw [if_neg haccepts]
    by_cases hkind : t.kind = kind
    · rw [if_neg (not_not_intro hkind)]
      refine if_pos (Classical.not_not.1 fun hunified => ?_)
      exact haccepts (accepts_iff.2 ⟨hkind, hunified⟩)
    · rw [if_pos hkind]

/-! ## Steps and runs -/

section

variable (hshown : items'.map shownItem = items.map shownItem) (hordered : Ordered items)
  (hordered' : Ordered items') (hcapacity : capacity ≤ capacity')

include hshown hordered hordered' hcapacity

private theorem paired_matchToken
    (h : Standing items capacity pulled (matchedCount c.trace) w furthest)
    (h' : Standing items' capacity' pulled (matchedCount c.trace) w' furthest') (key : RuleKey)
    (kind : String) (unification : Option Nat) (kept : Bool) :
    Paired items items' capacity capacity' pulled
      (m.entered (State.matchToken m (c.state w furthest) key kind unification kept))
      (m.entered (State.matchToken m (c.state w' furthest') key kind unification kept)) := by
  rw [matchToken_state h, matchToken_state h']
  have hnow := shownAlike_tokenOf hshown (matchedCount c.trace)
  generalize tokenOf items[matchedCount c.trace]? = a at hnow
  generalize tokenOf items'[matchedCount c.trace]? = a' at hnow
  cases hnow with
  | error hf => exact .failed (.same hf)
  | @ok t t' ht =>
    obtain ⟨hkind, hvalue, hspace⟩ :
        t'.kind = t.kind ∧ t'.value = t.value ∧ t'.space = t.space := by
      simpa [Token.shown] using ht
    have haccepts : accepts kind unification c.depth c.trace t' =
        accepts kind unification c.depth c.trace t := by
      rw [accepts, accepts, hkind, hvalue]
    have hafter : c.afterMatch m key kind unification kept t' =
        c.afterMatch m key kind unification kept t := by
      rw [Config.afterMatch, Config.afterMatch, hvalue, hspace]
    rw [Except.bind, Except.bind, haccepts, hafter]
    by_cases hmatch : accepts kind unification c.depth c.trace t = true
    · rw [if_pos hmatch, if_pos hmatch]
      have hnext := shownAlike_tokenOf hshown (matchedCount c.trace + 1)
      rcases hitem : tokenOf items[matchedCount c.trace + 1]? with f | u
      all_goals rcases hitem' : tokenOf items'[matchedCount c.trace + 1]? with f' | u'
      all_goals rw [hitem, hitem'] at hnext
      · cases hnext with
        | error hf => exact .failed (.same hf)
      · cases hnext
      · cases hnext
      · have hleft := h.advance hordered (tokenOf_eq_ok hitem)
        have hright := h'.advance hordered' (tokenOf_eq_ok hitem')
        rw [← matchedCount_afterMatch (m := m) c key kind unification kept t] at hleft hright
        refine .running (.of_state hleft hright) ?_
        show _ = max pulled (matchedCount (c.afterMatch m key kind unification kept t).trace + 1)
        rw [matchedCount_afterMatch]
    · rw [if_neg hmatch, if_neg hmatch]
      exact paired_backtrack hshown hcapacity h h'

private theorem paired_enter (call : Call)
    (h : Standing items capacity pulled (matchedCount c.trace) w furthest)
    (h' : Standing items' capacity' pulled (matchedCount c.trace) w' furthest') :
    Paired items items' capacity capacity' pulled
      (m.entered (State.enter m (c.state w furthest) call))
      (m.entered (State.enter m (c.state w' furthest') call)) := by
  rcases blind_or_token (m := m) c call with hblind | ⟨r, kind, unification, kept, hr, hbody⟩
  · cases hblind with
    | broken detail hbroken =>
      rw [hbroken, hbroken]
      exact .failed (.same (.internal detail))
    | blocked hblocked =>
      rw [hblocked, hblocked]
      exact paired_backtrack hshown hcapacity h h'
    | on c' hcount hon =>
      rw [hon, hon]
      rw [← hcount] at h h'
      have hlt := h.matched_lt
      exact .running (.of_state h h') (Nat.max_eq_left hlt).symm
  · have hentered {w : Window (Except LexError Token)} {furthest : Option Token} :
        State.enter m (c.state w furthest) call =
          State.matchToken m (c.state w furthest) call.rule kind unification kept := by
      simp only [State.enter, hr, hbody]
    rw [hentered, hentered]
    exact paired_matchToken hshown hordered hordered' hcapacity h h' call.rule kind unification kept

private theorem paired_step_state
    (h : Standing items capacity pulled (matchedCount c.trace) w furthest)
    (h' : Standing items' capacity' pulled (matchedCount c.trace) w' furthest') :
    Paired items items' capacity capacity' pulled (m.step (c.state w furthest))
      (m.step (c.state w' furthest')) := by
  rcases hpop : c.todo.pop? with _ | ⟨step, todo⟩
  · have hstep (w : Window (Except LexError Token)) (furthest : Option Token) :
        m.step (c.state w furthest) = m.concluded (c.state w furthest) := by
      simp only [Machine.step, Config.state, hpop]
      rfl
    rw [hstep, hstep]
    unfold concluded
    rw [token_state h, token_state h']
    have hnow := shownAlike_tokenOf hshown (matchedCount c.trace)
    generalize tokenOf items[matchedCount c.trace]? = a at hnow
    generalize tokenOf items'[matchedCount c.trace]? = a' at hnow
    cases hnow with
    | error hf => exact .failed (.same hf)
    | @ok t t' ht =>
      have hkind : t'.kind = t.kind := congrArg Prod.fst ht
      have hending : t'.isEnding = t.isEnding := by
        rw [Token.isEnding, Token.isEnding, hkind]
      dsimp only
      rw [hending]
      split
      · exact .done rfl
      · exact paired_backtrack hshown hcapacity h h'
  · cases step with
    | leave call decision =>
      have hstep (w : Window (Except LexError Token)) (furthest : Option Token) :
          m.step (c.state w furthest) =
            .running (({ c with todo := todo }.state w furthest).leave call decision) := by
        simp only [Machine.step, Config.state, hpop]
      have hcount : matchedCount
          (.leave call c.depth (if decision then todo else .empty) :: c.trace) =
            matchedCount c.trace := matchedCount_leave ..
      rw [← hcount] at h h'
      have hlt := h.matched_lt
      rw [hstep, hstep]
      exact .running (.of_state
        (c := ⟨todo, if call.transitional then c.depth else c.depth - 1,
          .leave call c.depth (if decision then todo else .empty) :: c.trace⟩) h h')
        (Nat.max_eq_left hlt).symm
    | enter call =>
      have hstep (w : Window (Except LexError Token)) (furthest : Option Token) :
          m.step (c.state w furthest) =
            m.entered (State.enter m (Config.state { c with todo := todo } w furthest) call) := by
        simp only [Machine.step, Config.state, hpop]
        rfl
      rw [hstep, hstep]
      exact paired_enter hshown hordered hordered' hcapacity call h h'

/-- States abreast stay abreast, or both searches end alike, or the first one is lost. -/
theorem paired_step {s s' : State} (h : Abreast items items' capacity capacity' pulled s s') :
    Paired items items' capacity capacity' pulled (m.step s) (m.step s') := by
  rcases h with ⟨hconfig, h, h'⟩
  rw [← s.state_config, ← s'.state_config, hconfig]
  exact paired_step_state hshown hordered hordered' hcapacity h h'

/-- From states abreast, neither search has ended yet, or both have ended alike, or the first one is
lost. -/
theorem paired_run (fuel : Nat) {s s' : State}
    (h : Abreast items items' capacity capacity' pulled s s') :
    RunsAlike items items' capacity capacity' (m.run fuel s) (m.run fuel s') := by
  induction fuel generalizing s s' pulled with
  | zero => exact .none
  | succ fuel ih =>
    have hstep := paired_step (m := m) hshown hordered hordered' hcapacity h
    rw [run_succ, run_succ]
    generalize m.step s = p at hstep
    generalize m.step s' = p' at hstep
    cases hstep with
    | running hmore => exact ih hmore
    | done htrace => exact .ok htrace
    | failed hfailed => exact .error hfailed
    | lost hless hpulled hitem => exact .lost hless hpulled hitem

end

/-- Searches for one rule begin abreast. -/
theorem abreast_initial {root : RuleKey} {k k' : Nat} {s s' : State} (hitems : items ≠ [])
    (hitems' : items' ≠ []) (h : m.initial items k root = .ok s)
    (h' : m.initial items' k' root = .ok s') :
    Abreast items items' (max k 1) (max k' 1) 1 s s' := by
  unfold initial at h h'
  rcases hplan : State.plan m .empty root with f | todo
  · rw [hplan] at h
    cases h
  · rw [hplan] at h h'
    cases h
    cases h'
    exact .of_state (c := ⟨todo, -1, []⟩) (.start hitems k) (.start hitems' k')

end Machine

end Descent
