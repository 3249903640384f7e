import Descent.Proofs.Search.SideBySide

/-!
# What a search visits

A search goes on with the first of its moves, and what it records about a decision is enough to come
back to the second one.  So it works off a list: where it is, and what its decisions have left for
later.  Everything on the list is the end of a path from the beginning, and a search that gives up with
nothing left on it has visited the ends of all paths.

Main results:

- `Machine.agenda` is that list, and `Machine.agenda_of_step` says what a step makes of it.
- `Machine.Comes.exists_beginning`: what a search visits is the beginning of a derivation.
- `Machine.furthest_of_run`: a search that names a token as unexpected names the furthest one.
-/

namespace Descent

namespace Machine

variable {m : Machine} {items : List (Except LexError Token)} {capacity pulled fuel : Nat}
  {s s' s₀ : State} {c c' : Config} {root : RuleKey} {t : Token}

/-! ## What is left for later -/

/-- The second possibilities of the decisions among some events, that of the last decision first. -/
def alternatives (m : Machine) : List Event → List Config
  | [] => []
  | .enter call depth left :: rest =>
    if m.isChoice call.rule then
      ⟨left.push (.enter { call with data := call.data + 1 }), call.depthOutside depth, rest⟩ ::
        m.alternatives rest
    else m.alternatives rest
  | .leave call depth left :: rest =>
    if m.isRepetition call.rule then
      ⟨left.push (.enter { call with data := call.data + 1 }), depth, rest⟩ :: m.alternatives rest
    else m.alternatives rest
  | .token _ :: rest => m.alternatives rest

/-- Where a search is, and where it may still come to by going back. -/
def agenda (m : Machine) (s : State) : List Config :=
  s.config :: m.alternatives s.trace

section

variable {call : Call} {depth : Int} {left : Todo} {trace : List Event} {key : RuleKey} {r : Rule}
  {rest : List (List Bool × Config)} {ds : List Bool}

theorem alternatives_enter (h : m.isChoice call.rule = false) :
    m.alternatives (.enter call depth left :: trace) = m.alternatives trace := by
  rw [alternatives, if_neg (by simp [h])]

theorem alternatives_choice (h : m.isChoice call.rule = true) :
    m.alternatives (.enter call depth left :: trace) =
      ⟨left.push (.enter { call with data := call.data + 1 }), call.depthOutside depth, trace⟩ ::
        m.alternatives trace := by
  rw [alternatives, if_pos h]

theorem alternatives_leave (h : m.isRepetition call.rule = false) :
    m.alternatives (.leave call depth left :: trace) = m.alternatives trace := by
  rw [alternatives, if_neg (by simp [h])]

theorem alternatives_repetition (h : m.isRepetition call.rule = true) :
    m.alternatives (.leave call depth left :: trace) =
      ⟨left.push (.enter { call with data := call.data + 1 }), depth, trace⟩ ::
        m.alternatives trace := by
  rw [alternatives, if_pos h]

private theorem alternatives_of_enter {todo : Todo} {index : Nat} (hr : m.rules.get? key = some r)
    (hindex : index = 0 ∨ m.isChoice key = true)
    (h : m.moves items ⟨todo.push (.enter (m.use key index)), depth, trace⟩ = (ds, c') :: rest) :
    m.alternatives c'.trace = rest.map Prod.snd ++ m.alternatives trace := by
  have hchoice := isChoice_of_body hr
  cases hbody : r.body with
  | token kind unification kept =>
    rw [moves_token hr hbody] at h
    split at h
    · split at h
      · cases h
        rfl
      · cases h
    · cases h
  | concatenation children =>
    rw [hbody] at hchoice
    rw [moves_concatenation hr hbody] at h
    cases h
    exact alternatives_enter hchoice
  | choice children =>
    rw [hbody] at hchoice
    rcases hchild : children[index]? with _ | child
    · rw [moves_choice_of_none hr hbody hchild] at h
      cases h
    · rw [moves_choice hr hbody hchild] at h
      cases h
      rw [alternatives_choice hchoice, depthOutside_depthInside]
      rfl
  | repetition bounds child =>
    rw [hbody] at hchoice
    have hzero : index = 0 := by
      rw [hchoice] at hindex
      simpa [RuleBody.isChoice] using hindex
    rw [hzero, moves_repetition hr hbody] at h
    cases h
    exact alternatives_enter hchoice

private theorem alternatives_of_again {todo : Todo} {made : Nat} (hkey : m.isRepetition key = true)
    (h : m.moves items ⟨todo.push (.enter (m.use key (made + 1))), depth, trace⟩ =
      (ds, c') :: rest) : m.alternatives c'.trace = rest.map Prod.snd ++ m.alternatives trace := by
  rcases hr : m.rules.get? key with _ | r
  · rw [moves_unknown hr] at h
    cases h
  · rw [isRepetition_of_body hr] at hkey
    cases hbody : r.body with
    | repetition bounds child =>
      rw [moves_again hr hbody] at h
      split at h
      · cases h
        rfl
      · cases h
    | token | concatenation | choice =>
      rw [hbody] at hkey
      cases hkey

/-- The first move leaves the others for later. -/
theorem alternatives_of_moves (horderly : m.Orderly c.todo)
    (h : m.moves items c = (ds, c') :: rest) :
    m.alternatives c'.trace = rest.map Prod.snd ++ m.alternatives c.trace := by
  rcases c with ⟨todo, depth, trace⟩
  dsimp only at horderly
  cases horderly with
  | empty => cases h
  | leave hcall htodo =>
    cases h
    exact alternatives_leave hcall
  | decision hkey htodo =>
    cases h
    exact alternatives_repetition hkey
  | enter hknown hindex htodo =>
    rcases Option.ne_none_iff_exists'.1 hknown with ⟨r, hr⟩
    exact alternatives_of_enter hr hindex h
  | again hkey htodo => exact alternatives_of_again hkey h

/-- Going back takes up the first thing that is left for later. -/
theorem alternatives_of_resumed {es : List Event} (h : State.retreatThrough m s es = .resumed s') :
    m.alternatives es = m.agenda s' := by
  induction es generalizing s with
  | nil => cases h
  | cons e es ih =>
    cases e with
    | enter call depth left =>
      unfold State.retreatThrough at h
      split at h
      · rename_i hchoice
        cases h
        exact alternatives_choice hchoice
      · rename_i hchoice
        rw [alternatives_enter (Bool.eq_false_iff.2 hchoice)]
        exact ih h
    | leave call depth left =>
      unfold State.retreatThrough at h
      split at h
      · rename_i hrepetition
        cases h
        exact alternatives_repetition hrepetition
      · rename_i hrepetition
        rw [alternatives_leave (Bool.eq_false_iff.2 hrepetition)]
        exact ih h
    | token t =>
      unfold State.retreatThrough at h
      dsimp only at h
      split at h
      · exact ih h
      · cases h

/-- Where the window has not dropped a token, going back is in vain only if nothing is left for
later. -/
theorem alternatives_of_exhausted {es : List Event} {furthest : Option Token}
    (hstanding : Standing items capacity pulled (matchedCount es) s.window furthest)
    (hroom : pulled ≤ capacity) (h : State.retreatThrough m s es = .exhausted s') :
    m.alternatives es = [] := by
  induction es generalizing s with
  | nil => rfl
  | cons e es ih =>
    cases e with
    | enter call depth left =>
      rw [matchedCount_enter] at hstanding
      unfold State.retreatThrough at h
      split at h
      · cases h
      · rename_i hchoice
        rw [alternatives_enter (Bool.eq_false_iff.2 hchoice)]
        exact ih hstanding h
    | leave call depth left =>
      rw [matchedCount_leave] at hstanding
      unfold State.retreatThrough at h
      split at h
      · cases h
      · rename_i hrepetition
        rw [alternatives_leave (Bool.eq_false_iff.2 hrepetition)]
        exact ih hstanding h
    | token t =>
      rw [matchedCount_token] at hstanding
      have hvalid : s.window.previous.isValid = true :=
        hstanding.isValid_previous_iff.2 (Nat.le_trans hroom (Nat.le_add_left _ _))
      unfold State.retreatThrough at h
      rw [if_pos hvalid] at h
      exact ih (s := { s with window := s.window.previous }) (hstanding.previous hvalid) h

end

/-- A step puts the moves there are in the place of where the search is. -/
theorem agenda_of_step (hgood : m.Good items capacity s) (hstep : m.step s = .running s') :
    m.agenda s' = (m.moves items s.config).map Prod.snd ++ m.alternatives s.trace := by
  cases stepped hgood with
  | done hdone =>
    rw [hstep] at hdone
    cases hdone
  | broken hfailed =>
    rw [hstep] at hfailed
    cases hfailed
  | forced hrunning hmoves =>
    rw [hstep] at hrunning
    cases hrunning
    have hlater := alternatives_of_moves (c := s.config) hgood.orderly hmoves
    rw [hmoves]
    exact congrArg (s'.config :: ·) hlater
  | decided hrunning hmoves =>
    rw [hstep] at hrunning
    cases hrunning
    have hlater := alternatives_of_moves (c := s.config) hgood.orderly hmoves
    rw [hmoves]
    exact congrArg (s'.config :: ·) hlater
  | @stuck s₁ hback htrace hplaced hmoves =>
    rw [hstep] at hback
    unfold backtrack State.retreat at hback
    rw [hmoves, ← htrace]
    rcases hretreat : State.retreatThrough m s₁ s₁.trace with s₂ | s₂
    · rw [hretreat] at hback
      cases hback
      exact (alternatives_of_resumed hretreat).symm
    · rw [hretreat] at hback
      cases hback

/-! ## Paths to what is visited -/

/-- A path leads from one configuration to another. -/
def Comes (m : Machine) (items : List (Except LexError Token)) (c c' : Config) : Prop :=
  ∃ n ds, m.Path items n c ds c'

namespace Comes

theorem refl (c : Config) : m.Comes items c c :=
  ⟨0, [], .refl c⟩

theorem move {c₁ : Config} (h : m.Comes items c c₁)
    (hnext : c' ∈ (m.moves items c₁).map Prod.snd) : m.Comes items c c' := by
  rcases h with ⟨n, ds, hpath⟩
  rcases List.mem_map.1 hnext with ⟨⟨d, c₂⟩, hmove, rfl⟩
  exact ⟨n + 1, ds ++ d, hpath.trans (.single hmove)⟩

theorem eq_or_move (h : m.Comes items c c') :
    c' = c ∨ ∃ c₁ ∈ (m.moves items c).map Prod.snd, m.Comes items c₁ c' := by
  rcases h with ⟨n, ds, hpath⟩
  rcases hpath.stays_or_moves with rfl | ⟨k, d, es, c₁, -, hmove, -, hrest⟩
  · exact .inl rfl
  · exact .inr ⟨c₁, List.mem_map_of_mem hmove, k, es, hrest⟩

end Comes

/-- The configuration in which a search for a rule begins. -/
def outset (m : Machine) (root : RuleKey) : Config :=
  ⟨m.planned .empty root, -1, []⟩

theorem config_of_initial (h : m.initial items capacity root = .ok s₀) :
    s₀.config = m.outset root := by
  have hroot : m.rules.get? root ≠ none := by
    intro hunknown
    rcases plan_of_unknown hunknown .empty with ⟨f, hf⟩
    rw [initial, hf] at h
    cases h
  rw [initial, plan_of_get? hroot] at h
  cases h
  rfl

/-- All that a search has on its list is the end of a path from the beginning. -/
theorem comes_of_mem_agenda (hclosed : m.rules.Closed)
    (hinitial : m.initial items capacity root = .ok s₀) (h : m.Reaches s₀ s) (hc : c ∈ m.agenda s) :
    m.Comes items (m.outset root) c := by
  induction h generalizing c with
  | refl =>
    have hconfig := config_of_initial hinitial
    have htrace : s₀.trace = [] := congrArg Config.trace hconfig
    have hagenda : m.agenda s₀ = [m.outset root] := by
      rw [agenda, htrace, hconfig, alternatives]
    rw [hagenda, List.mem_singleton] at hc
    rw [hc]
    exact .refl _
  | tail hreach hstep ih =>
    have hgood := (steady_of_reaches hclosed hinitial hreach).good
    rw [agenda_of_step hgood hstep, List.mem_append] at hc
    rcases hc with hmove | hlater
    · exact (ih List.mem_cons_self).move hmove
    · exact ih (List.mem_cons_of_mem _ hlater)

theorem comes_of_reaches (hclosed : m.rules.Closed)
    (hinitial : m.initial items capacity root = .ok s₀) (h : m.Reaches s₀ s) :
    m.Comes items (m.outset root) s.config :=
  comes_of_mem_agenda hclosed hinitial h List.mem_cons_self

/-! ## Beginnings of derivations -/

/-- A configuration is at the end of a beginning of a rule. -/
structure Reads (m : Machine) (items : List (Except LexError Token)) (root : RuleKey) (c : Config)
    (b : Beginning) : Prop where
  derives : m.DerivesPart root b.yield b
  tokens : b.yield.map Except.ok <+: items
  trace_eq : c.trace.reverse = b.linearize m (-1) .empty

/-- What is at the end of a path is the beginning of a derivation. -/
theorem Comes.exists_beginning (h : m.Comes items (m.outset root) c) :
    ∃ b, m.Reads items root c b := by
  rcases h with ⟨n, ds, hpath⟩
  rcases hpath.derivation_or_stops (sees_nil _) with ⟨d, k, es, hrule, hd, -, hrest⟩ | ⟨b, hb⟩
  · rcases hrest.stays_or_moves with rfl | ⟨j, e, fs, c₁, -, hmove, -⟩
    · have hunified : m.UnifiedPart (.whole d) := admitsPart_nil_iff.1 hd.admits
      refine ⟨.whole d, ⟨hrule, .whole hd.fits, rfl, hunified⟩, hd.tokens, ?_⟩
      rw [List.append_nil, List.reverse_reverse, Beginning.linearize]
    · cases hmove
  · refine ⟨b, ⟨hb.rule_eq, hb.follows.starts, rfl, admitsPart_nil_iff.1 hb.follows.admits⟩,
      hb.follows.tokens, ?_⟩
    rw [hb.trace_eq, List.append_nil, List.reverse_reverse]

theorem Reads.matchedCount_eq {b : Beginning} (h : m.Reads items root c b) :
    matchedCount c.trace = b.yield.length := by
  rw [← matchedCount_reverse, h.trace_eq, h.derives.starts.matchedCount_linearize]

/-- Every beginning of a derivation is at the end of a path. -/
theorem exists_comes_of_derivesPart {b : Beginning} {ts : List Token}
    (h : m.DerivesPart root ts b) (htokens : ts.map Except.ok <+: items) :
    ∃ c, m.Comes items (m.outset root) c ∧ matchedCount c.trace = ts.length := by
  have hfollows : m.FollowsPart items [] [] b := by
    refine ⟨h.starts, admitsPart_nil_iff.2 h.unified, ?_⟩
    rw [h.yield_eq]
    exact htokens
  rcases exists_path_of_followsPart .empty (sees_nil (-1)) hfollows with ⟨n, ds, c, hpath, hcount⟩
  rw [h.rule_eq] at hpath
  refine ⟨c, ⟨n, ds, hpath⟩, ?_⟩
  rw [hcount, h.yield_eq, matchedCount_nil, Nat.zero_add]

/-! ## The token that is named -/

/-- A search from a state that has pulled some items comes to name item `n`: no state is reached with
more tokens matched, and unless the window has dropped a token, everything that is on the list or comes
from it is visited. -/
structure NamesFurthest (m : Machine) (items : List (Except LexError Token))
    (capacity pulled : Nat) (s : State) (t : Token) (n : Nat) : Prop where
  item : items[n]? = some (.ok t)
  pulled_le : pulled ≤ n + 1
  matched_le : ∀ s', m.Reaches s s' → matchedCount s'.trace ≤ n
  reached : n + 1 = pulled ∨ ∃ s', m.Reaches s s' ∧ matchedCount s'.trace = n
  visited : n < capacity → ∀ c ∈ m.agenda s, ∀ c', m.Comes items c c' →
    ∃ s', m.Reaches s s' ∧ s'.config = c'

/-- How the window stands after a step, and which item is named if there is none. -/
theorem standing_of_step (hordered : Ordered items)
    (h : Standing items capacity pulled (matchedCount s.trace) s.window s.furthest) :
    (∀ s', m.step s = .running s' → Standing items capacity (max pulled (matchedCount s'.trace + 1))
        (matchedCount s'.trace) s'.window s'.furthest) ∧
      ∀ t, m.step s = .failed (.unexpected t) → items[pulled - 1]? = some (.ok t) := by
  have hstep := paired_step (m := m) rfl hordered hordered (Nat.le_refl capacity) ⟨rfl, h, h⟩
  refine ⟨fun s' hs' => ?_, fun t ht => ?_⟩
  · rw [hs'] at hstep
    cases hstep with
    | running habreast hmore => exact hmore ▸ habreast.left
  · rw [ht] at hstep
    cases hstep with
    | failed halike =>
      cases halike with
      | same hnameless => cases hnameless
      | unexpected hitem => exact hitem
    | lost hless => exact absurd hless (Nat.lt_irrefl _)

/-- Where a search names a token, it has nowhere to go, and nothing is left for later unless the window
has dropped a token. -/
theorem moves_of_unexpected (hgood : m.Good items capacity s)
    (h : Standing items capacity pulled (matchedCount s.trace) s.window s.furthest)
    (hstep : m.step s = .failed (.unexpected t)) :
    m.moves items s.config = [] ∧ (pulled ≤ capacity → m.alternatives s.trace = []) := by
  cases stepped hgood with
  | done hdone =>
    rw [hstep] at hdone
    cases hdone
  | broken hfailed hnot hnone =>
    rw [hstep] at hfailed
    cases hfailed
    cases hnone
  | forced hrunning =>
    rw [hstep] at hrunning
    cases hrunning
  | decided hrunning =>
    rw [hstep] at hrunning
    cases hrunning
  | @stuck s₁ hback htrace hplaced hmoves hnot hwindow =>
    refine ⟨hmoves, fun hroom => ?_⟩
    rw [hstep] at hback
    unfold backtrack State.retreat at hback
    rw [htrace] at hback
    rcases hretreat : State.retreatThrough m s₁ s.trace with s₂ | s₂
    · rw [hretreat] at hback
      cases hback
    · rw [← hwindow] at h
      exact alternatives_of_exhausted h hroom hretreat

/-- A search that names a token as unexpected names the furthest one. -/
theorem furthest_of_run (hclosed : m.rules.Closed) (hordered : Ordered items)
    (hsteady : m.Steady items capacity s)
    (h : Standing items capacity pulled (matchedCount s.trace) s.window s.furthest)
    (hrun : m.run fuel s = some (.error (.unexpected t))) :
    ∃ n, m.NamesFurthest items capacity pulled s t n := by
  have hlt := h.matched_lt
  induction fuel generalizing s pulled with
  | zero => cases hrun
  | succ fuel ih =>
    rw [run_succ] at hrun
    rcases standing_of_step (m := m) hordered h with ⟨hstanding, hitem⟩
    split at hrun
    · rename_i s₁ hstep
      rcases ih (steady_step hclosed hsteady hstep) (hstanding s₁ hstep) hrun (by omega) with ⟨n, hn⟩
      have hpulled := hn.pulled_le
      refine ⟨n, hn.item, by omega, fun s' hs' => ?_, ?_, fun hroom c hc c' hc' => ?_⟩
      · rcases hs'.cases_head with rfl | ⟨s₂, hstep', hrest⟩
        · omega
        · rw [hstep] at hstep'
          cases hstep'
          exact hn.matched_le s' hrest
      · rcases hn.reached with hsame | ⟨s', hs', hcount⟩
        · by_cases hold : n + 1 = pulled
          · exact .inl hold
          · exact .inr ⟨s₁, .single hstep, by omega⟩
        · exact .inr ⟨s', .head hstep hs', hcount⟩
      -- What comes from here is here, or comes from the moves, which are on the list after the step.
      · have hvisited {c : Config} (hmem : c ∈ m.agenda s₁) (hcomes : m.Comes items c c') :
            ∃ s', m.Reaches s s' ∧ s'.config = c' := by
          rcases hn.visited hroom c hmem c' hcomes with ⟨s', hs', hconfig⟩
          exact ⟨s', .head hstep hs', hconfig⟩
        rw [agenda_of_step hsteady.good hstep] at hvisited
        rcases List.mem_cons.1 hc with rfl | hlater
        · rcases hc'.eq_or_move with rfl | ⟨c₁, hmove, hrest⟩
          · exact ⟨s, .refl, rfl⟩
          · exact hvisited (List.mem_append_left _ hmove) hrest
        · exact hvisited (List.mem_append_right _ hlater) hc'
    · cases hrun
    · rename_i hstep
      cases hrun
      rcases moves_of_unexpected hsteady.good h hstep with ⟨hmoves, hlater⟩
      have hstays {s' : State} (hs' : m.Reaches s s') : s' = s := by
        rcases hs'.cases_head with rfl | ⟨s₂, hstep', -⟩
        · rfl
        · rw [hstep] at hstep'
          cases hstep'
      refine ⟨pulled - 1, hitem t hstep, by omega, fun s' hs' => ?_, .inl (by omega),
        fun hroom c hc c' hc' => ⟨s, .refl, ?_⟩⟩
      · rw [hstays hs']
        omega
      · rw [agenda, hlater (by omega), List.mem_singleton] at hc
        rw [hc] at hc'
        rcases hc'.eq_or_move with rfl | ⟨c₁, hmove, -⟩
        · rfl
        · rw [hmoves] at hmove
          cases hmove

end Machine

end Descent
