import Descent.Proofs.Search.Path
import Descent.Proofs.Search.Steps

/-!
# The first derivation

A search tries the paths from its configuration in the order of what they decide, so the one it
ends with is the first that leads to an end.  As paths from the plan of a rule are derivations, the
search finds the first derivation of its rule.

Main results:

- `Machine.outcome`: a search ends with the first path to an end, or goes back when there is none.
- `Machine.run_ok`: whatever the window, a search that ends well ends with a derivation.
- `Machine.search_first`: with room for the whole text, it is the first derivation, and if a search
  fails there is none.
-/

namespace Descent

namespace Machine

variable {m : Machine} {items : List (Except LexError Token)} {capacity fuel : Nat} {s : State}
  {r : Except Failure State}

/-- Goes on after a step. -/
def proceed (m : Machine) (fuel : Nat) : Progress → Option (Except Failure State)
  | .running s => m.run fuel s
  | .done s => some (.ok s)
  | .failed f => some (.error f)

theorem run_succ_eq_proceed (m : Machine) (fuel : Nat) (s : State) :
    m.run (fuel + 1) s = m.proceed fuel (m.step s) := by
  rw [run_succ]
  cases m.step s <;> rfl

/-! ## Paths to an end -/

/-- No path from a configuration leads to an end. -/
def Barren (m : Machine) (items : List (Except LexError Token)) (c : Config) : Prop :=
  ∀ n ds c', m.Path items n c ds c' → ¬Accepts items c'

/-- A path leads to an end, and every other one that does decides greater. -/
structure First (m : Machine) (items : List (Except LexError Token)) (c : Config)
    (ds : List Bool) (c' : Config) : Prop where
  path : ∃ n, m.Path items n c ds c'
  accepts : Accepts items c'
  least : ∀ k es e, m.Path items k c es e → Accepts items e → es = ds ∧ e = c' ∨ ds < es

/-- A path to an end from elsewhere begins with a move. -/
private theorem exists_move_of_accepts {n : Nat} {c c' : Config} {ds : List Bool}
    (h : m.Path items n c ds c') (hc' : Accepts items c') (hc : ¬Accepts items c) :
    ∃ k d es c₁, (d, c₁) ∈ m.moves items c ∧ ds = d ++ es ∧ m.Path items k c₁ es c' := by
  cases h with
  | refl => exact absurd hc' hc
  | step hmove hrest => exact ⟨_, _, _, _, hmove, rfl, hrest⟩

private theorem not_accepts_of_moves {c : Config} (h : m.moves items c ≠ []) :
    ¬Accepts items c := by
  rintro ⟨htodo, -⟩
  rcases c with ⟨todo, depth, trace⟩
  obtain rfl : todo = .empty := htodo
  exact h rfl

theorem first_of_accepts {c : Config} (h : Accepts items c) : m.First items c [] c := by
  refine ⟨⟨0, .refl c⟩, h, fun k es e hpath he => .inl ?_⟩
  cases hpath with
  | refl => exact ⟨rfl, rfl⟩
  | step hmove => exact absurd h (not_accepts_of_moves (List.ne_nil_of_mem hmove))

theorem barren_of_stuck {c : Config} (hmoves : m.moves items c = []) (h : ¬Accepts items c) :
    m.Barren items c := by
  intro n ds c' hpath hc'
  rcases exists_move_of_accepts hpath hc' h with ⟨k, d, es, c₁, hmove, -⟩
  rw [hmoves] at hmove
  cases hmove

section

variable {c c₁ c₂ : Config}

private theorem path_of_forced {n : Nat} {ds : List Bool} {c' : Config}
    (hmoves : m.moves items c = [([], c₁)]) (h : m.Path items n c ds c') (hc' : Accepts items c') :
    ∃ k, m.Path items k c₁ ds c' := by
  have hnot : ¬Accepts items c := not_accepts_of_moves (by rw [hmoves]; exact List.cons_ne_nil _ _)
  rcases exists_move_of_accepts h hc' hnot with ⟨k, d, es, c₂, hmove, rfl, hrest⟩
  rw [hmoves, List.mem_singleton] at hmove
  cases hmove
  exact ⟨k, hrest⟩

private theorem path_of_decided {n : Nat} {ds : List Bool} {c' : Config}
    (hmoves : m.moves items c = [([false], c₁), ([true], c₂)]) (h : m.Path items n c ds c')
    (hc' : Accepts items c') :
    ∃ k es, ds = false :: es ∧ m.Path items k c₁ es c' ∨ ds = true :: es ∧ m.Path items k c₂ es c' := by
  have hnot : ¬Accepts items c := not_accepts_of_moves (by rw [hmoves]; exact List.cons_ne_nil _ _)
  rcases exists_move_of_accepts h hc' hnot with ⟨k, d, es, c₃, hmove, rfl, hrest⟩
  rw [hmoves, List.mem_cons, List.mem_singleton] at hmove
  rcases hmove with htake | hskip
  · cases htake
    exact ⟨k, es, .inl ⟨rfl, hrest⟩⟩
  · cases hskip
    exact ⟨k, es, .inr ⟨rfl, hrest⟩⟩

theorem First.forced {ds : List Bool} {c' : Config} (h : m.First items c₁ ds c')
    (hmoves : m.moves items c = [([], c₁)]) : m.First items c ds c' := by
  rcases h.path with ⟨n, hpath⟩
  have hmove : ([], c₁) ∈ m.moves items c := by
    rw [hmoves]
    exact List.mem_singleton_self _
  refine ⟨⟨n + 1, (Path.step hmove hpath :)⟩, h.accepts, ?_⟩
  intro k es e hother he
  rcases path_of_forced hmoves hother he with ⟨k', hrest⟩
  exact h.least k' es e hrest he

theorem Barren.forced (h : m.Barren items c₁) (hmoves : m.moves items c = [([], c₁)]) :
    m.Barren items c := by
  intro n ds c' hpath hc'
  rcases path_of_forced hmoves hpath hc' with ⟨k, hrest⟩
  exact h k ds c' hrest hc'

/-- One more decision before them leaves paths in the same order. -/
private theorem First.least_cons {ds es : List Bool} {c' e : Config} {k : Nat}
    (h : m.First items c₁ ds c') (hpath : m.Path items k c₁ es e) (he : Accepts items e)
    (decision : Bool) :
    decision :: es = decision :: ds ∧ e = c' ∨ decision :: ds < decision :: es := by
  rcases h.least k es e hpath he with ⟨rfl, rfl⟩ | hlt
  · exact .inl ⟨rfl, rfl⟩
  · exact .inr (List.Lex.cons hlt)

/-- Where the first possibility leads to an end, it is to be preferred. -/
theorem First.taken {ds : List Bool} {c' : Config} (h : m.First items c₁ ds c')
    (hmoves : m.moves items c = [([false], c₁), ([true], c₂)]) :
    m.First items c (false :: ds) c' := by
  rcases h.path with ⟨n, hpath⟩
  have hmove : ([false], c₁) ∈ m.moves items c := by
    rw [hmoves]
    exact List.mem_cons_self
  refine ⟨⟨n + 1, (Path.step hmove hpath :)⟩, h.accepts, ?_⟩
  intro k es e hother he
  rcases path_of_decided hmoves hother he with ⟨k', fs, ⟨rfl, hrest⟩ | ⟨rfl, -⟩⟩
  · exact h.least_cons hrest he false
  · exact .inr (List.Lex.rel (by decide))

/-- Where the first possibility leads to no end, the second one counts. -/
theorem First.skipped {ds : List Bool} {c' : Config} (hbarren : m.Barren items c₁)
    (h : m.First items c₂ ds c') (hmoves : m.moves items c = [([false], c₁), ([true], c₂)]) :
    m.First items c (true :: ds) c' := by
  rcases h.path with ⟨n, hpath⟩
  have hmove : ([true], c₂) ∈ m.moves items c := by
    rw [hmoves]
    exact List.mem_cons_of_mem _ (List.mem_singleton_self _)
  refine ⟨⟨n + 1, (Path.step hmove hpath :)⟩, h.accepts, ?_⟩
  intro k es e hother he
  rcases path_of_decided hmoves hother he with ⟨k', fs, ⟨rfl, hrest⟩ | ⟨rfl, hrest⟩⟩
  · exact absurd he (hbarren k' fs e hrest)
  · exact h.least_cons hrest he true

theorem Barren.decided (h₁ : m.Barren items c₁) (h₂ : m.Barren items c₂)
    (hmoves : m.moves items c = [([false], c₁), ([true], c₂)]) : m.Barren items c := by
  intro n ds c' hpath hc'
  rcases path_of_decided hmoves hpath hc' with ⟨k, es, ⟨-, hrest⟩ | ⟨-, hrest⟩⟩
  · exact h₁ k es c' hrest hc'
  · exact h₂ k es c' hrest hc'

end

/-! ## What a search comes to -/

/-- What a search from a state comes to: it ends with the first path to an end; or there is no such
path, and it goes back from a state with the same events; or it is stopped by something else. -/
inductive Outcome (m : Machine) (items : List (Except LexError Token)) (capacity fuel : Nat)
    (s : State) (r : Except Failure State) : Prop
  | found {s' : State} {ds : List Bool} (hr : r = .ok s') (hgood : m.Good items capacity s')
      (hfirst : m.First items s.config ds s'.config)
  | vain {s₁ : State} {less : Nat} (hbarren : m.Barren items s.config) (hless : less < fuel)
      (hplaced : Placed items capacity s₁) (htrace : s₁.trace = s.trace)
      (hrest : m.proceed less (m.backtrack s₁) = some r)
  | broken {f : Failure} (hr : r = .error f) (hnot : ¬m.Favourable items capacity)

theorem outcome (hgood : m.Good items capacity s) (hrun : m.run fuel s = some r) :
    m.Outcome items capacity fuel s r := by
  induction fuel using Nat.strongRecOn generalizing s with
  | ind fuel ih =>
    rcases fuel with _ | fuel
    · cases hrun
    · rw [run_succ_eq_proceed] at hrun
      cases stepped hgood with
      | done hstep haccepts =>
        rw [hstep] at hrun
        cases hrun
        exact .found rfl hgood (first_of_accepts haccepts)
      | stuck hstep htrace hplaced hmoves hnot =>
        rw [hstep] at hrun
        exact .vain (barren_of_stuck hmoves hnot) (Nat.lt_succ_self fuel) hplaced htrace hrun
      | broken hstep hnot =>
        rw [hstep] at hrun
        cases hrun
        exact .broken rfl hnot
      | forced hstep hmoves hgood' hundo =>
        rw [hstep] at hrun
        cases ih fuel (Nat.lt_succ_self fuel) hgood' hrun with
        | found hr hgood'' hfirst => exact .found hr hgood'' (hfirst.forced hmoves)
        | broken hr hnot => exact .broken hr hnot
        | vain hbarren hless hplaced htrace hrest =>
          rcases hundo _ hplaced htrace with ⟨s₂, hplaced₂, htrace₂, hback⟩ | ⟨⟨f, hback⟩, hnot⟩
          · rw [hback] at hrest
            exact .vain (hbarren.forced hmoves) (Nat.lt_succ_of_lt hless) hplaced₂ htrace₂ hrest
          · rw [hback] at hrest
            cases hrest
            exact .broken rfl hnot
      | decided hstep hmoves hsame hgood' hresume =>
        rw [hstep] at hrun
        cases ih fuel (Nat.lt_succ_self fuel) hgood' hrun with
        | found hr hgood'' hfirst => exact .found hr hgood'' (hfirst.taken hmoves)
        | broken hr hnot => exact .broken hr hnot
        | vain hbarren hless hplaced htrace hrest =>
          rcases hresume _ hplaced htrace with ⟨s₂, hgood₂, hconfig, hback⟩
          rw [hback] at hrest
          cases ih _ (Nat.lt_succ_of_lt hless) hgood₂ hrest with
          | found hr hgood'' hfirst =>
            rw [hconfig] at hfirst
            exact .found hr hgood'' (hfirst.skipped hbarren hmoves)
          | broken hr hnot => exact .broken hr hnot
          | vain hbarren₂ hless₂ hplaced₂ htrace₂ hrest₂ =>
            rw [hconfig] at hbarren₂
            have htrace₃ := htrace₂.trans (congrArg Config.trace hconfig)
            exact .vain (hbarren.decided hbarren₂ hmoves) (by omega) hplaced₂
              (htrace₃.trans hsame) hrest₂

/-! ## Searches -/

/-- A search for a rule that there is begins well. -/
theorem good_initial {root : RuleKey} (hroot : m.rules.get? root ≠ none) :
    m.Good items (max capacity 1)
      { State.start items capacity with todo := m.planned .empty root } := by
  refine ⟨Orderly.empty.planned hroot, ?_, Window.covers_rewind_fresh items capacity,
    Window.place_rewind_pos _, List.length_pos_iff.2⟩
  show (Window.fresh items capacity).rewind.capacity = max capacity 1
  rw [Window.capacity_rewind, Window.capacity_fresh]

/-- Where there is nothing to go back to, a search fails. -/
theorem backtrack_of_nil (h : s.trace = []) : ∃ f, m.backtrack s = .failed f := by
  unfold backtrack State.retreat
  rw [h]
  exact ⟨_, rfl⟩

/-- A search for a rule ends with the first path to an end, or fails. -/
theorem first_or_fails {root : RuleKey} {s₀ : State}
    (hinitial : m.initial items capacity root = .ok s₀) (hrun : m.run fuel s₀ = some r) :
    (∃ s ds, r = .ok s ∧ m.Good items (max capacity 1) s ∧
        m.First items ⟨m.planned .empty root, -1, []⟩ ds s.config) ∨
      (∃ f, r = .error f) ∧ (m.Favourable items (max capacity 1) →
        m.Barren items ⟨m.planned .empty root, -1, []⟩) := by
  have hroot : m.rules.get? root ≠ none := by
    intro hunknown
    rcases plan_of_unknown hunknown .empty with ⟨f, hf⟩
    rw [initial, hf] at hinitial
    cases hinitial
  rw [initial, plan_of_get? hroot] at hinitial
  cases hinitial
  cases outcome (good_initial hroot) hrun with
  | found hr hgood hfirst => exact .inl ⟨_, _, hr, hgood, hfirst⟩
  | broken hr hnot => exact .inr ⟨⟨_, hr⟩, fun hfav => absurd hfav hnot⟩
  | vain hbarren hless hplaced htrace hrest =>
    rcases backtrack_of_nil (m := m) htrace with ⟨f, hf⟩
    rw [hf] at hrest
    cases hrest
    exact .inr ⟨⟨f, rfl⟩, fun _ => hbarren⟩

/-- A derivation of a rule, and the items that it leaves: an ending comes first. -/
structure Ends (m : Machine) (items : List (Except LexError Token)) (root : RuleKey)
    (d : Derivation) (last : Token) (rest : List (Except LexError Token)) : Prop where
  derives : m.Derives root d.yield d
  items_eq : items = d.yield.map Except.ok ++ .ok last :: rest
  ending : last.isEnding = true

/-- A path from the plan of a rule to an end is a derivation of the rule. -/
theorem Path.exists_ends {n : Nat} {root : RuleKey} {ds : List Bool} {c : Config}
    (hpath : m.Path items n ⟨m.planned .empty root, -1, []⟩ ds c) (hc : Accepts items c) :
    ∃ d last rest, m.Ends items root d last rest ∧ ds = d.decisions m ∧
      c = ⟨.empty, -1, (d.linearize m (-1) .empty).reverse⟩ := by
  rcases hpath.exists_derivation hc.1 (sees_nil (-1)) with ⟨d, k, es, hrule, hfollows, rfl, hrest⟩
  rw [List.append_nil] at hrest
  obtain ⟨rfl, rfl⟩ : es = [] ∧ c = ⟨.empty, -1, (d.linearize m (-1) .empty).reverse⟩ := by
    cases hrest with
    | refl => exact ⟨rfl, rfl⟩
    | step hmove => cases hmove
  rcases hc with ⟨-, last, hlast, hending⟩
  rw [matchedCount_reverse, Derivation.matchedCount_linearize] at hlast
  rcases hfollows.tokens with ⟨rest, hitems⟩
  rw [matchedCount_nil, List.drop_zero] at hitems
  rw [← hitems, List.getElem?_append_right (by simp), List.length_map, Nat.sub_self] at hlast
  rcases rest with _ | ⟨x, rest⟩
  · cases hlast
  · cases hlast
    exact ⟨d, last, rest, ⟨⟨hrule, hfollows.fits, rfl, admits_nil_iff.1 hfollows.admits⟩,
      hitems.symm, hending⟩, List.append_nil _, rfl⟩

/-- A derivation of a rule up to an ending is a path from the plan of the rule to an end. -/
theorem Ends.exists_path {root : RuleKey} {d : Derivation} {last : Token}
    {rest : List (Except LexError Token)} (h : m.Ends items root d last rest) :
    ∃ n, m.Path items n ⟨m.planned .empty root, -1, []⟩ (d.decisions m)
        ⟨.empty, -1, (d.linearize m (-1) .empty).reverse⟩ ∧
      Accepts items ⟨.empty, -1, (d.linearize m (-1) .empty).reverse⟩ := by
  rcases h with ⟨hderives, hitems, hending⟩
  have hfollows : m.Follows items [] [] d := by
    refine ⟨hderives.fits, admits_nil_iff.2 hderives.unified, ?_⟩
    rw [matchedCount_nil, List.drop_zero, hitems]
    exact List.prefix_append _ _
  rcases path_of_follows .empty (sees_nil (-1)) hfollows with ⟨n, hpath⟩
  rw [hderives.rule_eq, List.append_nil] at hpath
  refine ⟨n, hpath, rfl, last, ?_, hending⟩
  rw [matchedCount_reverse, Derivation.matchedCount_linearize, hitems,
    List.getElem?_append_right (by simp), List.length_map, Nat.sub_self]
  rfl

private theorem eq_of_append_ending {us ts : List Token} {u last : Token}
    {rest : List (Except LexError Token)} (hu : u.isEnding = true)
    (hts : ∀ t ∈ ts, t.isEnding = false)
    (h : ts.map Except.ok ++ [.ok last] = us.map Except.ok ++ .ok u :: rest) : us = ts := by
  induction us generalizing ts with
  | nil =>
    rcases ts with _ | ⟨t, ts⟩
    · rfl
    · have hsame : t = u := by simpa using congrArg List.head? h
      rw [← hsame, hts t List.mem_cons_self] at hu
      cases hu
  | cons v us ih =>
    rcases ts with _ | ⟨t, ts⟩
    · simp at h
    · simp only [List.map_cons, List.cons_append, List.cons.injEq, Except.ok.injEq] at h
      rw [h.1, ih (fun t ht => hts t (List.mem_cons_of_mem _ ht)) h.2]

/-- A search fails at once, or it is the run from its initial state. -/
theorem search_cases {root : RuleKey} {r : Except Failure (List Event)}
    (h : m.search items capacity root fuel = some r) :
    (m.rules.get? root = none ∧ ∃ f, r = .error f) ∨
      ∃ s₀ r', m.initial items capacity root = .ok s₀ ∧ m.run fuel s₀ = some r' ∧
        r = r'.map fun s => s.trace.reverse := by
  unfold search at h
  rcases hinitial : m.initial items capacity root with f | s₀
  · rw [hinitial] at h
    cases h
    refine .inl ⟨?_, f, rfl⟩
    apply Classical.byContradiction
    intro hroot
    rw [initial, plan_of_get? hroot] at hinitial
    cases hinitial
  · rw [hinitial] at h
    rcases Option.map_eq_some_iff.1 h with ⟨r', hrun, hr⟩
    exact .inr ⟨s₀, r', rfl, hrun, hr.symm⟩

/-- The first derivation of a rule that matches some tokens. -/
structure FirstDerives (m : Machine) (root : RuleKey) (ts : List Token) (d : Derivation) :
    Prop where
  derives : m.Derives root ts d
  least : ∀ e, m.Derives root ts e → e = d ∨ d.decisions m < e.decisions m

private theorem Derives.ends {root : RuleKey} {ts : List Token} {d : Derivation} {last : Token}
    (h : m.Derives root ts d) (hlast : last.isEnding = true) :
    m.Ends (ts.map Except.ok ++ [.ok last]) root d last [] := by
  refine ⟨?_, ?_, hlast⟩
  · rw [h.yield_eq]
    exact h
  · rw [h.yield_eq]

/-- The first path to an end is the first derivation of the whole text. -/
private theorem First.exists_firstDerives {root : RuleKey} {ts : List Token} {last : Token}
    {ds : List Bool} {c : Config} (hts : ∀ t ∈ ts, t.isEnding = false) (hlast : last.isEnding = true)
    (h : m.First (ts.map Except.ok ++ [.ok last]) ⟨m.planned .empty root, -1, []⟩ ds c) :
    ∃ d, m.FirstDerives root ts d ∧ c.trace.reverse = d.linearize m (-1) .empty := by
  rcases h.path with ⟨n, hpath⟩
  rcases hpath.exists_ends h.accepts with ⟨d, last', rest, hd, rfl, rfl⟩
  have hyield := eq_of_append_ending hd.ending hts hd.items_eq
  refine ⟨d, ⟨hyield ▸ hd.derives, fun e he => ?_⟩, List.reverse_reverse _⟩
  rcases (he.ends hlast).exists_path with ⟨k, hother, haccepts⟩
  rcases h.least k _ _ hother haccepts with ⟨hsame, -⟩ | hlt
  · have hrule := he.rule_eq.trans hd.derives.rule_eq.symm
    have hyield' := he.yield_eq.trans hyield.symm
    exact .inl (he.fits.unique hd.derives.fits hrule hsame hyield')
  · exact .inr hlt

/-- With all references resolved, and room in the window for the whole text, a search ends well if
and only if some derivation matches the text, and it comes back with the first one. -/
theorem search_first {ts : List Token} {last : Token} {root : RuleKey} {capacity fuel : Nat}
    {r : Except Failure (List Event)}
    (hclosed : ∀ key r child, m.rules.get? key = some r → child ∈ r.children →
      m.rules.get? child ≠ none)
    (hunasked : ∀ key r kind unification kept, m.rules.get? key = some r →
      r.body = .token kind unification kept → kind ≠ endingKind)
    (hts : ∀ t ∈ ts, t.isEnding = false) (hlast : last.isEnding = true)
    (hroom : ts.length + 1 ≤ capacity)
    (hsearch : m.search (ts.map Except.ok ++ [.ok last]) capacity root fuel = some r) :
    ((∃ events, r = .ok events) ↔ ∃ d, m.Derives root ts d) ∧
      (∀ events, r = .ok events →
        ∃ d, m.FirstDerives root ts d ∧ events = d.linearize m (-1) .empty) ∧
      ∀ f, r = .error f → ¬∃ d, m.Derives root ts d := by
  have hfav : m.Favourable (ts.map Except.ok ++ [.ok last]) (max capacity 1) := by
    refine ⟨fun hr hchild => hclosed _ _ _ hr hchild, ⟨ts, last, rfl, hts, hlast⟩,
      fun hr hbody => hunasked _ _ _ _ _ hr hbody, ?_⟩
    rw [List.length_append, List.length_map, List.length_singleton]
    omega
  have hok {events : List Event} (hr : r = .ok events) :
      ∃ d, m.FirstDerives root ts d ∧ events = d.linearize m (-1) .empty := by
    rcases search_cases hsearch with ⟨-, f, hf⟩ | ⟨s₀, r', hinitial, hrun, hr'⟩
    · rw [hf] at hr
      cases hr
    · rw [hr] at hr'
      rcases first_or_fails hinitial hrun with ⟨s, ds, rfl, -, hfirst⟩ | ⟨⟨f, rfl⟩, -⟩
      · rw [Except.ok.inj hr']
        exact hfirst.exists_firstDerives hts hlast
      · cases hr'
  have herror {f : Failure} (hr : r = .error f) : ¬∃ d, m.Derives root ts d := by
    rintro ⟨d, hd⟩
    rcases search_cases hsearch with ⟨hroot, -⟩ | ⟨s₀, r', hinitial, hrun, hr'⟩
    · exact hd.fits.get?_ne_none (hd.rule_eq ▸ hroot)
    · rcases first_or_fails hinitial hrun with ⟨s, ds, rfl, -, -⟩ | ⟨-, hbarren⟩
      · rw [hr] at hr'
        cases hr'
      · rcases (hd.ends hlast).exists_path with ⟨n, hpath, haccepts⟩
        exact hbarren hfav n _ _ hpath haccepts
  refine ⟨⟨?_, ?_⟩, fun events => hok, fun f => herror⟩
  · rintro ⟨events, hr⟩
    rcases hok hr with ⟨d, hd, -⟩
    exact ⟨d, hd.derives⟩
  · intro hd
    rcases r with f | events
    · exact absurd hd (herror rfl)
    · exact ⟨events, rfl⟩

/-- The rules of a word: two letters, or else any number of them. -/
def word : Machine :=
  ⟨⟨[(.named "word", ⟨.named "word", .choice [.part 0, .part 1], none, none, some "::letter::"⟩),
    (.part 0, .ofBody (.part 0) (.concatenation [.part 2, .part 2])),
    (.part 1, .ofBody (.part 1) (.repetition ⟨0, none, by simp⟩ (.part 2))),
    (.part 2, .ofBody (.part 2) (.token "letter" none true))]⟩, ⟨.empty, false, true⟩⟩

/-- A letter of a word. -/
def letter (offset : Nat) : Token :=
  ⟨"letter", "x", 1, defaultSpace, true, offset⟩

/-- One letter is no two letters, so the search goes back and finds a word of any number. -/
theorem search_first_word :
    ∃ events d, word.search ([letter 0].map Except.ok ++ [.ok (.ending 1)]) 2 (.named "word") 20 =
        some (.ok events) ∧
      word.FirstDerives (.named "word") [letter 0] d ∧ events = d.linearize word (-1) .empty := by
  have hchildren : ∀ e ∈ word.rules.entries, ∀ child ∈ e.2.children,
      word.rules.get? child ≠ none := by decide
  have hunasked : ∀ key r kind unification kept, word.rules.get? key = some r →
      r.body = .token kind unification kept → kind ≠ endingKind := by
    intro key r kind unification kept hr hbody
    have hmem := OrderedMap.mem_entries_of_get? hr
    simp only [word, List.mem_cons, Prod.mk.injEq, List.not_mem_nil, or_false] at hmem
    rcases hmem with ⟨-, rfl⟩ | ⟨-, rfl⟩ | ⟨-, rfl⟩ | ⟨-, rfl⟩
    · cases hbody
    · cases hbody
    · cases hbody
    · cases hbody
      decide
  obtain ⟨events, hsearch⟩ : ∃ events, word.search ([letter 0].map Except.ok ++
      [.ok (.ending 1)]) 2 (.named "word") 20 = some (.ok events) := ⟨_, rfl⟩
  have hfirst := search_first
    (fun key r child hr hchild => hchildren _ (OrderedMap.mem_entries_of_get? hr) child hchild)
    hunasked (by decide) (by decide) (by decide) hsearch
  rcases hfirst.2.1 events rfl with ⟨d, hd, hevents⟩
  exact ⟨events, d, hsearch, hd, hevents⟩

end Machine

end Descent
