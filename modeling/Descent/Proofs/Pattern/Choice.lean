import Descent.Proofs.Pattern.Runs

/-!
# Matches of alternatives

The ends of two alternatives are told apart, so that no way of one is ever taken for a way of the other.  The
matcher follows the ways of both as if each were alone, those of the first one before those of the second one, and it
gives up the second one where the first one matches.

Main results:

- `Front.lift` is a front inside another one, and `Opens.lift` that opening ways comes to the same there.
- `Node.matchLength?_alt`: alternatives match as the first of them that matches does.
-/

namespace Descent.Pattern

variable {before after : List UInt8} {k w : Way} {f f' f'' : Front} {kept : List Thread} {others ws : List Way}
  {threads : List Thread}

/-! ## Going on -/

/-- A thread that goes on behind its way. -/
def Thread.followed (k : Way) (t : Thread) : Thread :=
  ⟨t.owed, t.way ++ k⟩

/-- An opening of a way that goes on. -/
def Opening.followed (k : Way) : Opening → Opening
  | .matched => .matched
  | .ways next => .ways (next.map (· ++ k))
  | .taken t => .taken (t.followed k)

/-- What a way opens does not depend on where it goes on, unless nothing is left of it. -/
theorem Opening.ofWay_append (hw : w ≠ []) (k : Way) :
    ofWay before after (w ++ k) = (ofWay before after w).followed k := by
  have hprefer (greedy : Bool) (stay leave : Way) :
      prefer greedy (stay ++ k) (leave ++ k) = (prefer greedy stay leave).map (· ++ k) := by
    cases greedy <;> rfl
  rcases w with _ | ⟨a | ⟨a, greedy⟩ | second, rest⟩
  · exact absurd rfl hw
  · cases a with
    | empty | seq | alt | group => rfl
    | char s =>
      simp only [List.cons_append, ofWay]
      rcases Text.charAfter? after with _ | ⟨c, width⟩
      · rfl
      · dsimp only
        split <;> rfl
    | octet s =>
      rcases after with _ | ⟨b, rest⟩ <;> simp only [List.cons_append, ofWay]
      · rfl
      · split <;> rfl
    | look l =>
      simp only [List.cons_append, ofWay]
      split <;> rfl
    | repeated a min max greedy =>
      simp only [List.cons_append, ofWay, followed]
      congr 1
      rcases min with _ | _ | n <;> rcases max with _ | _ | m
      case zero.some.succ =>
        exact hprefer greedy (.node a :: .node (.repeated a 0 (some m) greedy) :: rest) rest
      all_goals rfl
  · exact congrArg Opening.ways (hprefer greedy (.node a :: .again a greedy :: rest) rest)
  · rfl

/-- Only where nothing is left of a way it has matched. -/
theorem eq_nil_of_ofWay (h : Opening.ofWay before after w = .matched) : w = [] := by
  rcases w with _ | ⟨a | ⟨a, greedy⟩ | second, rest⟩
  · rfl
  · cases a with
    | char s =>
      simp only [Opening.ofWay] at h
      split at h
      · split at h <;> cases h
      · cases h
    | octet s =>
      rcases after with _ | ⟨b, rest⟩ <;> simp only [Opening.ofWay] at h
      · cases h
      · split at h <;> cases h
    | empty | seq | alt | group | look | repeated => cases h
  · cases h
  · cases h

theorem ne_nil_of_ofWay {o : Opening} (h : Opening.ofWay before after w = o) (ho : o ≠ .matched) : w ≠ [] := by
  rintro rfl
  exact ho h.symm

theorem ofWay_append_of_ways {next : List Way} (hw : Opening.ofWay before after w = .ways next) (k : Way) :
    Opening.ofWay before after (w ++ k) = .ways (next.map (· ++ k)) := by
  rw [Opening.ofWay_append (ne_nil_of_ofWay hw (by simp)), hw]
  rfl

theorem ofWay_append_of_taken {t : Thread} (hw : Opening.ofWay before after w = .taken t) (k : Way) :
    Opening.ofWay before after (w ++ k) = .taken (t.followed k) := by
  rw [Opening.ofWay_append (ne_nil_of_ofWay hw (by simp)), hw]
  rfl

/-- A front with its ways going on, behind threads that are kept, and with other ways opened before. -/
def Front.lift (f : Front) (kept : List Thread) (k : Way) (others : List Way) : Front :=
  ⟨kept ++ f.threads.map (Thread.followed k), f.opened.map (· ++ k) ++ others, f.matched⟩

theorem Front.lift_taken (f : Front) (w : Way) (t : Thread) :
    ({ f.opening w with threads := f.threads ++ [t] } : Front).lift kept k others =
      { (f.lift kept k others).opening (w ++ k) with
        threads := (f.lift kept k others).threads ++ [t.followed k] } := by
  simp [lift, opening]

/-- What is left of a way that has come to its end: nothing, or the end of one of two alternatives. -/
def Way.Ending (k : Way) : Prop :=
  k = [] ∨ ∃ second, k = [.join second]

/-- No way that was opened is one of others once it goes on. -/
def Front.Distinct (f : Front) (k : Way) (others : List Way) : Prop :=
  ([] : Way) ∉ others ∧ ∀ w ∈ f.opened, w ++ k ∉ others

theorem Front.Distinct.mono (h : f'.Distinct k others) (hsub : f.opened ⊆ f'.opened) : f.Distinct k others :=
  ⟨h.1, fun w hw => h.2 w (hsub hw)⟩

/-- A way is new in a front inside another one if it was new there. -/
theorem Front.not_mem_lift (hnew : w ∉ f.opened) (hother : w ++ k ∉ others) :
    w ++ k ∉ (f.lift kept k others).opened := by
  intro hmem
  rcases List.mem_append.1 hmem with hmem | hmem
  · rcases List.mem_map.1 hmem with ⟨u, hu, heq⟩
    rw [List.append_cancel_right heq] at hu
    exact hnew hu
  · exact hother hmem

/-- An end that is reached matches. -/
theorem opens_ending (hk : k.Ending) (hf : f.Distinct k others) (hnil : ([] : Way) ∉ f.opened)
    (hkothers : k ∉ others) (pending : List Way) :
    ∃ f', Opens before after (k :: pending) (f.lift kept k others) f' ∧ f'.matched = true ∧
      f'.threads = (f.lift kept k others).threads := by
  have hnew : k ∉ (f.lift kept k others).opened := Front.not_mem_lift (w := []) hnil hkothers
  rcases hk with rfl | ⟨second, rfl⟩
  · exact ⟨_, .matched hnew rfl, rfl, rfl⟩
  · refine ⟨_, .ways hnew rfl (.matched ?_ rfl), rfl, rfl⟩
    intro hmem
    rcases List.mem_cons.1 hmem with hmem | hmem
    · cases hmem
    · rcases List.mem_append.1 hmem with hmem | hmem
      · rcases List.mem_map.1 hmem with ⟨u, -, heq⟩
        exact absurd heq (by simp)
      · exact hf.1 hmem

/-- Opening ways comes to the same inside another front, and goes on with what waits there unless it matches. -/
theorem Opens.lift (hk : k.Ending) (h : Opens before after ws f f') (hf' : f'.Distinct k others)
    (hunmatched : f.matched = false) (hnil : ([] : Way) ∉ f.opened) (kept : List Thread) (pending : List Way) :
    (f'.matched = false → ∀ f'', Opens before after pending (f'.lift kept k others) f'' →
      Opens before after (ws.map (· ++ k) ++ pending) (f.lift kept k others) f'') ∧
    (f'.matched = true → ∃ f'', Opens before after (ws.map (· ++ k) ++ pending) (f.lift kept k others) f'' ∧
      f''.matched = true ∧ f''.threads = (f'.lift kept k others).threads) := by
  induction h with
  | nil f =>
    refine ⟨fun _ f'' h => h, fun hmatched => ?_⟩
    rw [hunmatched] at hmatched
    cases hmatched
  | @seen w ws f f' hseen hrest ih =>
    have hmem : w ++ k ∈ (f.lift kept k others).opened :=
      List.mem_append_left _ (List.mem_map_of_mem hseen)
    rcases ih hf' hunmatched hnil with ⟨hpassed, hmatched⟩
    refine ⟨fun h f'' hf'' => .seen hmem (hpassed h f'' hf''), fun h => ?_⟩
    rcases hmatched h with ⟨f'', hopens, hrest⟩
    exact ⟨f'', .seen hmem hopens, hrest⟩
  | @matched w ws f hnew hw =>
    obtain rfl := eq_nil_of_ofWay hw
    refine ⟨fun h => absurd h (by simp), fun _ => ?_⟩
    have hdistinct : f.Distinct k others := hf'.mono (List.subset_cons_self _ _)
    exact opens_ending hk hdistinct hnil (hf'.2 [] List.mem_cons_self) _
  | @ways w ws next f f' hnew hw hrest ih =>
    have hne := ne_nil_of_ofWay hw (by simp)
    have hother := hf'.2 w (hrest.opened_subset List.mem_cons_self)
    have hnew' : w ++ k ∉ (f.lift kept k others).opened := Front.not_mem_lift hnew hother
    have hopening := ofWay_append_of_ways hw k
    have hnil' : ([] : Way) ∉ (f.opening w).opened := by
      intro hmem
      exact (List.mem_cons.1 hmem).elim (fun h => hne h.symm) hnil
    have hih := ih hf' hunmatched hnil'
    rw [List.map_append, List.append_assoc] at hih
    refine ⟨fun h f'' hf'' => .ways hnew' hopening (hih.1 h f'' hf''), fun h => ?_⟩
    rcases hih.2 h with ⟨f'', hopens, hrest⟩
    exact ⟨f'', .ways hnew' hopening hopens, hrest⟩
  | @taken w ws t f f' hnew hw hrest ih =>
    have hne := ne_nil_of_ofWay hw (by simp)
    have hother := hf'.2 w (hrest.opened_subset List.mem_cons_self)
    have hnew' : w ++ k ∉ (f.lift kept k others).opened := Front.not_mem_lift hnew hother
    have hopening := ofWay_append_of_taken hw k
    have hnil' : ([] : Way) ∉ (f.opening w).opened := by
      intro hmem
      exact (List.mem_cons.1 hmem).elim (fun h => hne h.symm) hnil
    have hih := ih hf' hunmatched hnil'
    rw [Front.lift_taken] at hih
    refine ⟨fun h f'' hf'' => .taken hnew' hopening (hih.1 h f'' hf''), fun h => ?_⟩
    rcases hih.2 h with ⟨f'', hopens, hrest⟩
    exact ⟨f'', .taken hnew' hopening hopens, hrest⟩

/-- Where nothing has matched no way has come to its end. -/
theorem Opens.nil_not_mem (h : Opens before after ws f f') (hmatched : f'.matched = false)
    (hnil : ([] : Way) ∉ f.opened) : ([] : Way) ∉ f'.opened := by
  induction h with
  | nil => exact hnil
  | seen _ _ ih => exact ih hmatched hnil
  | matched => cases hmatched
  | ways _ hw _ ih | taken _ hw _ ih =>
    apply ih hmatched
    intro hmem
    exact (List.mem_cons.1 hmem).elim (fun h => ne_nil_of_ofWay hw (by simp) h.symm) hnil

theorem Settles.opened_subset (h : Settles before after threads f f') : f.opened ⊆ f'.opened := by
  induction h with
  | nil => exact List.Subset.refl _
  | waits _ ih => exact ih
  | matched hopens => exact hopens.opened_subset
  | passed hopens _ _ ih => exact List.Subset.trans hopens.opened_subset ih

/-- Settling threads comes to the same inside another front, and goes on with the threads behind unless one
matches. -/
theorem Settles.lift (hk : k.Ending) (h : Settles before after threads f f') (hf' : f'.Distinct k others)
    (hunmatched : f.matched = false) (hnil : ([] : Way) ∉ f.opened) (kept more : List Thread) :
    (f'.matched = false → ∀ f'', Settles before after more (f'.lift kept k others) f'' →
      Settles before after (threads.map (Thread.followed k) ++ more) (f.lift kept k others) f'') ∧
    (f'.matched = true → ∃ f'',
      Settles before after (threads.map (Thread.followed k) ++ more) (f.lift kept k others) f'' ∧
        f''.matched = true ∧ f''.threads = (f'.lift kept k others).threads) := by
  induction h with
  | nil f =>
    refine ⟨fun _ f'' h => h, fun hmatched => ?_⟩
    rw [hunmatched] at hmatched
    cases hmatched
  | @waits owed w threads f f' hrest ih =>
    have hih := ih hf' hunmatched hnil
    have hadd : ({ f with threads := f.threads ++ [⟨owed, w⟩] } : Front).lift kept k others =
        { f.lift kept k others with threads := (f.lift kept k others).threads ++ [⟨owed, w ++ k⟩] } := by
      simp [Front.lift, Thread.followed]
    rw [hadd] at hih
    refine ⟨fun h f'' hf'' => .waits (hih.1 h f'' hf''), fun h => ?_⟩
    rcases hih.2 h with ⟨f'', hsettles, hrest⟩
    exact ⟨f'', .waits hsettles, hrest⟩
  | @matched w threads f f' hopens hmatched =>
    refine ⟨fun h => ?_, fun _ => ?_⟩
    · rw [hmatched] at h
      cases h
    · rcases (hopens.lift hk hf' hunmatched hnil kept []).2 hmatched with ⟨f'', hopens', hmatched', hthreads⟩
      exact ⟨f'', .matched hopens' hmatched', hmatched', hthreads⟩
  | @passed w threads f f₁ f' hopens hmatched hrest ih =>
    have hfirst : f₁.Distinct k others := hf'.mono hrest.opened_subset
    have hopens' := (hopens.lift hk hfirst hunmatched hnil kept []).1 hmatched _ (.nil _)
    have hih := ih hf' hmatched (hopens.nil_not_mem hmatched hnil)
    refine ⟨fun h f'' hf'' => .passed hopens' hmatched (hih.1 h f'' hf''), fun h => ?_⟩
    rcases hih.2 h with ⟨f'', hsettles, hrest⟩
    exact ⟨f'', .passed hopens' hmatched hsettles, hrest⟩

/-! ## Side by side -/

/-- Threads that end as the first and as the second of two alternatives. -/
def besides (ta tb : List Thread) : List Thread :=
  ta.map (Thread.followed [.join false]) ++ tb.map (Thread.followed [.join true])

/-- The threads of two alternatives are settled as if each were alone; where the first one matches the second one
is given up. -/
theorem Settles.beside {ta tb : List Thread} {fa fb : Front} (ha : Settles before after ta .start fa)
    (hb : Settles before after tb .start fb) {others : List Way} (hnil : ([] : Way) ∉ others)
    (hothers : ∀ (w : Way) (second : Bool), w ++ [.join second] ∉ others) :
    ∃ f, Settles before after (besides ta tb) ⟨[], others, false⟩ f ∧
      (fa.matched = true → f.matched = true ∧ f.threads = besides fa.threads []) ∧
      (fa.matched = false → f.matched = fb.matched ∧ f.threads = besides fa.threads fb.threads) := by
  have hending (second : Bool) : Way.Ending [.join second] := .inr ⟨second, rfl⟩
  have hfirst := ha.lift (hending false) ⟨hnil, fun w _ => hothers w false⟩ rfl (by simp [Front.start]) []
    (tb.map (Thread.followed [.join true]))
  by_cases hmatched : fa.matched = true
  · rcases hfirst.2 hmatched with ⟨f, hsettles, hf, hthreads⟩
    refine ⟨f, hsettles, fun _ => ⟨hf, ?_⟩, fun h => ?_⟩
    · rw [hthreads]
      simp [Front.lift, besides]
    · rw [hmatched] at h
      cases h
  · rw [Bool.not_eq_true] at hmatched
    -- The ways that the first alternative opened end in another way.
    have hdistinct : fb.Distinct [.join true] (fa.opened.map (· ++ [.join false]) ++ others) := by
      constructor
      · simp [hnil]
      · intro w _ hmem
        rcases List.mem_append.1 hmem with hmem | hmem
        · rcases List.mem_map.1 hmem with ⟨u, -, heq⟩
          have hlast := (List.append_inj' heq rfl).2
          cases hlast
        · exact hothers w true hmem
    have hsecond := hb.lift (hending true) hdistinct rfl (by simp [Front.start])
      (fa.threads.map (Thread.followed [.join false])) []
    have hstart : Front.start.lift (fa.threads.map (Thread.followed [.join false])) [.join true]
        (fa.opened.map (· ++ [.join false]) ++ others) = fa.lift [] [.join false] others := by
      simp [Front.start, Front.lift, hmatched]
    rw [hstart, List.append_nil] at hsecond
    have hexists : ∃ f, Settles before after (tb.map (Thread.followed [.join true]))
        (fa.lift [] [.join false] others) f ∧ f.matched = fb.matched ∧
          f.threads = besides fa.threads fb.threads := by
      by_cases hmatched' : fb.matched = true
      · rcases hsecond.2 hmatched' with ⟨f, hsettles, hf, hthreads⟩
        exact ⟨f, hsettles, hf.trans hmatched'.symm, hthreads⟩
      · rw [Bool.not_eq_true] at hmatched'
        exact ⟨_, hsecond.1 hmatched' _ (.nil _), rfl, rfl⟩
    rcases hexists with ⟨f, hsettles, hf, hthreads⟩
    refine ⟨f, hfirst.1 hmatched f hsettles, fun h => ?_, fun _ => ⟨hf, hthreads⟩⟩
    rw [hmatched] at h
    cases h

theorem ending?_or (f : Front) (r : Option Nat) :
    f.ending?.or r = if f.matched then some 0 else r := by
  unfold Front.ending?
  split <;> rfl

/-- The threads of two alternatives match as those of the first one do, or else as those of the second one. -/
theorem Runs.beside {ta tb : List Thread} {ra rb : Option Nat} (ha : Runs before after ta ra)
    (hb : Runs before after tb rb) : Runs before after (besides ta tb) (ra.or rb) := by
  induction ha generalizing tb rb with
  | @stop before ta fa hsettles =>
    cases hb with
    | @stop _ _ fb hsettles' =>
      rcases hsettles.beside hsettles' List.not_mem_nil (fun _ _ => List.not_mem_nil) with
        ⟨f, hboth, hmatched, hpassed⟩
      have hending : f.ending? = fa.ending?.or fb.ending? := by
        rw [ending?_or]
        by_cases h : fa.matched = true
        · rw [if_pos h, Front.ending?, if_pos (hmatched h).1]
        · rw [if_neg h, Front.ending?, Front.ending?, (hpassed (Bool.not_eq_true _ ▸ h)).1]
      rw [← hending]
      exact .stop hboth
  | @step before rest b ta fa ra hsettles hrest ih =>
    cases hb with
    | @step _ _ _ _ fb rb hsettles' hrest' =>
      rcases hsettles.beside hsettles' List.not_mem_nil (fun _ _ => List.not_mem_nil) with
        ⟨f, hboth, hmatched, hpassed⟩
      by_cases h : fa.matched = true
      · have hlater := ih (runs_nil _ _)
        rw [← (hmatched h).2, Option.or_none] at hlater
        have hresult : ((ra.map (· + 1)).or fa.ending?).or ((rb.map (· + 1)).or fb.ending?) =
            (ra.map (· + 1)).or f.ending? := by
          rw [Option.or_assoc, ending?_or, if_pos h, Front.ending?, if_pos (hmatched h).1]
        rw [hresult]
        exact .step hboth hlater
      · rw [Bool.not_eq_true] at h
        have hlater := ih hrest'
        rw [← (hpassed h).2] at hlater
        have hresult : ((ra.map (· + 1)).or fa.ending?).or ((rb.map (· + 1)).or fb.ending?) =
            ((ra.or rb).map (· + 1)).or f.ending? := by
          have hending : f.ending? = fb.ending? := by rw [Front.ending?, Front.ending?, (hpassed h).1]
          rw [Option.or_assoc, ending?_or, h, hending]
          cases ra <;> rfl
        rw [hresult]
        exact .step hboth hlater

/-! ## Beginnings -/

theorem Opens.append_of_matched (h : Opens before after ws f f') (hf : f.matched = false)
    (hf' : f'.matched = true) (pending : List Way) : Opens before after (ws ++ pending) f f' := by
  induction h with
  | nil =>
    rw [hf] at hf'
    cases hf'
  | seen hseen _ ih => exact .seen hseen (ih hf hf')
  | matched hnew hw => exact .matched hnew hw
  | ways hnew hw _ ih =>
    have hrest := ih hf hf'
    rw [List.append_assoc] at hrest
    exact .ways hnew hw hrest
  | taken hnew hw _ ih => exact .taken hnew hw (ih hf hf')

theorem Opens.append (h : Opens before after ws f f') (hf' : f'.matched = false) {pending : List Way}
    (hrest : Opens before after pending f' f'') : Opens before after (ws ++ pending) f f'' := by
  induction h with
  | nil => exact hrest
  | seen hseen _ ih => exact .seen hseen (ih hf' hrest)
  | matched => cases hf'
  | ways hnew hw _ ih =>
    have hmore := ih hf' hrest
    rw [List.append_assoc] at hmore
    exact .ways hnew hw hmore
  | taken hnew hw _ ih => exact .taken hnew hw (ih hf' hrest)

/-- Settling threads that owe nothing is opening their ways. -/
theorem Settles.opens (h : Settles before after (ws.map fun w => ⟨0, w⟩) f f') (hf : f.matched = false) :
    Opens before after ws f f' := by
  induction ws generalizing f with
  | nil =>
    cases h
    exact .nil _
  | cons w ws ih =>
    cases h with
    | matched hopens hmatched => exact hopens.append_of_matched hf hmatched ws
    | passed hopens hmatched hrest => exact hopens.append hmatched (ih hrest hmatched)

theorem Opens.settles (h : Opens before after [w] f f') : Settles before after [⟨0, w⟩] f f' := by
  by_cases hmatched : f'.matched = true
  · exact .matched h hmatched
  · exact .passed h (Bool.not_eq_true _ ▸ hmatched) (.nil _)

/-- Threads that are settled alike match alike. -/
theorem Runs.congr {threads' : List Thread} {r : Option Nat} (h : Runs before after threads r)
    (hsettles : ∀ f, Settles before after threads .start f →
      ∃ f', Settles before after threads' .start f' ∧ f'.matched = f.matched ∧ f'.threads = f.threads) :
    Runs before after threads' r := by
  cases h with
  | stop hs =>
    rcases hsettles _ hs with ⟨f', hs', hmatched, -⟩
    rw [Front.ending?, ← hmatched]
    exact .stop hs'
  | step hs hrest =>
    rcases hsettles _ hs with ⟨f', hs', hmatched, hthreads⟩
    rw [Front.ending?, ← hmatched]
    rw [← hthreads] at hrest
    exact .step hs' hrest

theorem Runs.exists_settles {r : Option Nat} (h : Runs before after threads r) :
    ∃ f, Settles before after threads .start f := by
  cases h with
  | stop hsettles | step hsettles => exact ⟨_, hsettles⟩

namespace Node

/-- Alternatives match as the first of them that matches does. -/
theorem matchLength?_alt (a b : Node) (before after : List UInt8) :
    (alt a b).matchLength? before after = (a.matchLength? before after).or (b.matchLength? before after) := by
  have ha := runs_matchLength? a before after
  have hb := runs_matchLength? b before after
  apply matchLength?_eq_of_runs
  apply (ha.beside hb).congr
  intro f hf
  rcases ha.exists_settles with ⟨fa, hfa⟩
  rcases hb.exists_settles with ⟨fb, hfb⟩
  rcases hfa.beside hfb List.not_mem_nil (fun _ _ => List.not_mem_nil) with ⟨f₀, hf₀, hmatched₀, hpassed₀⟩
  obtain rfl := hf.unique hf₀
  -- The way that leads to both alternatives was opened before them, and is none of their ways.
  have hothers (w : Way) (second : Bool) : w ++ [.join second] ∉ [[Frame.node (alt a b)]] := by
    intro hmem
    have hlast := (List.append_inj' (List.mem_singleton.1 hmem) rfl : w = [] ∧ _).2
    cases hlast
  rcases hfa.beside hfb (by simp) hothers with ⟨f₁, hf₁, hmatched₁, hpassed₁⟩
  have hopens : Opens before after [[.node (alt a b)]] .start f₁ := by
    refine .ways List.not_mem_nil rfl ?_
    exact Settles.opens hf₁ rfl
  refine ⟨f₁, hopens.settles, ?_⟩
  cases h : fa.matched with
  | true => exact ⟨(hmatched₁ h).1.trans (hmatched₀ h).1.symm, (hmatched₁ h).2.trans (hmatched₀ h).2.symm⟩
  | false => exact ⟨(hpassed₁ h).1.trans (hpassed₀ h).1.symm, (hpassed₁ h).2.trans (hpassed₀ h).2.symm⟩

end Node

end Descent.Pattern
