import Mathlib.Data.List.Nodup
import Mathlib.Data.List.Perm.Subperm
import Descent.Proofs.Pattern.Ways

/-!
# Runs of the matcher

What the matcher does with the threads that reach a position, and from there on, is a relation that does not mention
fuel.  Every way that waits is either one that was opened before or one more of the ways of the pattern, and opening
it puts two in its place at most, so that twice the number of ways bounds the steps and the fuel is never used up.

Main results:

- `Opens`, `Settles` and `Runs` say what ways, threads and whole matches come to.
- `opens_openWays`: with enough fuel, opening ways comes to what the relation says.
- `Node.runs_matchLength?`: the length of a match is what the run of a pattern comes to, and
  `Node.matchLength?_eq_of_runs` that a run comes to nothing else.
-/

namespace Descent.Pattern

variable {before after : List UInt8} {f f' f'' : Front} {w : Way} {pending : List Way} {ws : List Way}
  {threads : List Thread}

/-- A front with one more way that was opened. -/
def Front.opening (f : Front) (w : Way) : Front :=
  { f with opened := w :: f.opened }

/-- What opening ways by preference comes to. -/
inductive Opens (before after : List UInt8) : List Way → Front → Front → Prop
  | nil (f : Front) : Opens before after [] f f
  | seen {w : Way} {pending : List Way} {f f' : Front} (hseen : w ∈ f.opened)
      (hrest : Opens before after pending f f') : Opens before after (w :: pending) f f'
  | matched {w : Way} {pending : List Way} {f : Front} (hnew : w ∉ f.opened)
      (hw : Opening.ofWay before after w = .matched) :
      Opens before after (w :: pending) f { f.opening w with matched := true }
  | ways {w : Way} {pending next : List Way} {f f' : Front} (hnew : w ∉ f.opened)
      (hw : Opening.ofWay before after w = .ways next)
      (hrest : Opens before after (next ++ pending) (f.opening w) f') :
      Opens before after (w :: pending) f f'
  | taken {w : Way} {pending : List Way} {t : Thread} {f f' : Front} (hnew : w ∉ f.opened)
      (hw : Opening.ofWay before after w = .taken t)
      (hrest : Opens before after pending { f.opening w with threads := f.threads ++ [t] } f') :
      Opens before after (w :: pending) f f'

/-- What settling threads by preference comes to. -/
inductive Settles (before after : List UInt8) : List Thread → Front → Front → Prop
  | nil (f : Front) : Settles before after [] f f
  | waits {owed : Nat} {w : Way} {threads : List Thread} {f f' : Front}
      (hrest : Settles before after threads { f with threads := f.threads ++ [⟨owed, w⟩] } f') :
      Settles before after (⟨owed + 1, w⟩ :: threads) f f'
  | matched {w : Way} {threads : List Thread} {f f' : Front} (hopens : Opens before after [w] f f')
      (hmatched : f'.matched = true) : Settles before after (⟨0, w⟩ :: threads) f f'
  | passed {w : Way} {threads : List Thread} {f f' f'' : Front} (hopens : Opens before after [w] f f')
      (hmatched : f'.matched = false) (hrest : Settles before after threads f' f'') :
      Settles before after (⟨0, w⟩ :: threads) f f''

/-- The front at a position where nothing was done yet. -/
def Front.start : Front :=
  ⟨[], [], false⟩

/-- The length of a match that ends here. -/
def Front.ending? (f : Front) : Option Nat :=
  if f.matched then some 0 else none

/-- What following threads comes to: the length of the preferred match. -/
inductive Runs : (before after : List UInt8) → List Thread → Option Nat → Prop
  | stop {before : List UInt8} {threads : List Thread} {f : Front}
      (hsettles : Settles before [] threads .start f) : Runs before [] threads f.ending?
  | step {before rest : List UInt8} {b : UInt8} {threads : List Thread} {f : Front} {r : Option Nat}
      (hsettles : Settles before (b :: rest) threads .start f) (hrest : Runs (b :: before) rest f.threads r) :
      Runs before (b :: rest) threads ((r.map (· + 1)).or f.ending?)

/-! ## Uniqueness -/

theorem Opens.unique (h : Opens before after ws f f') (h' : Opens before after ws f f'') : f' = f'' := by
  induction h with
  | nil f =>
    cases h'
    rfl
  | seen hseen hrest ih =>
    cases h' with
    | seen _ hrest' => exact ih hrest'
    | matched hnew | ways hnew | taken hnew => exact absurd hseen hnew
  | matched hnew hw =>
    cases h' with
    | seen hseen => exact absurd hseen hnew
    | matched => rfl
    | ways _ hw' | taken _ hw' =>
      rw [hw] at hw'
      cases hw'
  | ways hnew hw hrest ih =>
    cases h' with
    | seen hseen => exact absurd hseen hnew
    | matched _ hw' | taken _ hw' =>
      rw [hw] at hw'
      cases hw'
    | ways _ hw' hrest' =>
      rw [hw] at hw'
      cases hw'
      exact ih hrest'
  | taken hnew hw hrest ih =>
    cases h' with
    | seen hseen => exact absurd hseen hnew
    | matched _ hw' | ways _ hw' =>
      rw [hw] at hw'
      cases hw'
    | taken _ hw' hrest' =>
      rw [hw] at hw'
      cases hw'
      exact ih hrest'

theorem Settles.unique (h : Settles before after threads f f') (h' : Settles before after threads f f'') :
    f' = f'' := by
  induction h with
  | nil f =>
    cases h'
    rfl
  | waits hrest ih =>
    cases h' with
    | waits hrest' => exact ih hrest'
  | matched hopens hmatched =>
    cases h' with
    | matched hopens' => exact hopens.unique hopens'
    | passed hopens' hmatched' =>
      rw [← hopens.unique hopens', hmatched] at hmatched'
      cases hmatched'
  | passed hopens hmatched hrest ih =>
    cases h' with
    | matched hopens' hmatched' =>
      rw [← hopens.unique hopens', hmatched] at hmatched'
      cases hmatched'
    | passed hopens' _ hrest' =>
      obtain rfl := hopens.unique hopens'
      exact ih hrest'

theorem Runs.unique {r r' : Option Nat} (h : Runs before after threads r)
    (h' : Runs before after threads r') : r = r' := by
  induction h generalizing r' with
  | stop hsettles =>
    cases h' with
    | stop hsettles' => rw [hsettles.unique hsettles']
  | step hsettles hrest ih =>
    cases h' with
    | step hsettles' hrest' =>
      obtain rfl := hsettles.unique hsettles'
      rw [ih hrest']

theorem runs_nil (before after : List UInt8) : Runs before after [] none := by
  induction after generalizing before with
  | nil => exact .stop (.nil .start)
  | cons b rest ih => exact .step (.nil .start) (ih (b :: before))

/-- What was opened before stays so. -/
theorem Opens.opened_subset (h : Opens before after ws f f') : f.opened ⊆ f'.opened := by
  induction h with
  | nil => exact List.Subset.refl _
  | seen _ _ ih => exact ih
  | matched => exact List.subset_cons_self _ _
  | ways _ _ _ ih | taken _ _ _ ih => exact fun w hw => ih (List.mem_cons_of_mem _ hw)

/-! ## Fuel -/

theorem length_le_of_ofWay {next : List Way} (h : Opening.ofWay before after w = .ways next) :
    next.length ≤ 2 := by
  have hprefer (greedy : Bool) (stay leave : Way) : (prefer greedy stay leave).length ≤ 2 := by
    cases greedy <;> exact Nat.le_refl 2
  rcases w with _ | ⟨a | ⟨a, greedy⟩ | second, k⟩
  · cases h
  · cases a with
    | empty | seq | alt | group =>
      cases h
      simp
    | look l =>
      cases h
      split <;> simp
    | char s =>
      simp only [Opening.ofWay] at h
      split at h
      · split at h <;> cases h
        simp
      · cases h
        simp
    | octet s =>
      rcases after with _ | ⟨b, rest⟩ <;> simp only [Opening.ofWay] at h
      · cases h
        simp
      · split at h <;> cases h
        simp
    | repeated a min max greedy =>
      cases h
      rcases min with _ | _ | n <;> rcases max with _ | _ | m
      all_goals first | exact hprefer _ _ _ | exact Nat.le_succ 1
  · cases h
    exact hprefer _ _ _
  · cases h
    exact Nat.le_succ 1

/-- Opening any of some ways leads to others of them. -/
def Closes (before after : List UInt8) (ws : List Way) : Prop :=
  ∀ w ∈ ws, (Opening.ofWay before after w).Leads (· ∈ ws)

/-- What a front has is among some ways, and none of them was opened twice. -/
structure Front.Among (ws : List Way) (f : Front) : Prop where
  threads : ∀ t ∈ f.threads, t.way ∈ ws
  opened : ∀ w ∈ f.opened, w ∈ ws
  nodup : f.opened.Nodup

theorem Front.among_start (ws : List Way) : Front.start.Among ws :=
  ⟨by simp [start], by simp [start], .nil⟩

theorem Front.Among.opening (h : f.Among ws) (hw : w ∈ ws) (hnew : w ∉ f.opened) :
    (f.opening w).Among ws :=
  ⟨h.threads, List.forall_mem_cons.2 ⟨hw, h.opened⟩, List.nodup_cons.2 ⟨hnew, h.nodup⟩⟩

theorem Front.Among.add {t : Thread} (h : f.Among ws) (ht : t.way ∈ ws) :
    ({ f with threads := f.threads ++ [t] } : Front).Among ws := by
  refine ⟨?_, h.opened, h.nodup⟩
  intro t' ht'
  rcases List.mem_append.1 ht' with ht' | ht'
  · exact h.threads t' ht'
  · rw [List.mem_singleton.1 ht']
    exact ht

/-- With enough fuel, opening ways comes to what the relation says. -/
theorem opens_openWays (hcloses : Closes before after ws) {fuel : Nat} (hpending : ∀ w ∈ pending, w ∈ ws)
    (hf : f.Among ws) (hfuel : pending.length + 2 * ws.length ≤ fuel + 2 * f.opened.length) :
    Opens before after pending f (openWays before after fuel pending f) ∧
      (openWays before after fuel pending f).Among ws := by
  induction fuel generalizing pending f with
  | zero =>
    rcases pending with _ | ⟨w, pending⟩
    · exact ⟨.nil f, hf⟩
    · have hle := (hf.nodup.subperm hf.opened).length_le
      rw [List.length_cons] at hfuel
      omega
  | succ fuel ih =>
    rcases pending with _ | ⟨w, pending⟩
    · exact ⟨.nil f, hf⟩
    · rcases List.forall_mem_cons.1 hpending with ⟨hw, hpending⟩
      rw [List.length_cons] at hfuel
      rw [openWays]
      by_cases hseen : w ∈ f.opened
      · rw [if_pos (by simpa using hseen)]
        have hrest := ih hpending hf (by omega)
        exact ⟨.seen hseen hrest.1, hrest.2⟩
      · rw [if_neg (by simpa using hseen)]
        have hopening := hf.opening hw hseen
        have hleads := hcloses w hw
        dsimp only
        rcases ho : Opening.ofWay before after w with _ | next | t
        · exact ⟨.matched hseen ho, hopening.threads, hopening.opened, hopening.nodup⟩
        · rw [ho] at hleads
          have htwo := length_le_of_ofWay ho
          have hnext : ∀ u ∈ next ++ pending, u ∈ ws := by
            intro u hu
            exact (List.mem_append.1 hu).elim (hleads u) (hpending u)
          have hrest := ih hnext hopening (by
            simp only [List.length_append, Front.opening, List.length_cons]
            omega)
          exact ⟨.ways hseen ho hrest.1, hrest.2⟩
        · rw [ho] at hleads
          have hrest := ih hpending (hopening.add hleads) (by
            simp only [Front.opening, List.length_cons]
            omega)
          exact ⟨.taken hseen ho hrest.1, hrest.2⟩

theorem settles_settle (hcloses : Closes before after ws) {fuel : Nat} (hthreads : ∀ t ∈ threads, t.way ∈ ws)
    (hf : f.Among ws) (hfuel : 1 + 2 * ws.length ≤ fuel) :
    Settles before after threads f (settle before after fuel threads f) ∧
      (settle before after fuel threads f).Among ws := by
  induction threads generalizing f with
  | nil => exact ⟨.nil f, hf⟩
  | cons t threads ih =>
    rcases List.forall_mem_cons.1 hthreads with ⟨ht, hlater⟩
    rcases t with ⟨_ | owed, w⟩
    · have hopens := opens_openWays hcloses (List.forall_mem_singleton.2 ht) hf (by
        rw [List.length_singleton]
        omega : [w].length + 2 * ws.length ≤ fuel + 2 * f.opened.length)
      rw [settle]
      dsimp only
      by_cases hmatched : (openWays before after fuel [w] f).matched = true
      · rw [if_pos hmatched]
        exact ⟨.matched hopens.1 hmatched, hopens.2⟩
      · rw [if_neg hmatched]
        have hrest := ih hlater hopens.2
        exact ⟨.passed hopens.1 (Bool.eq_false_iff.2 hmatched) hrest.1, hrest.2⟩
    · have hadd : ({ f with threads := f.threads ++ [⟨owed, w⟩] } : Front).Among ws := hf.add ht
      have hrest := ih hlater hadd
      exact ⟨.waits hrest.1, hrest.2⟩

/-- With enough fuel, following threads comes to what the relation says. -/
theorem exists_runs_of_follow {fuel : Nat} (hcloses : ∀ before after, Closes before after ws)
    (hthreads : ∀ t ∈ threads, t.way ∈ ws) (hfuel : 1 + 2 * ws.length ≤ fuel) :
    ∃ r, Runs before after threads r ∧
      ∀ length best, follow fuel before after threads length best = (r.map (length + ·)).or best := by
  induction after generalizing before threads with
  | nil =>
    have hsettles := settles_settle (hcloses before []) hthreads (Front.among_start ws) hfuel
    refine ⟨_, .stop hsettles.1, ?_⟩
    intro length best
    rw [follow]
    change (if (settle before [] fuel threads .start).matched then some length else best) = _
    unfold Front.ending?
    split <;> simp
  | cons b rest ih =>
    have hsettles := settles_settle (hcloses before (b :: rest)) hthreads (Front.among_start ws) hfuel
    rcases ih hsettles.2.threads with ⟨r, hruns, hfollow⟩
    refine ⟨_, .step hsettles.1 hruns, ?_⟩
    intro length best
    rw [follow]
    change (if (settle before (b :: rest) fuel threads .start).threads.isEmpty then
      (if (settle before (b :: rest) fuel threads .start).matched then some length else best)
      else follow fuel (b :: before) rest (settle before (b :: rest) fuel threads .start).threads (length + 1)
        (if (settle before (b :: rest) fuel threads .start).matched then some length else best)) = _
    generalize settle before (b :: rest) fuel threads .start = f at hruns hfollow
    have hending (best : Option Nat) : (if f.matched then some length else best) =
        (f.ending?.map (length + ·)).or best := by
      unfold Front.ending?
      split <;> simp
    have hlater : ((r.map (· + 1)).or f.ending?).map (length + ·) =
        (r.map (length + 1 + ·)).or (f.ending?.map (length + ·)) := by
      rcases r with _ | n
      · simp
      · simp [Nat.add_assoc, Nat.add_comm 1 n]
    rw [hlater, Option.or_assoc, ← hending]
    by_cases hempty : f.threads.isEmpty = true
    · rw [if_pos hempty]
      rw [List.isEmpty_iff.1 hempty] at hruns
      rw [hruns.unique (runs_nil _ _)]
      simp
    · rw [if_neg hempty]
      exact hfollow _ _

namespace Node

/-- The ways of a whole pattern. -/
theorem closes_ways (a : Node) (before after : List UInt8) : Closes before after ([] :: a.ways []) := by
  intro w hw
  rcases List.mem_cons.1 hw with rfl | hw
  · trivial
  · apply (leads_of_mem_ways a [] w hw).mono
    rintro u (hu | rfl)
    · exact List.mem_cons_of_mem _ hu
    · exact List.mem_cons_self

/-- The length of a match is what the run of a pattern comes to. -/
theorem runs_matchLength? (a : Node) (before after : List UInt8) :
    Runs before after [⟨0, [.node a]⟩] (a.matchLength? before after) := by
  have hstart : ∀ t ∈ [(⟨0, [.node a]⟩ : Thread)], t.way ∈ [] :: a.ways [] := by
    intro t ht
    rw [List.mem_singleton.1 ht]
    exact List.mem_cons_of_mem _ (mem_ways a [])
  have hlength := length_ways_le a []
  have hfuel : 1 + 2 * ([] :: a.ways []).length ≤ 2 * a.weight + 3 := by
    rw [List.length_cons]
    omega
  rcases exists_runs_of_follow (closes_ways a) hstart hfuel with ⟨r, hruns, hfollow⟩
  rw [matchLength?, hfollow]
  simpa using hruns

/-- A run of a pattern comes to the length of its match. -/
theorem matchLength?_eq_of_runs {a : Node} {r : Option Nat} (h : Runs before after [⟨0, [.node a]⟩] r) :
    a.matchLength? before after = r :=
  (runs_matchLength? a before after).unique h

end Node

end Descent.Pattern
