import Descent.Proofs.Token.Ending

/-!
# Items match by match

The next item of a text may take many matches, for those that are passed over make no item.  Here the
items still to come are taken apart by single matches: what comes from a scanner is what its next
match makes, and then what comes from the scanner after it.

Main results:

- `Scanner.steps` are the items still to come, and `Scanner.call` is the outcome of one call among many.
- `Scanner.steps_of_scanOne`, `Scanner.steps_of_error` and `Scanner.steps_of_nil` take the items
  apart.
- `Scanner.scan_induction` is the induction on matches.
- `Lexicon.ordered_items`: the tokens of a text come from left to right, its ending last.
- `Scanner.call_eq`: the calls bring the items in order, and then nothing.
-/

namespace Descent.Scanner

variable {s s' : Scanner} {t : Token} {item : Except LexError Token}

/-! ## Fuel -/

/-- More fuel than octets changes nothing about the next item. -/
theorem nextKept_congr {fuel fuel' : Nat} (h : s.after.length < fuel)
    (h' : s.after.length < fuel') : s.nextKept fuel = s.nextKept fuel' := by
  induction fuel generalizing s fuel' with
  | zero => omega
  | succ fuel ih =>
    cases fuel' with
    | zero => omega
    | succ fuel' =>
      unfold nextKept
      by_cases hempty : s.after.isEmpty = true
      · rw [if_pos hempty, if_pos hempty]
      · rw [if_neg hempty, if_neg hempty]
        rcases hscan : s.scanOne with e | ⟨t, s'⟩
        · rfl
        · have hlt := after_length_lt (fun hnil => hempty (List.isEmpty_iff.2 hnil)) hscan
          have hrest : s'.nextKept fuel = s'.nextKept fuel' := ih (by omega) (by omega)
          dsimp only
          rw [hrest]

theorem finished_or_later (h : s.next? = some (item, s')) :
    s'.finished = true ∨ Later s s' := by
  unfold next? at h
  split at h
  · cases h
  · rcases cuts_or_ends (Nat.lt_succ_self _) (Option.some.inj h) with ⟨t, -, -, -, hlater⟩ | hlast
    · exact .inr hlater
    · exact .inl hlast.2

theorem stepsFrom_of_finished (h : s.finished = true) (fuel : Nat) :
    Lexicon.stepsFrom fuel s = [] := by
  cases fuel with
  | zero => rfl
  | succ fuel => simp [Lexicon.stepsFrom, next?, h]

/-- Fuel for one item more than there are octets, and one besides, is enough for all items. -/
theorem stepsFrom_congr {fuel fuel' : Nat} (h : s.after.length + 2 ≤ fuel)
    (h' : s.after.length + 2 ≤ fuel') :
    Lexicon.stepsFrom fuel s = Lexicon.stepsFrom fuel' s := by
  induction fuel generalizing s fuel' with
  | zero => omega
  | succ fuel ih =>
    cases fuel' with
    | zero => omega
    | succ fuel' =>
      unfold Lexicon.stepsFrom
      rcases hnext : s.next? with _ | ⟨item, s'⟩
      · rfl
      · rcases finished_or_later hnext with hfinished | hlater
        · simp only [stepsFrom_of_finished hfinished]
        · have hlt := hlater.length_lt
          have hrest : Lexicon.stepsFrom fuel s' = Lexicon.stepsFrom fuel' s' :=
            ih (by omega) (by omega)
          simp only [hrest]

/-! ## The items still to come -/

/-- The items still to come from a scanner, with the active namespace after each. -/
def steps (s : Scanner) : List ScanStep :=
  Lexicon.stepsFrom (s.after.length + 2) s

theorem steps_of_finished (h : s.finished = true) : s.steps = [] :=
  stepsFrom_of_finished h _

theorem steps_eq_cons (h : s.next? = some (item, s')) : s.steps = ⟨item, s'.space⟩ :: s'.steps := by
  have hcons : s.steps = ⟨item, s'.space⟩ :: Lexicon.stepsFrom (s.after.length + 1) s' := by
    rw [steps, Lexicon.stepsFrom, h]
  rw [hcons]
  rcases finished_or_later h with hfinished | hlater
  · rw [stepsFrom_of_finished hfinished, steps_of_finished hfinished]
  · have hlt := hlater.length_lt
    have hrest : Lexicon.stepsFrom (s.after.length + 1) s' = s'.steps :=
      stepsFrom_congr (by omega) (Nat.le_refl _)
    rw [hrest]

/-- At the end of the text comes the ending alone. -/
theorem steps_of_nil (hs : s.finished = false) (hnil : s.after = []) :
    s.steps = [⟨s.endingItem, s.space⟩] := by
  have hnext : s.next? = some (s.endingItem, s.finish) := by
    simp [next?, hs, nextKept, hnil]
  rw [steps_eq_cons hnext, steps_of_finished rfl]
  rfl

/-- Where cutting off fails the error comes alone. -/
theorem steps_of_error (hs : s.finished = false) (hne : s.after ≠ []) {e : LexError}
    (h : s.scanOne = .error e) : s.steps = [⟨.error e, s.space⟩] := by
  have hnext : s.next? = some (.error e, s.finish) := by
    simp [next?, hs, nextKept, hne, h]
  rw [steps_eq_cons hnext, steps_of_finished rfl]
  rfl

/-- What is cut off comes first if it is kept, and then what comes after it. -/
theorem steps_of_scanOne (hs : s.finished = false) (hne : s.after ≠ [])
    (h : s.scanOne = .ok (t, s')) :
    s.steps = (if t.keep then [⟨.ok t, s'.space⟩] else []) ++ s'.steps := by
  by_cases hkeep : t.keep = true
  · have hnext : s.next? = some (.ok t, s') := by
      simp [next?, hs, nextKept, hne, h, hkeep]
    rw [steps_eq_cons hnext, if_pos hkeep]
    rfl
  · have hlater := later_of_scanOne hne h
    have hlt := hlater.length_lt
    have hkept : s.nextKept (s.after.length + 1) = s'.nextKept (s'.after.length + 1) := by
      rw [nextKept, if_neg (by simpa using hne), h]
      dsimp only
      rw [if_neg hkeep, nextKept_congr (by omega) (Nat.lt_succ_self _)]
    have hnext : s.next? = s'.next? := by
      rw [next?, next?, hlater.finished, hkept]
    rw [if_neg hkeep, List.nil_append]
    rcases hitem : s'.next? with _ | ⟨item, s''⟩
    · simp [next?, hlater.finished, hs] at hitem
    · rw [steps_eq_cons (hnext.trans hitem), steps_eq_cons hitem]

/-- The induction on matches: at the end of the text, where cutting off fails, and from what is cut
off to the text after it. -/
@[elab_as_elim]
theorem scan_induction {motive : Scanner → Prop}
    (ending : ∀ s, s.after = [] → motive s)
    (failing : ∀ s e, s.after ≠ [] → s.scanOne = .error e → motive s)
    (cut : ∀ s t s', s.after ≠ [] → s.scanOne = .ok (t, s') → motive s' → motive s)
    (s : Scanner) : motive s := by
  induction hlength : s.after.length using Nat.strongRecOn generalizing s with
  | ind n ih =>
    by_cases hnil : s.after = []
    · exact ending s hnil
    · rcases hscan : s.scanOne with e | ⟨t, s'⟩
      · exact failing s e hnil hscan
      · have hlt := after_length_lt hnil hscan
        exact cut s t s' hnil hscan (ih _ (by omega) s' rfl)

/-! ## The order of tokens -/

/-- A match takes the scanner further on. -/
theorem offset_lt_of_scanOne (hne : s.after ≠ []) (h : s.scanOne = .ok (t, s')) :
    s.offset < s'.offset := by
  have hlater := later_of_scanOne hne h
  have hlength := congrArg List.length hlater.text
  have hlt := hlater.length_lt
  simp only [text, List.length_append, List.length_reverse] at hlength
  unfold offset
  omega

end Descent.Scanner

namespace Descent

/-- Tokens come from left to right. -/
def Ordered (items : List (Except LexError Token)) : Prop :=
  ∀ {i j : Nat} {t u : Token}, i < j → items[i]? = some (.ok t) → items[j]? = some (.ok u) →
    t.offset < u.offset

namespace Scanner

variable {s s' : Scanner} {t : Token}

/-- The items still to come are tokens from the place of the scanner on, each further on than those
before it. -/
theorem pairwise_steps (s : Scanner) (hs : s.finished = false) :
    ((s.steps.map (·.item)).Pairwise fun x y =>
      ∀ t u, x = .ok t → y = .ok u → t.offset < u.offset) ∧
    ∀ t, .ok t ∈ s.steps.map (·.item) → s.offset ≤ t.offset := by
  induction s using scan_induction with
  | ending s hnil =>
    rw [steps_of_nil hs hnil]
    refine ⟨List.pairwise_singleton _ _, ?_⟩
    intro t ht
    unfold endingItem at ht
    split at ht
    · simp at ht
    · rw [List.map_singleton, List.mem_singleton] at ht
      cases ht
      exact Nat.le_refl _
  | failing s e hne hscan =>
    rw [steps_of_error hs hne hscan]
    exact ⟨List.pairwise_singleton _ _, by simp⟩
  | cut s t s' hne hscan ih =>
    have hlater := later_of_scanOne hne hscan
    have hlt := offset_lt_of_scanOne hne hscan
    rcases ih (hlater.finished.trans hs) with ⟨hpairs, hfrom⟩
    have hoffset : t.offset = s.offset := by
      rcases exists_match_of_scanOne hscan with ⟨l, n, s'', -, -, -, rfl, -⟩
      rfl
    rw [steps_of_scanOne hs hne hscan]
    by_cases hkeep : t.keep = true
    · rw [if_pos hkeep, List.singleton_append, List.map_cons, List.pairwise_cons]
      refine ⟨⟨?_, hpairs⟩, ?_⟩
      · intro y hy t' u ht hu
        cases ht
        have hle := hfrom u (hu ▸ hy)
        omega
      · intro u hu
        rcases List.mem_cons.1 hu with hu | hu
        · cases hu
          exact Nat.le_of_eq hoffset.symm
        · exact Nat.le_trans (Nat.le_of_lt hlt) (hfrom u hu)
    · rw [if_neg hkeep, List.nil_append]
      exact ⟨hpairs, fun u hu => Nat.le_trans (Nat.le_of_lt hlt) (hfrom u hu)⟩

end Scanner

/-- The tokens of a text come from left to right, its ending last. -/
theorem Lexicon.ordered_items (lx : Lexicon) (text : List UInt8) : Ordered (lx.items text) := by
  have hpairs := (Scanner.pairwise_steps (.start lx text) rfl).1
  intro i j t u hlt ht hu
  rcases List.getElem?_eq_some_iff.1 ht with ⟨hi, hti⟩
  rcases List.getElem?_eq_some_iff.1 hu with ⟨hj, huj⟩
  exact List.pairwise_iff_getElem.1 hpairs i j hi hj hlt t u hti huj

namespace Scanner

/-! ## Calls -/

/-- The scanner after a call for the next item. -/
def afterCall (s : Scanner) : Scanner :=
  match s.next? with
  | some (_, s') => s'
  | none => s

/-- The outcome of a call for the next item that comes after `n` other calls. -/
def call (s : Scanner) : (n : Nat) → Option (Except LexError Token)
  | 0 => s.next?.map (·.1)
  | n + 1 => s.afterCall.call n

/-- The calls bring the items in order, and then nothing. -/
theorem call_eq (s : Scanner) (n : Nat) : s.call n = s.steps[n]?.map (·.item) := by
  induction n generalizing s with
  | zero =>
    rcases hnext : s.next? with _ | ⟨item, s'⟩
    · simp [call, hnext, steps, Lexicon.stepsFrom]
    · simp [call, hnext, steps_eq_cons hnext]
  | succ n ih =>
    rw [call, ih]
    rcases hnext : s.next? with _ | ⟨item, s'⟩
    · simp [afterCall, hnext, steps, Lexicon.stepsFrom]
    · simp [afterCall, hnext, steps_eq_cons hnext]

end Scanner

end Descent
