import Descent.Proofs.Pattern.Choice

/-!
# Leaves

A leaf takes a number of octets that is settled by the text alone, without any preference.

Main results:

- `Node.width?` is the number of octets that a leaf takes at a position.
- `Node.matchLength?_leaf`: a leaf matches the octets that it takes.
-/

namespace Descent.Pattern

variable {before after : List UInt8} {f fk : Front} {k w : Way} {others : List Way} {r : Option Nat}

/-- The octets before a position that lies some octets further on. -/
def movedBy (n : Nat) (before after : List UInt8) : List UInt8 :=
  (after.take n).reverse ++ before

@[simp]
theorem movedBy_zero (before after : List UInt8) : movedBy 0 before after = before :=
  rfl

theorem movedBy_succ (n : Nat) (before : List UInt8) (b : UInt8) (rest : List UInt8) :
    movedBy (n + 1) before (b :: rest) = movedBy n (b :: before) rest := by
  simp [movedBy]

/-! ## Runs of a single way -/

/-- A thread that waits for some octets goes on behind them. -/
theorem Runs.wait {n : Nat} (hn : n ≤ after.length)
    (h : Runs (movedBy n before after) (after.drop n) [⟨0, k⟩] r) :
    Runs before after [⟨n, k⟩] (r.map (n + ·)) := by
  induction n generalizing before after with
  | zero => simpa using h
  | succ n ih =>
    rcases after with _ | ⟨b, rest⟩
    · exact absurd hn (Nat.not_succ_le_zero n)
    · rw [movedBy_succ] at h
      have hlater := ih (Nat.le_of_succ_le_succ hn) h
      have hsettles : Settles before (b :: rest) [⟨n + 1, k⟩] .start ⟨[⟨n, k⟩], [], false⟩ := .waits (.nil _)
      have hstep := Runs.step hsettles hlater
      have hresult : (((r.map (n + ·)).map (· + 1)).or none : Option Nat) = r.map (n + 1 + ·) := by
        rcases r with _ | m
        · rfl
        · simp [Nat.add_right_comm]
      rw [← hresult]
      exact hstep

/-- Where opening a way does not match, the threads it leads to are followed. -/
theorem Runs.of_opens {b : UInt8} {rest : List UInt8} (h : Opens before (b :: rest) [w] .start f)
    (hmatched : f.matched = false) (hrest : Runs (b :: before) rest f.threads r) :
    Runs before (b :: rest) [⟨0, w⟩] (r.map (· + 1)) := by
  have hstep := Runs.step h.settles hrest
  rwa [Front.ending?, hmatched, if_neg Bool.false_ne_true, Option.or_none] at hstep

/-- A way that leads nowhere does not match. -/
theorem Runs.of_blocked (h : Opens before after [w] .start f) (hmatched : f.matched = false)
    (hthreads : f.threads = []) : Runs before after [⟨0, w⟩] none := by
  rcases after with _ | ⟨b, rest⟩
  · have hstop := Runs.stop h.settles
    rwa [Front.ending?, hmatched, if_neg Bool.false_ne_true] at hstop
  · exact .of_opens h hmatched (hthreads ▸ runs_nil _ _)

/-- A way that comes to its end and leads nowhere else matches without taking an octet. -/
theorem Runs.of_matched (h : Opens before after [w] .start f) (hmatched : f.matched = true)
    (hthreads : f.threads = []) : Runs before after [⟨0, w⟩] (some 0) := by
  have hending : f.ending? = some 0 := if_pos hmatched
  rcases after with _ | ⟨b, rest⟩
  · rw [← hending]
    exact .stop h.settles
  · have hstep := Runs.step h.settles (hthreads ▸ runs_nil _ _)
    rwa [hending] at hstep

/-- Nothing is left to pass. -/
theorem runs_end (before after : List UInt8) : Runs before after [⟨0, []⟩] (some 0) :=
  .of_matched (.matched List.not_mem_nil rfl) rfl rfl

namespace Node

variable {p : Node}

/-! ## Leaves -/

/-- Whether a pattern takes one character or one octet, or makes an assertion. -/
def isLeaf : Node → Bool
  | .char _ | .octet _ | .look _ => true
  | _ => false

/-- The number of octets that a leaf takes at a position. -/
def width? (before after : List UInt8) : Node → Option Nat
  | .char s => (Text.charAfter? after).bind fun c => if s.mem c.1.toNat then some c.2 else none
  | .octet s => after.head?.bind fun b => if s.mem b.toNat then some 1 else none
  | .look l => if l.holds before after then some 0 else none
  | _ => none

/-- What a leaf before a way does that takes some number of octets. -/
def openingOf (k : Way) : Option Nat → Opening
  | none => .ways []
  | some 0 => .ways [k]
  | some (n + 1) => .taken ⟨n, k⟩

theorem charAfter?_bounds {c : Char} {width : Nat} (h : Text.charAfter? after = some (c, width)) :
    0 < width ∧ width ≤ after.length := by
  rcases after with _ | ⟨b, rest⟩
  · cases h
  · rw [Text.charAfter?, Option.map_eq_some_iff] at h
    rcases h with ⟨c', -, heq⟩
    obtain ⟨-, rfl⟩ := Prod.mk.inj heq
    exact ⟨Text.firstPiece_width_pos b rest, Text.firstPiece_width_le b rest⟩

theorem ofWay_leaf (hp : p.isLeaf = true) (before after : List UInt8) (k : Way) :
    Opening.ofWay before after (.node p :: k) = openingOf k (p.width? before after) := by
  cases p with
  | char s =>
    simp only [Opening.ofWay, width?]
    rcases hc : Text.charAfter? after with _ | ⟨c, width⟩
    · rfl
    · obtain ⟨n, rfl⟩ : ∃ n, width = n + 1 := ⟨width - 1, by have := charAfter?_bounds hc; omega⟩
      simp only [Option.bind_some]
      split <;> rfl
  | octet s =>
    rcases after with _ | ⟨b, rest⟩
    · rfl
    · simp only [Opening.ofWay, width?, List.head?_cons, Option.bind_some]
      split <;> rfl
  | look l =>
    simp only [Opening.ofWay, width?]
    split <;> rfl
  | empty | seq | alt | repeated | group => cases hp

/-- A leaf takes no more octets than there are. -/
theorem width?_le {n : Nat} (h : p.width? before after = some n) : n ≤ after.length := by
  cases p with
  | char s =>
    rcases Option.bind_eq_some_iff.1 h with ⟨⟨c, width⟩, hc, hn⟩
    split at hn
    · cases hn
      exact (charAfter?_bounds hc).2
    · cases hn
  | octet s =>
    rcases after with _ | ⟨b, rest⟩
    · cases h
    · simp only [width?, List.head?_cons, Option.bind_some] at h
      split at h
      · cases h
        exact Nat.le_add_left 1 _
      · cases h
  | look l =>
    simp only [width?] at h
    split at h
    · cases h
      exact Nat.zero_le _
    · cases h
  | empty | seq | alt | repeated | group => cases h

/-- A way that leads to a leaf takes the octets of the leaf and goes on behind them. -/
theorem runs_leaf {lead : Way} {rs : Nat → Option Nat} (hp : p.isLeaf = true)
    (hlead : ∀ f, Opens before after [.node p :: k] ⟨[], others, false⟩ f → Opens before after [lead] .start f)
    (hnew : (.node p :: k) ∉ others)
    (hzero : p.width? before after = some 0 → Runs before after [⟨0, lead⟩] (rs 0))
    (hrest : ∀ n, p.width? before after = some n →
      Runs (movedBy n before after) (after.drop n) [⟨0, k⟩] (rs n)) :
    Runs before after [⟨0, lead⟩] ((p.width? before after).bind fun n => (rs n).map (n + ·)) := by
  have hopening := ofWay_leaf hp before after k
  rcases hwidth : p.width? before after with _ | _ | n
  · rw [hwidth] at hopening
    exact .of_blocked (hlead _ (.ways hnew hopening (.nil _))) rfl rfl
  · simpa using hzero hwidth
  · rw [hwidth] at hopening
    have hle := width?_le hwidth
    have hlater := hrest _ hwidth
    rcases after with _ | ⟨b, rest⟩
    · exact absurd hle (Nat.not_succ_le_zero n)
    · rw [movedBy_succ] at hlater
      have hwait := hlater.wait (Nat.le_of_succ_le_succ hle)
      have hruns := Runs.of_opens (hlead _ (.taken hnew hopening (.nil _))) rfl hwait
      have hresult : ((rs (n + 1)).map (n + ·)).map (· + 1) = (rs (n + 1)).map (n + 1 + ·) := by
        simp [Function.comp_def, Nat.add_right_comm]
      rw [hresult] at hruns
      exact hruns

/-- A leaf matches the octets that it takes. -/
theorem matchLength?_leaf (hp : p.isLeaf = true) (before after : List UInt8) :
    p.matchLength? before after = p.width? before after := by
  have hruns : Runs before after [⟨0, [.node p]⟩]
      ((p.width? before after).bind fun n => (some 0).map (n + ·)) := by
    refine runs_leaf hp (fun _ h => h) List.not_mem_nil ?_ (fun n _ => runs_end _ _)
    intro hzero
    have hopening := ofWay_leaf hp before after []
    rw [hzero] at hopening
    exact .of_matched (.ways List.not_mem_nil hopening (.matched (by simp [Front.opening, Front.start]) rfl)) rfl rfl
  rw [matchLength?_eq_of_runs hruns]
  simp

end Node

end Descent.Pattern
