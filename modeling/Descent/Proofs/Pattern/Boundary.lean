import Descent.Pattern.Matching
import Descent.Pattern.Reader
import Descent.Proofs.Text.Utf8

/-!
# Matches end between characters

A pattern that keeps characters, started where a character starts, can end only where one ends.
Each thread that is followed counts the octets it still owes; the invariant is that, once these have
passed, the octets left over are some characters again.

Main results:

- `Boundary` says that the octets left over are the last characters of a text.
- `Opening.bounded_ofWay`: opening a way at a boundary leads to threads that end at boundaries.
- `Node.boundary_of_matchLength?`: a match ends at a boundary.
- `Node.exists_take_of_matchLength?`: a match takes some characters from the front of a text.
-/

namespace Descent

namespace Pattern

/-- The octets left over are the last characters of a text. -/
def Boundary (cs : List Char) (after : List UInt8) : Prop :=
  ∃ ds, ds <:+ cs ∧ after = Text.octets ds

theorem boundary_octets (cs : List Char) : Boundary cs (Text.octets cs) :=
  ⟨cs, List.suffix_refl cs, rfl⟩

/-! ## Ways that keep characters -/

/-- Whether passing a frame ends only where a character ends. -/
def Frame.keepsCharacters : Frame → Bool
  | .node a | .again a _ => a.keepsCharacters
  | .join _ => true

/-- Whether a way ends only where a character ends. -/
def Way.KeepsCharacters (w : Way) : Prop :=
  ∀ f ∈ w, f.keepsCharacters = true

@[simp]
theorem Way.keepsCharacters_nil : Way.KeepsCharacters [] :=
  fun _ hf => absurd hf List.not_mem_nil

@[simp]
theorem Way.keepsCharacters_cons {f : Frame} {k : Way} :
    Way.KeepsCharacters (f :: k) ↔ f.keepsCharacters = true ∧ Way.KeepsCharacters k :=
  List.forall_mem_cons

/-- A thread that is due between characters and goes on between them; `after` are the octets it is
behind. -/
structure Thread.Bounded (cs : List Char) (after : List UInt8) (t : Thread) : Prop where
  boundary : Boundary cs (after.drop t.owed)
  keeps : t.way.KeepsCharacters

theorem prefer_keepsCharacters {greedy : Bool} {stay leave w : Way}
    (hstay : stay.KeepsCharacters) (hleave : leave.KeepsCharacters)
    (hw : w ∈ prefer greedy stay leave) : w.KeepsCharacters := by
  unfold prefer at hw
  cases greedy <;> simp at hw <;> rcases hw with rfl | rfl <;> assumption

theorem repeatWays_keepsCharacters {a : Node} {min : Nat} {max : Option Nat} {greedy : Bool}
    {k w : Way} (ha : a.keepsCharacters = true) (hk : k.KeepsCharacters)
    (hw : w ∈ repeatWays a min max greedy k) : w.KeepsCharacters := by
  unfold repeatWays at hw
  split at hw
  · rw [List.mem_singleton.1 hw]
    exact hk
  · exact prefer_keepsCharacters
      (by simp [Frame.keepsCharacters, Node.keepsCharacters, ha, hk]) hk hw
  all_goals
    rw [List.mem_singleton.1 hw]
    simp [Frame.keepsCharacters, Node.keepsCharacters, ha, hk]

/-! ## Taking one character -/

/-- Behind the character that stands at a boundary is a boundary. -/
theorem boundary_drop_of_charAfter? {cs : List Char} {after : List UInt8} {c : Char} {width : Nat}
    (hafter : Boundary cs after) (hc : Text.charAfter? after = some (c, width)) :
    0 < width ∧ Boundary cs (after.drop width) := by
  rcases hafter with ⟨_ | ⟨d, ds⟩, hsuffix, rfl⟩
  · cases hc
  · rw [Text.charAfter?_octets] at hc
    cases hc
    refine ⟨String.length_utf8EncodeChar c ▸ Char.utf8Size_pos c, ds,
      (List.suffix_cons c ds).trans hsuffix, ?_⟩
    rw [Text.octets_cons, List.drop_left]

/-- An octet that is a character on its own is the one that stands at a boundary. -/
theorem boundary_of_ascii {cs : List Char} {b : UInt8} {rest : List UInt8}
    (hafter : Boundary cs (b :: rest)) (hb : b.toNat < 0x80) : Boundary cs rest :=
  (boundary_drop_of_charAfter? hafter (Text.charAfter?_of_lt hb rest)).2

/-! ## Opening ways -/

/-- What the opening of a way at a boundary leads to. -/
def Opening.Bounded (cs : List Char) (after : List UInt8) : Opening → Prop
  | .matched => True
  | .ways next => ∀ w ∈ next, w.KeepsCharacters
  | .taken t => t.Bounded cs after.tail

/-- A way that keeps characters, opened at a boundary, leads to such ways or to a boundary. -/
theorem Opening.bounded_ofWay {cs : List Char} {before after : List UInt8} {w : Way}
    (hafter : Boundary cs after) (hw : w.KeepsCharacters) :
    (Opening.ofWay before after w).Bounded cs after := by
  cases w with
  | nil => trivial
  | cons f k =>
    rcases Way.keepsCharacters_cons.1 hw with ⟨hf, hk⟩
    cases f with
    | join second => simpa [ofWay, Bounded] using hk
    | again a greedy =>
      intro w hmem
      refine prefer_keepsCharacters ?_ hk hmem
      simpa [Frame.keepsCharacters, hk] using hf
    | node a =>
      rw [Frame.keepsCharacters] at hf
      cases a with
      | empty => simpa [ofWay, Bounded] using hk
      | look l =>
        by_cases hholds : l.holds before after
        · simpa [ofWay, hholds, Bounded] using hk
        · simp [ofWay, hholds, Bounded]
      | seq a b =>
        simpa [ofWay, Bounded, Frame.keepsCharacters, Node.keepsCharacters, hk] using hf
      | alt a b =>
        simpa [ofWay, Bounded, Frame.keepsCharacters, Node.keepsCharacters, hk] using hf
      | repeated a min max greedy =>
        intro w hmem
        rw [Node.keepsCharacters] at hf
        exact repeatWays_keepsCharacters hf hk hmem
      | group name a =>
        simpa [ofWay, Bounded, Frame.keepsCharacters, Node.keepsCharacters, hk] using hf
      | char s =>
        rcases hchar : Text.charAfter? after with _ | ⟨c, width⟩
        · simp [ofWay, hchar, Bounded]
        · rcases boundary_drop_of_charAfter? hafter hchar with ⟨hpos, hnext⟩
          by_cases hmem : s.mem c.toNat
          · simp only [ofWay, hchar, hmem, if_true, Bounded]
            refine ⟨?_, hk⟩
            rw [List.drop_tail]
            rwa [Nat.sub_add_cancel hpos]
          · simp [ofWay, hchar, hmem, Bounded]
      | octet s =>
        cases after with
        | nil => simp [ofWay, Bounded]
        | cons b rest =>
          by_cases hmem : s.mem b.toNat
          · simp only [ofWay, hmem, if_true, Bounded]
            have hb := CharSet.mem_lt_of_isAscii hf b.toNat_lt hmem
            exact ⟨boundary_of_ascii hafter hb, hk⟩
          · simp [ofWay, hmem, Bounded]

section

variable {cs : List Char} {before after : List UInt8} {fuel : Nat} {f : Front}

/-- Opening ways at a boundary adds only threads that are due at boundaries. -/
theorem bounded_openWays {pending : List Way} (hafter : Boundary cs after)
    (hpending : ∀ w ∈ pending, w.KeepsCharacters)
    (hf : ∀ t ∈ f.threads, t.Bounded cs after.tail) :
    ∀ t ∈ (openWays before after fuel pending f).threads, t.Bounded cs after.tail := by
  induction fuel generalizing pending f with
  | zero => cases pending <;> exact hf
  | succ fuel ih =>
    cases pending with
    | nil => exact hf
    | cons w pending =>
      rcases List.forall_mem_cons.1 hpending with ⟨hw, hrest⟩
      have hopening : (Opening.ofWay before after w).Bounded cs after :=
        Opening.bounded_ofWay hafter hw
      unfold openWays
      split
      · exact ih hrest hf
      · dsimp only
        split
        · exact hf
        · rename_i next hnext
          rw [hnext] at hopening
          refine ih ?_ hf
          intro v hv
          rcases List.mem_append.1 hv with hv | hv
          · exact hopening v hv
          · exact hrest v hv
        · rename_i t ht
          rw [ht] at hopening
          refine ih hrest ?_
          intro u hu
          rcases List.mem_append.1 hu with hu | hu
          · exact hf u hu
          · rw [List.mem_singleton.1 hu]
            exact hopening

/-- Settling threads that are due at boundaries leaves such threads for the next position. -/
theorem bounded_settle {threads : List Thread}
    (hthreads : ∀ t ∈ threads, t.Bounded cs after)
    (hf : ∀ t ∈ f.threads, t.Bounded cs after.tail) :
    ∀ t ∈ (settle before after fuel threads f).threads, t.Bounded cs after.tail := by
  induction threads generalizing f with
  | nil => exact hf
  | cons t rest ih =>
    rcases List.forall_mem_cons.1 hthreads with ⟨ht, hrest⟩
    unfold settle
    split
    · rename_i owed howed
      refine ih hrest ?_
      intro u hu
      rcases List.mem_append.1 hu with hu | hu
      · exact hf u hu
      · rw [List.mem_singleton.1 hu]
        refine ⟨?_, ht.keeps⟩
        have hboundary := ht.boundary
        rw [howed] at hboundary
        rwa [List.drop_tail]
    · rename_i howed
      have hafter : Boundary cs after := by
        simpa [howed] using ht.boundary
      have hopened : ∀ u ∈ (openWays before after fuel [t.way] f).threads, u.Bounded cs after.tail :=
        bounded_openWays hafter (by simpa using ht.keeps) hf
      dsimp only
      split
      · exact hopened
      · exact ih hrest hopened

/-- A match is found only where a thread is due. -/
theorem boundary_of_matched_settle {threads : List Thread}
    (hthreads : ∀ t ∈ threads, t.Bounded cs after) (hf : f.matched = false)
    (h : (settle before after fuel threads f).matched = true) : Boundary cs after := by
  induction threads generalizing f with
  | nil => simp [settle, hf] at h
  | cons t rest ih =>
    rcases List.forall_mem_cons.1 hthreads with ⟨ht, hrest⟩
    unfold settle at h
    split at h
    · refine ih hrest ?_ h
      exact hf
    · rename_i howed
      simpa [howed] using ht.boundary

end

/-! ## Following threads -/

/-- Threads that are due at boundaries find their matches there. -/
theorem boundary_of_follow {cs : List Char} {fuel : Nat} {before after : List UInt8}
    {threads : List Thread} {length n : Nat} {best : Option Nat}
    (hthreads : ∀ t ∈ threads, t.Bounded cs after)
    (h : follow fuel before after threads length best = some n) :
    best = some n ∨ ∃ m, n = length + m ∧ Boundary cs (after.drop m) := by
  induction after generalizing before threads length best with
  | nil =>
    unfold follow at h
    dsimp only at h
    split at h
    · rename_i hmatched
      have hboundary := boundary_of_matched_settle hthreads rfl hmatched
      exact .inr ⟨0, (Option.some.inj h).symm, hboundary⟩
    · exact .inl h
  | cons b rest ih =>
    unfold follow at h
    dsimp only at h
    have hbest : (if (settle before (b :: rest) fuel threads ⟨[], [], false⟩).matched
        then some length else best) = some n →
        best = some n ∨ ∃ m, n = length + m ∧ Boundary cs ((b :: rest).drop m) := by
      intro hn
      split at hn
      · rename_i hmatched
        have hboundary := boundary_of_matched_settle hthreads rfl hmatched
        exact .inr ⟨0, (Option.some.inj hn).symm, hboundary⟩
      · exact .inl hn
    split at h
    · exact hbest h
    · have hnext : ∀ t ∈ (settle before (b :: rest) fuel threads ⟨[], [], false⟩).threads,
          t.Bounded cs rest :=
        bounded_settle hthreads (by simp)
      rcases ih hnext h with hn | ⟨m, hn, hboundary⟩
      · exact hbest hn
      · exact .inr ⟨m + 1, by omega, hboundary⟩

/-- A match of a pattern that keeps characters, from a boundary on, ends at a boundary. -/
theorem Node.boundary_of_matchLength? {a : Node} {cs : List Char} {before : List UInt8} {n : Nat}
    (ha : a.keepsCharacters = true) (h : a.matchLength? before (Text.octets cs) = some n) :
    Boundary cs ((Text.octets cs).drop n) := by
  have hthreads : ∀ t ∈ [(⟨0, [.node a]⟩ : Thread)], t.Bounded cs (Text.octets cs) := by
    intro t ht
    rw [List.mem_singleton.1 ht]
    refine ⟨boundary_octets cs, ?_⟩
    simpa [Frame.keepsCharacters] using ha
  rcases boundary_of_follow hthreads h with hn | ⟨m, hn, hboundary⟩
  · cases hn
  · rw [Nat.zero_add] at hn
    exact hn ▸ hboundary

/-! ## Written patterns -/

/-- A pattern over characters keeps characters. -/
theorem keepsCharacters_of_ofString {source : String} {a : Node}
    (h : ofString true source = .ok a) : a.keepsCharacters = true := by
  unfold ofString at h
  split at h
  · cases h
  · split at h
    · cases h
    · rename_i hkeeps
      split at h
      · cases h
        simpa using hkeeps
      · cases h

/-- A match of a pattern that keeps characters takes some characters from the front of a text and
leaves the others. -/
theorem Node.exists_take_of_matchLength? {a : Node} {cs : List Char} {before : List UInt8} {n : Nat}
    (ha : a.keepsCharacters = true) (h : a.matchLength? before (Text.octets cs) = some n) :
    ∃ front ds, cs = front ++ ds ∧ (Text.octets cs).take n = Text.octets front ∧
      (Text.octets cs).drop n = Text.octets ds := by
  rcases boundary_of_matchLength? ha h with ⟨ds, ⟨front, rfl⟩, hdrop⟩
  have hsplit : (Text.octets (front ++ ds)).take n ++ (Text.octets (front ++ ds)).drop n =
      Text.octets front ++ Text.octets ds := by
    rw [List.take_append_drop, Text.octets_append]
  refine ⟨front, ds, rfl, ?_, hdrop⟩
  rw [hdrop] at hsplit
  exact List.append_cancel_right hsplit

end Pattern

end Descent
