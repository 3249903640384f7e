import Mathlib.Data.List.DropRight
import Descent.Proofs.Text.Cut
import Descent.Text.LineIndex

/-!
# Positions of offsets

An offset cuts a text in two.  Its line is found by the newlines before the cut, and its column is what
stands between the last of them and the cut, counted in octets or in the characters that start there.

Main results:

- `CutsAt.position_octets` and `CutsAt.position_chars` read the position off the octets before the cut.
- `CutsAt.length_decode`: the column counts the characters of the line that start before the offset, also
  where the offset lies inside a character.
- `LineIndex.position_exact`: positions say how many newlines and what part of the line are before an
  offset, so they grow with it.
-/

namespace Descent.Text

/-! ## The order of positions -/

theorem Position.isLE_order_iff {p q : Position} :
    (p.order q).isLE = true ↔ p.line < q.line ∨ p.line = q.line ∧ p.column ≤ q.column := by
  rw [Position.order, Ordering.isLE_then_iff_and, Nat.isLE_compare, Nat.isLE_compare,
    Nat.compare_eq_lt]
  omega

theorem Position.order_eq_lt_iff {p q : Position} :
    p.order q = .lt ↔ p.line < q.line ∨ p.line = q.line ∧ p.column < q.column := by
  rw [Position.order, Ordering.then_eq_lt, Nat.compare_eq_lt, Nat.compare_eq_lt, Nat.compare_eq_eq]

/-! ## Where lines start -/

variable {bs front line rest : List UInt8} {offset start : Nat}

/-- Whether a line starts behind some octets: there are none, or the last one is a newline. -/
def EndsLine (front : List UInt8) : Prop :=
  front = [] ∨ front.getLast? = some newline

theorem endsLine_of_append {first later : List UInt8} (h : EndsLine (first ++ later)) :
    EndsLine later := by
  rcases h with hnil | hlast
  · exact .inl (List.append_eq_nil_iff.1 hnil).2
  · rcases hlater : later.getLast? with _ | b
    · exact .inl (List.getLast?_eq_none_iff.1 hlater)
    · rw [List.getLast?_append, hlater, Option.some_or] at hlast
      exact .inr (hlater.trans hlast)

theorem startsAfter_append (offset : Nat) (front rest : List UInt8) :
    startsAfter offset (front ++ rest) =
      startsAfter offset front ++ startsAfter (offset + front.length) rest := by
  induction front generalizing offset with
  | nil => rfl
  | cons b front ih =>
    rw [List.cons_append, startsAfter, startsAfter, ih, List.length_cons, Nat.add_right_comm,
      ← Nat.add_assoc]
    split
    · rfl
    · rfl

theorem bounds_of_mem_startsAfter (h : start ∈ startsAfter offset bs) :
    offset < start ∧ start ≤ offset + bs.length := by
  induction bs generalizing offset with
  | nil => cases h
  | cons b bs ih =>
    have hrest : start ∈ startsAfter (offset + 1) bs →
        offset < start ∧ start ≤ offset + (b :: bs).length := by
      intro hmem
      have hbounds := ih hmem
      rw [List.length_cons]
      omega
    unfold startsAfter at h
    split at h
    · rcases List.mem_cons.1 h with rfl | h
      · rw [List.length_cons]
        omega
      · exact hrest h
    · exact hrest h

theorem startsAfter_of_not_mem (offset : Nat) (h : newline ∉ line) : startsAfter offset line = [] := by
  rw [← List.length_eq_zero_iff, LineIndex.length_startsAfter, List.count_eq_zero]
  exact h

/-- What is left of a list when items are dropped from its end, up to a mark, is nothing or ends with the
mark. -/
theorem getLast?_rdropWhile {α : Type} [DecidableEq α] (mark : α) (l : List α) :
    l.rdropWhile (· != mark) = [] ∨ (l.rdropWhile (· != mark)).getLast? = some mark := by
  by_cases hnil : l.rdropWhile (· != mark) = []
  · exact .inl hnil
  · have hlast := List.rdropWhile_last_not (· != mark) l hnil
    simp only [bne_iff_ne, ne_eq, Decidable.not_not] at hlast
    exact .inr (by rw [List.getLast?_eq_some_getLast hnil, hlast])

namespace LineIndex

/-! ## The position of a cut -/

/-- The line of an offset is the number of newlines before it. -/
theorem lineOf_eq_count (h : offset ≤ bs.length) :
    (ofOctets bs).lineOf offset = (bs.take offset).count newline := by
  have hlength : (bs.take offset).length = offset := List.length_take_of_le h
  have hsplit : startsAfter 0 bs =
      startsAfter 0 (bs.take offset) ++ startsAfter offset (bs.drop offset) := by
    have happend := startsAfter_append 0 (bs.take offset) (bs.drop offset)
    rw [List.take_append_drop, Nat.zero_add, hlength] at happend
    exact happend
  have hbefore : ∀ start ∈ startsAfter 0 (bs.take offset), decide (start ≤ offset) = true := by
    intro start hmem
    have hbounds := bounds_of_mem_startsAfter hmem
    exact decide_eq_true (by omega)
  have hbehind : (startsAfter offset (bs.drop offset)).takeWhile (· ≤ offset) = [] := by
    rw [List.takeWhile_eq_nil_iff]
    intro hpos
    have hbounds := bounds_of_mem_startsAfter (List.get_mem _ ⟨0, hpos⟩)
    rw [decide_eq_true_eq]
    omega
  have hstarts : (ofOctets bs).starts.takeWhile (· ≤ offset) = 0 :: startsAfter 0 (bs.take offset) := by
    rw [ofOctets, List.takeWhile_cons_of_pos (by simp), hsplit, List.takeWhile_append_of_pos hbefore,
      hbehind, List.append_nil]
  rw [lineOf, hstarts, List.length_cons, length_startsAfter, Nat.add_sub_cancel]

/-- The line behind some octets starts there. -/
theorem starts_count (h : EndsLine front) (rest : List UInt8) :
    (ofOctets (front ++ rest)).starts[front.count newline]? = some front.length := by
  rcases h with rfl | hlast
  · rfl
  · obtain ⟨before, rfl⟩ := List.getLast?_eq_some_iff.1 hlast
    have hcount : (startsAfter 0 before).length = before.count newline := length_startsAfter 0 before
    unfold ofOctets
    dsimp only
    rw [startsAfter_append, startsAfter_append]
    simp [startsAfter, ← hcount]

theorem startOf_count (h : EndsLine front) (rest : List UInt8) :
    (ofOctets (front ++ rest)).startOf (front.count newline) = front.length := by
  rw [startOf, List.getD_eq_getElem?_getD, starts_count h rest, Option.getD_some]

end LineIndex

/-- What an offset leaves before it: octets behind which a line starts, and the part of this line before
the offset. -/
structure CutsAt (bs : List UInt8) (offset : Nat) (front line : List UInt8) : Prop where
  take_eq : bs.take offset = front ++ line
  endsLine : EndsLine front
  unbroken : newline ∉ line

theorem exists_cutsAt (bs : List UInt8) (offset : Nat) : ∃ front line, CutsAt bs offset front line := by
  refine ⟨(bs.take offset).rdropWhile (· != newline), (bs.take offset).rtakeWhile (· != newline),
    List.rdropWhile_append_rtakeWhile.symm, getLast?_rdropWhile newline _, ?_⟩
  intro hmem
  simpa using List.mem_rtakeWhile_imp hmem

namespace CutsAt

open LineIndex

theorem clamp_eq (h : CutsAt bs offset front line) :
    (ofOctets bs).clamp offset = front.length + line.length := by
  have hlength := congrArg List.length h.take_eq
  rw [List.length_take, List.length_append] at hlength
  exact hlength

theorem append_eq (h : CutsAt bs offset front line) :
    bs = front ++ (line ++ bs.drop offset) := by
  rw [← List.append_assoc, ← h.take_eq, List.take_append_drop]

theorem take_clamp_eq (h : CutsAt bs offset front line) :
    bs.take ((ofOctets bs).clamp offset) = front ++ line := by
  rw [← h.take_eq]
  exact List.take_eq_take_min.symm

theorem lineOf_eq (h : CutsAt bs offset front line) :
    (ofOctets bs).lineOf ((ofOctets bs).clamp offset) = front.count newline := by
  have hle : (ofOctets bs).clamp offset ≤ bs.length := Nat.min_le_right _ _
  rw [lineOf_eq_count hle, h.take_clamp_eq, List.count_append,
    List.count_eq_zero.2 h.unbroken, Nat.add_zero]

theorem startOf_eq (h : CutsAt bs offset front line) :
    (ofOctets bs).startOf (front.count newline) = front.length := by
  rw [h.append_eq]
  exact startOf_count h.endsLine _

theorem slice_eq (h : CutsAt bs offset front line) :
    slice bs front.length ((ofOctets bs).clamp offset) = line := by
  rw [slice, h.take_clamp_eq, List.drop_left]

theorem charsBetween_eq (h : CutsAt bs offset front line) :
    (ofOctets bs).charsBetween front.length ((ofOctets bs).clamp offset) = (decode line).length := by
  rw [charsBetween, show (ofOctets bs).text = bs from rfl, h.slice_eq]

/-- The line and the column of an offset, in octets. -/
theorem position_octets (h : CutsAt bs offset front line) :
    (ofOctets bs).position offset .octets = ⟨front.count newline, line.length⟩ := by
  unfold position
  dsimp only
  rw [h.lineOf_eq, h.startOf_eq, h.clamp_eq, Nat.add_sub_cancel_left]

/-- The line and the column of an offset, in characters. -/
theorem position_chars (h : CutsAt bs offset front line) :
    (ofOctets bs).position offset .chars = ⟨front.count newline, (decode line).length⟩ := by
  unfold position
  dsimp only
  rw [h.lineOf_eq, h.startOf_eq, h.charsBetween_eq]

end CutsAt

/-! ## Columns of characters -/

/-- A line starts with a character. -/
theorem exists_octets_of_endsLine {cs : List Char} (h : octets cs = front ++ rest)
    (hends : EndsLine front) :
    ∃ before after, cs = before ++ after ∧ front = octets before ∧ rest = octets after := by
  induction cs generalizing front with
  | nil =>
    have hnil := List.append_eq_nil_iff.1 h.symm
    exact ⟨[], [], rfl, hnil.1, hnil.2⟩
  | cons c cs ih =>
    rcases hends with rfl | hlast
    · exact ⟨[], c :: cs, rfl, rfl, h.symm⟩
    · rw [octets_cons] at h
      rcases List.append_eq_append_iff.1 h with ⟨later, hfront, hlater⟩ | ⟨broken, hchar, hrest⟩
      · rw [hfront] at hlast
        rcases ih hlater (endsLine_of_append (.inr hlast)) with ⟨before, after, rfl, rfl, hrest⟩
        exact ⟨c :: before, after, rfl, by rw [hfront, octets_cons], hrest⟩
      · -- the newline is a whole character, so nothing of this one is left behind it
        obtain ⟨init, rfl⟩ := List.getLast?_eq_some_iff.1 hlast
        have hmem : newline ∈ String.utf8EncodeChar c := by simp [hchar]
        have hwhole := (eq_singleton_of_mem_utf8EncodeChar hmem (by decide)).1
        rw [hchar] at hwhole
        have hbroken : broken = [] := by
          have hlength := congrArg List.length hwhole
          simp only [List.length_append, List.length_singleton] at hlength
          exact List.length_eq_zero_iff.1 (by omega)
        rw [hbroken, List.append_nil] at hchar
        rw [hbroken, List.nil_append] at hrest
        exact ⟨[c], cs, rfl, by simp [hchar], hrest⟩

/-- The characters that are read of a line before an offset are those that start there. -/
theorem CutsAt.length_decode {cs : List Char} (h : CutsAt (octets cs) offset front line) :
    (decode line).length = (charOffsets 0 cs).countP fun start =>
      decide (front.length ≤ start ∧ start < min offset (octets cs).length) := by
  have hclamp : min offset (octets cs).length = front.length + line.length := h.clamp_eq
  rcases exists_octets_of_endsLine h.append_eq h.endsLine with ⟨before, after, hcs, hbefore, hafter⟩
  have hline : line = (octets after).take line.length := by
    rw [← hafter, List.take_left]
  have hearlier : (charOffsets 0 before).countP (fun start =>
      decide (front.length ≤ start ∧ start < front.length + line.length)) = 0 := by
    rw [List.countP_eq_zero]
    intro start hstart
    have hlt := lt_of_mem_charOffsets hstart
    rw [Nat.zero_add, ← hbefore] at hlt
    simp only [decide_eq_true_eq]
    omega
  rw [hclamp, hcs, charOffsets_append, List.countP_append, hearlier, Nat.zero_add, Nat.zero_add,
    ← hbefore]
  conv_lhs => rw [hline, length_decode_take front.length]
  refine List.countP_congr fun start hstart => ?_
  have hle := le_of_mem_charOffsets hstart
  simp only [decide_eq_true_eq]
  omega

namespace LineIndex

/-! ## Positions of a text -/

/-- Where the line of an offset starts: behind the last newline before it, or with the text. -/
structure IsLineStart (bs : List UInt8) (offset start : Nat) : Prop where
  le : start ≤ offset
  newline_before : start = 0 ∨ bs[start - 1]? = some newline
  unbroken : newline ∉ slice bs start offset

theorem isLineStart_of_cutsAt (h : CutsAt bs offset front line) :
    IsLineStart bs (min offset bs.length) front.length := by
  have hclamp : min offset bs.length = front.length + line.length := h.clamp_eq
  refine ⟨by omega, ?_, ?_⟩
  · rcases h.endsLine with rfl | hlast
    · exact .inl rfl
    · obtain ⟨init, rfl⟩ := List.getLast?_eq_some_iff.1 hlast
      refine .inr ?_
      rw [h.append_eq]
      simp
  · have hslice : slice bs front.length (min offset bs.length) = line := h.slice_eq
    rw [hslice]
    exact h.unbroken

/-- The line of a position is the number of newlines before the offset, and the column is what stands
between the start of the line and the offset: so many octets, or the characters that start there. -/
theorem position_eq (text : String) (offset : Nat) :
    ∃ start, IsLineStart (octets text.toList) (min offset (octets text.toList).length) start ∧
      (ofString text).startOf (((octets text.toList).take offset).count newline) = start ∧
      (ofString text).position offset .octets =
        ⟨((octets text.toList).take offset).count newline,
          min offset (octets text.toList).length - start⟩ ∧
      (ofString text).position offset .chars =
        ⟨((octets text.toList).take offset).count newline,
          (charOffsets 0 text.toList).countP fun k =>
            decide (start ≤ k ∧ k < min offset (octets text.toList).length)⟩ := by
  rcases exists_cutsAt (octets text.toList) offset with ⟨front, line, hcut⟩
  have hclamp : min offset (octets text.toList).length = front.length + line.length := hcut.clamp_eq
  have hcount : ((octets text.toList).take offset).count newline = front.count newline := by
    rw [hcut.take_eq, List.count_append, List.count_eq_zero.2 hcut.unbroken, Nat.add_zero]
  have hlength := hcut.length_decode
  refine ⟨front.length, isLineStart_of_cutsAt hcut, ?_, ?_, ?_⟩
  · rw [hcount]
    exact hcut.startOf_eq
  · rw [hcount, hclamp, Nat.add_sub_cancel_left]
    exact hcut.position_octets
  · rw [hcount, ← hlength]
    exact hcut.position_chars

/-- A later offset is in a later line or in the same one. -/
private theorem line_mono (text : String) {first later : Nat} (h : first ≤ later) :
    ((octets text.toList).take first).count newline ≤
      ((octets text.toList).take later).count newline :=
  (List.take_prefix_take_left h).sublist.count_le newline

/-- Positions grow with the offset. -/
theorem isLE_position (text : String) {first later : Nat} (h : first ≤ later) (unit : ColumnUnit) :
    (((ofString text).position first unit).order ((ofString text).position later unit)).isLE = true := by
  rcases position_eq text first with ⟨start, -, hstart, hoctets, hchars⟩
  rcases position_eq text later with ⟨start', -, hstart', hoctets', hchars'⟩
  rw [Position.isLE_order_iff]
  rcases Nat.lt_or_eq_of_le (line_mono text h) with hlt | hline
  · cases unit with
    | octets => rw [hoctets, hoctets']; exact .inl hlt
    | chars => rw [hchars, hchars']; exact .inl hlt
  · obtain rfl : start = start' := by rw [← hstart, ← hstart', hline]
    cases unit with
    | octets =>
      rw [hoctets, hoctets']
      refine .inr ⟨hline, ?_⟩
      dsimp only
      omega
    | chars =>
      rw [hchars, hchars']
      refine .inr ⟨hline, List.countP_mono_left fun k _ hk => ?_⟩
      simp only [decide_eq_true_eq] at hk ⊢
      omega

/-- Within the text, positions in octets grow strictly. -/
theorem position_octets_lt (text : String) {first later : Nat} (h : first < later)
    (hlater : later ≤ (octets text.toList).length) :
    ((ofString text).position first .octets).order ((ofString text).position later .octets) = .lt := by
  rcases position_eq text first with ⟨start, hbefore, hstart, hoctets, -⟩
  rcases position_eq text later with ⟨start', -, hstart', hoctets', -⟩
  have hle := hbefore.le
  rw [Position.order_eq_lt_iff, hoctets, hoctets']
  rcases Nat.lt_or_eq_of_le (line_mono text (Nat.le_of_lt h)) with hlt | hline
  · exact .inl hlt
  · obtain rfl : start = start' := by rw [← hstart, ← hstart', hline]
    refine .inr ⟨hline, ?_⟩
    dsimp only
    omega

/-- There are no more characters before an offset in its line than octets. -/
theorem position_chars_le (text : String) (offset : Nat) :
    (((ofString text).position offset .chars).order
      ((ofString text).position offset .octets)).isLE = true := by
  rcases exists_cutsAt (octets text.toList) offset with ⟨front, line, hcut⟩
  have hoctets : (ofString text).position offset .octets = _ := hcut.position_octets
  have hchars : (ofString text).position offset .chars = _ := hcut.position_chars
  rw [hoctets, hchars, Position.isLE_order_iff]
  exact .inr ⟨rfl, length_decode_le line⟩

/-- The position of an offset, clamped to the text, is exact.  Its line is the number of newlines before
the offset; the column in octets, added to the start of the line, is the offset again; the column in
characters is the number of characters of the line whose first octet is before the offset, wherever in a
character the offset lies.  So positions grow with the offset, those in octets strictly within the text,
and a position in characters is never beyond the one in octets. -/
theorem position_exact (text : String) :
    (∀ offset, ∃ start,
      IsLineStart (octets text.toList) (min offset (octets text.toList).length) start ∧
      (∀ unit, ((ofString text).position offset unit).line =
        ((octets text.toList).take offset).count newline) ∧
      (ofString text).startOf ((ofString text).position offset .octets).line = start ∧
      start + ((ofString text).position offset .octets).column =
        min offset (octets text.toList).length ∧
      ((ofString text).position offset .chars).column = (charOffsets 0 text.toList).countP fun k =>
        decide (start ≤ k ∧ k < min offset (octets text.toList).length)) ∧
    (∀ first later unit, first ≤ later →
      (((ofString text).position first unit).order ((ofString text).position later unit)).isLE = true) ∧
    (∀ first later, first < later → later ≤ (octets text.toList).length →
      ((ofString text).position first .octets).order
        ((ofString text).position later .octets) = .lt) ∧
    ∀ offset, (((ofString text).position offset .chars).order
      ((ofString text).position offset .octets)).isLE = true := by
  refine ⟨fun offset => ?_, fun first later unit h => isLE_position text h unit,
    fun first later h hlater => position_octets_lt text h hlater, position_chars_le text⟩
  rcases position_eq text offset with ⟨start, hbefore, hstart, hoctets, hchars⟩
  have hle := hbefore.le
  refine ⟨start, hbefore, ?_, ?_, ?_, ?_⟩
  · rintro (_ | _)
    · rw [hchars]
    · rw [hoctets]
  · rw [hoctets]
    exact hstart
  · rw [hoctets]
    dsimp only
    omega
  · rw [hchars]

/-- Behind the newline the offset 7 lies inside a character, which starts before it: the columns differ. -/
theorem position_exact_inside :
    ∃ text first later, first < later ∧ later ≤ (octets (String.toList text)).length ∧
      (ofString text).position later .chars = ⟨1, 2⟩ ∧
      (ofString text).position later .octets = ⟨1, 3⟩ ∧
      (((ofString text).position first .chars).order
        ((ofString text).position later .chars)).isLE = true ∧
      ((ofString text).position first .octets).order
        ((ofString text).position later .octets) = .lt := by
  have hexact := position_exact "…\na…"
  exact ⟨"…\na…", 4, 7, by decide, by decide, by decide +kernel, by decide +kernel,
    hexact.2.1 4 7 .chars (by decide), hexact.2.2.1 4 7 (by decide) (by decide)⟩

end LineIndex

end Descent.Text
