import Descent.Proofs.Text.Utf8

/-!
# Texts cut inside a character

A text may be cut after any of its octets.  If the cut falls inside a character, what is left of it
is one broken piece, however many octets it has.  So the characters that are read before a cut are as
many as start before it.

Main results:

- `decode_take_utf8EncodeChar`: the first octets of a character, but not all, read as one replacement.
- `charOffsets` lists the offsets at which the characters of a text start.
- `length_decode_take`: before a cut as many characters are read as start there.
- `eq_singleton_of_mem_utf8EncodeChar`: an octet below `0x80` is a whole character, so that
  `mem_of_mem_octets` and `getLast?_octets_iff` find such characters by their octets.
-/

namespace Descent.Text

variable {b : UInt8} {bs rest : List UInt8} {c : Char}

/-! ## Characters cut short -/

/-- A character that is read has all the octets that its first one owes. -/
private theorem width_of_readOwed {payload low high width owed : Nat}
    (h : (readOwed payload low high width owed rest).char? = some c) :
    (readOwed payload low high width owed rest).width = width + owed := by
  induction owed generalizing payload low high width rest with
  | zero => rfl
  | succ owed ih =>
    rcases rest with _ | ⟨b, rest⟩
    · cases h
    · rw [readOwed] at h ⊢
      split at h
      · rename_i hrange
        rw [if_pos hrange, ih h, Nat.add_right_comm, Nat.add_assoc]
      · cases h

/-- With fewer octets than it owes, a character breaks off after the last of them. -/
private theorem readOwed_take {payload low high width owed n : Nat}
    (h : (readOwed payload low high width owed rest).char? = some c) (hn : n < owed) :
    readOwed payload low high width owed (rest.take n) = ⟨none, width + n⟩ := by
  induction owed generalizing payload low high width rest n with
  | zero => exact absurd hn (Nat.not_lt_zero n)
  | succ owed ih =>
    rcases rest with _ | ⟨b, rest⟩
    · cases h
    · rw [readOwed] at h
      split at h
      · rename_i hrange
        rcases n with _ | n
        · rfl
        · rw [List.take_succ_cons, readOwed, if_pos hrange, ih h (Nat.lt_of_succ_lt_succ hn),
            Nat.add_right_comm, Nat.add_assoc]
      · cases h

/-- A character that breaks off is one broken piece of all the octets that are left of it. -/
theorem firstPiece_take {n width : Nat} (h : firstPiece b rest = ⟨some c, width + 1⟩)
    (hn : n < width) : firstPiece b (rest.take n) = ⟨none, n + 1⟩ := by
  unfold firstPiece at h ⊢
  split at h
  · cases h
  · rename_i l hl
    have hchar := congrArg Piece.char? h
    have hwidth := width_of_readOwed hchar
    rw [h] at hwidth
    dsimp only at hwidth
    rw [readOwed_take hchar (by omega), Nat.add_comm]

/-- The first octets of a character, but not all of them, read as one replacement character. -/
theorem decode_take_utf8EncodeChar {n : Nat} (hpos : 0 < n) (hlt : n < c.utf8Size) :
    decode ((String.utf8EncodeChar c).take n) = [replacement] := by
  rcases firstPiece_utf8EncodeChar c [] with ⟨b, tail, hb, hpiece⟩
  have hlength := congrArg List.length hb
  rw [String.length_utf8EncodeChar, List.length_cons] at hlength
  rw [List.append_nil] at hpiece
  obtain ⟨n, rfl⟩ : ∃ k, n = k + 1 := ⟨n - 1, by omega⟩
  rw [hb, List.take_succ_cons, decode_cons, firstPiece_take hpiece (by omega)]
  simp

/-! ## Where characters start -/

/-- The offsets of the first octets of some characters, the first of them at `offset`. -/
def charOffsets (offset : Nat) : List Char → List Nat
  | [] => []
  | c :: cs => offset :: charOffsets (offset + c.utf8Size) cs

theorem length_octets_cons (c : Char) (cs : List Char) :
    (octets (c :: cs)).length = c.utf8Size + (octets cs).length := by
  simp

theorem le_of_mem_charOffsets {offset start : Nat} {cs : List Char} (h : start ∈ charOffsets offset cs) :
    offset ≤ start := by
  induction cs generalizing offset with
  | nil => cases h
  | cons c cs ih =>
    rcases List.mem_cons.1 h with rfl | h
    · exact Nat.le_refl _
    · exact Nat.le_trans (Nat.le_add_right _ _) (ih h)

theorem lt_of_mem_charOffsets {offset start : Nat} {cs : List Char} (h : start ∈ charOffsets offset cs) :
    start < offset + (octets cs).length := by
  induction cs generalizing offset with
  | nil => cases h
  | cons c cs ih =>
    have hpos := Char.utf8Size_pos c
    rw [length_octets_cons]
    rcases List.mem_cons.1 h with rfl | h
    · omega
    · have hlt := ih h
      omega

theorem charOffsets_append (offset : Nat) (cs ds : List Char) :
    charOffsets offset (cs ++ ds) =
      charOffsets offset cs ++ charOffsets (offset + (octets cs).length) ds := by
  induction cs generalizing offset with
  | nil => rfl
  | cons c cs ih =>
    rw [List.cons_append, charOffsets, charOffsets, ih, length_octets_cons, Nat.add_assoc,
      List.cons_append]

/-- Before a cut as many characters are read as start there. -/
theorem length_decode_take (offset n : Nat) (cs : List Char) :
    (decode ((octets cs).take n)).length =
      (charOffsets offset cs).countP fun start => decide (start < offset + n) := by
  induction cs generalizing offset n with
  | nil => simp [charOffsets]
  | cons c cs ih =>
    rw [octets_cons, charOffsets, List.take_append, String.length_utf8EncodeChar]
    rcases Nat.lt_or_ge n c.utf8Size with hlt | hge
    · -- the cut is not behind the first character, so no other one starts before it
      have hlater : (charOffsets (offset + c.utf8Size) cs).countP
          (fun start => decide (start < offset + n)) = 0 := by
        rw [List.countP_eq_zero]
        intro start hstart
        have hle := le_of_mem_charOffsets hstart
        simp only [decide_eq_true_eq]
        omega
      rw [Nat.sub_eq_zero_of_le (Nat.le_of_lt hlt), List.take_zero, List.append_nil, List.countP_cons,
        hlater]
      rcases Nat.eq_zero_or_pos n with rfl | hpos
      · simp
      · rw [decode_take_utf8EncodeChar hpos hlt]
        simp [hpos]
    · have hpos := Char.utf8Size_pos c
      have hwhole := decode_octets_append [c] ((octets cs).take (n - c.utf8Size))
      rw [octets_cons, octets_nil, List.append_nil] at hwhole
      rw [List.take_of_length_le (by rw [String.length_utf8EncodeChar]; exact hge), hwhole,
        List.length_append, List.length_singleton, ih (offset + c.utf8Size), List.countP_cons,
        show offset + c.utf8Size + (n - c.utf8Size) = offset + n by omega,
        if_pos (decide_eq_true (by omega)), Nat.add_comm]

/-- No more characters are read than there are octets. -/
theorem length_decode_le (bs : List UInt8) : (decode bs).length ≤ bs.length := by
  match bs with
  | [] => exact Nat.le_refl 0
  | b :: rest =>
    have hrest := length_decode_le (rest.drop ((firstPiece b rest).width - 1))
    rw [List.length_drop] at hrest
    rw [decode_cons, List.length_cons, List.length_cons]
    omega
termination_by bs.length

/-! ## Characters of one octet in a text -/

/-- The octets of a character of several octets are none of those of one octet. -/
private theorem le_toNat_of_mem (hb : b ∈ String.utf8EncodeChar c) (hc : 0x80 ≤ c.toNat) :
    0x80 ≤ b.toNat := by
  have hvalid : c.toNat < 0xD800 ∨ 0xDFFF < c.toNat ∧ c.toNat < 0x110000 := c.valid
  have hmarked : ∀ n, 0x80 ≤ n → n < 0x100 → b = UInt8.ofNat n → 0x80 ≤ b.toNat := by
    intro n hle hlt hn
    rw [hn, UInt8.toNat_ofNat_of_lt' hlt]
    exact hle
  unfold String.utf8EncodeChar at hb
  rw [show c.val.toNat = c.toNat from rfl] at hb
  dsimp only at hb
  rw [if_neg (by omega)] at hb
  split at hb
  · simp only [List.mem_cons, List.not_mem_nil, or_false] at hb
    rcases hb with hb | hb
    all_goals exact hmarked _ (by omega) (by omega) hb
  · split at hb
    · simp only [List.mem_cons, List.not_mem_nil, or_false] at hb
      rcases hb with hb | hb | hb
      all_goals exact hmarked _ (by omega) (by omega) hb
    · simp only [List.mem_cons, List.not_mem_nil, or_false] at hb
      rcases hb with hb | hb | hb | hb
      all_goals exact hmarked _ (by omega) (by omega) hb

theorem utf8EncodeChar_of_lt (hc : c.toNat < 0x80) :
    String.utf8EncodeChar c = [UInt8.ofNat c.toNat] := by
  unfold String.utf8EncodeChar
  rw [show c.val.toNat = c.toNat from rfl]
  dsimp only
  rw [if_pos (by omega)]

/-- An octet below `0x80` is a whole character. -/
theorem eq_singleton_of_mem_utf8EncodeChar (hb : b ∈ String.utf8EncodeChar c) (hlow : b.toNat < 0x80) :
    String.utf8EncodeChar c = [b] ∧ c = Char.ofNat b.toNat := by
  have hc : c.toNat < 0x80 := Nat.lt_of_not_le fun hc => Nat.not_le.2 hlow (le_toNat_of_mem hb hc)
  rw [utf8EncodeChar_of_lt hc] at hb ⊢
  rw [List.mem_singleton.1 hb, UInt8.toNat_ofNat_of_lt' (show c.toNat < 0x100 by omega),
    Char.ofNat_toNat]
  exact ⟨rfl, rfl⟩

theorem mem_of_mem_octets {cs : List Char} (hb : b ∈ octets cs) (hlow : b.toNat < 0x80) :
    Char.ofNat b.toNat ∈ cs := by
  rcases List.mem_flatMap.1 hb with ⟨c, hc, hmem⟩
  rw [← (eq_singleton_of_mem_utf8EncodeChar hmem hlow).2]
  exact hc

/-- A text ends with an octet below `0x80` just if it ends with that character. -/
theorem getLast?_octets_iff {cs : List Char} (hlow : b.toNat < 0x80) :
    (octets cs).getLast? = some b ↔ cs.getLast? = some (Char.ofNat b.toNat) := by
  rcases List.eq_nil_or_concat cs with rfl | ⟨init, c, rfl⟩
  · simp
  · have hlast : (octets (init.concat c)).getLast? = (String.utf8EncodeChar c).getLast? := by
      have hpos := Char.utf8Size_pos c
      rcases hchar : (String.utf8EncodeChar c).getLast? with _ | d
      · rw [← String.length_utf8EncodeChar, List.getLast?_eq_none_iff.1 hchar] at hpos
        exact absurd hpos (Nat.lt_irrefl 0)
      · rw [List.concat_eq_append, octets_append, octets_cons, octets_nil, List.append_nil,
          List.getLast?_append, hchar, Option.some_or]
    rw [hlast, List.concat_eq_append, List.getLast?_append, List.getLast?_singleton, Option.some_or,
      Option.some.injEq]
    constructor
    · intro hchar
      exact (eq_singleton_of_mem_utf8EncodeChar (List.mem_of_getLast? hchar) hlow).2
    · rintro rfl
      have hnat : (Char.ofNat b.toNat).toNat = b.toNat := toNat_of_isValidChar (.inl (by omega))
      rw [utf8EncodeChar_of_lt (by omega), hnat, UInt8.ofNat_toNat]
      rfl

end Descent.Text
