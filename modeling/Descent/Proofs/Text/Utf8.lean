import Mathlib.Algebra.Group.Nat.Defs
import Descent.Text.Utf8

/-!
# Reading characters back

The first octet of a character of more than one octet promises a greater character than any of one
octet.  So a character of one octet at the front of some octets stays there however many of them
are cut off behind it.  A character that is written as octets is read back from just these octets.

Main results:

- `toNat_of_firstPiece`: a character of one octet is read from that octet alone.
- `head?_decode_take`: it is also the first character of any longer front.
- `charAfter?_octets`: the character in front of a text is read from the octets it is written as.
- `decode_octets`: a text is read back from its octets.
-/

namespace Descent.Text

/-! ## Characters of one octet -/

theorem toNat_of_isValidChar {n : Nat} (h : n.isValidChar) : (Char.ofNat n).toNat = n := by
  have haux : Char.ofNat n = Char.ofNatAux n h := dif_pos h
  rw [haux]
  rfl

/-- Continuation octets that are owed add less than one more of a payload. -/
private theorem bounds_of_readOwed {payload width owed : Nat} {rest : List UInt8} {c : Char}
    (h : (readOwed payload 0x80 0xBF width owed rest).char? = some c) :
    ∃ v, c = Char.ofNat v ∧ payload * 0x40 ^ owed ≤ v ∧ v < (payload + 1) * 0x40 ^ owed := by
  induction owed generalizing payload width rest with
  | zero => exact ⟨payload, (Option.some.inj h).symm, by omega, by omega⟩
  | succ owed ih =>
    rcases rest with _ | ⟨b, rest⟩
    · cases h
    · rw [readOwed] at h
      split at h
      · rename_i hrange
        simp only [Bool.and_eq_true, decide_eq_true_eq] at hrange
        rcases ih h with ⟨v, hv, hle, hlt⟩
        have hlower := Nat.mul_le_mul_right (0x40 ^ owed)
          (by omega : payload * 0x40 ≤ payload * 0x40 + (b.toNat - 0x80))
        have hupper := Nat.mul_le_mul_right (0x40 ^ owed)
          (by omega : payload * 0x40 + (b.toNat - 0x80) + 1 ≤ (payload + 1) * 0x40)
        rw [Nat.mul_assoc, ← Nat.pow_succ'] at hlower hupper
        exact ⟨v, hv, Nat.le_trans hlower hle, Nat.lt_of_lt_of_le hlt hupper⟩
      · cases h

/-- The value of a character of several octets is among those that its first octet promises. -/
private theorem exists_of_readOwed {payload low high width owed : Nat} {rest : List UInt8} {c : Char}
    (h : (readOwed payload low high width (owed + 1) rest).char? = some c) :
    ∃ n v, low ≤ n ∧ n ≤ high ∧ c = Char.ofNat v ∧ (payload * 0x40 + (n - 0x80)) * 0x40 ^ owed ≤ v ∧
      v < (payload * 0x40 + (n - 0x80) + 1) * 0x40 ^ owed := by
  rcases rest with _ | ⟨b, rest⟩
  · cases h
  · rw [readOwed] at h
    split at h
    · rename_i hrange
      simp only [Bool.and_eq_true, decide_eq_true_eq] at hrange
      rcases bounds_of_readOwed h with ⟨v, hv⟩
      exact ⟨b.toNat, v, hrange.1, hrange.2, hv⟩
    · cases h

/-- A character of several octets is none of those of one octet. -/
theorem le_toNat_of_firstPiece {b : UInt8} {rest : List UInt8} {c : Char} (hb : 0x80 ≤ b.toNat)
    (h : (firstPiece b rest).char? = some c) : 0x80 ≤ c.toNat := by
  have hvalue : ∃ v, c = Char.ofNat v ∧ 0x80 ≤ v ∧ v.isValidChar := by
    unfold firstPiece at h
    split at h
    · cases h
    · rename_i l hl
      unfold Lead.ofOctet? at hl
      dsimp only at hl
      rw [if_neg (Nat.not_lt.2 hb)] at hl
      repeat' split at hl
      all_goals simp only [Option.some.injEq, reduceCtorEq] at hl
      all_goals
        subst hl
        rcases exists_of_readOwed h with ⟨n, v, hlow, hhigh, hv, hle, hlt⟩
        refine ⟨v, hv, ?_⟩
        simp only [beq_iff_eq] at *
        unfold Nat.isValidChar
        omega
  rcases hvalue with ⟨v, rfl, hle, hvalid⟩
  rwa [toNat_of_isValidChar hvalid]

theorem firstPiece_of_lt {b : UInt8} (h : b.toNat < 0x80) (rest : List UInt8) :
    firstPiece b rest = ⟨some (Char.ofNat b.toNat), 1⟩ := by
  unfold firstPiece Lead.ofOctet?
  dsimp only
  rw [if_pos h]
  rfl

theorem charAfter?_of_lt {b : UInt8} (h : b.toNat < 0x80) (rest : List UInt8) :
    charAfter? (b :: rest) = some (Char.ofNat b.toNat, 1) := by
  rw [charAfter?, firstPiece_of_lt h]
  rfl

/-- A character of one octet is read from that octet alone. -/
theorem toNat_of_firstPiece {b : UInt8} {rest : List UInt8} {c : Char} (hlow : c.toNat < 0x80)
    (h : (firstPiece b rest).char? = some c) : b.toNat = c.toNat := by
  by_cases hb : b.toNat < 0x80
  · rw [firstPiece_of_lt hb] at h
    rw [← Option.some.inj h, toNat_of_isValidChar (.inl (by omega))]
  · exact absurd (le_toNat_of_firstPiece (Nat.le_of_not_lt hb) h) (Nat.not_le.2 hlow)

/-- A character of one octet in front of some octets is the first character of every front. -/
theorem head?_decode_take {bs : List UInt8} {c : Char} {width : Nat} (hlow : c.toNat < 0x80)
    (h : charAfter? bs = some (c, width)) (n : Nat) :
    (decode (bs.take (n + 1))).head? = some c := by
  cases bs with
  | nil => cases h
  | cons b rest =>
    rcases Option.map_eq_some_iff.1 h with ⟨c', hchar, hpair⟩
    cases hpair
    have hb := toNat_of_firstPiece hlow hchar
    rw [List.take_succ_cons, head?_decode_cons, firstPiece_of_lt (by omega), hb,
      Char.ofNat_toNat]
    rfl

/-! ## Characters of several octets -/

theorem readOwed_cons {payload low high width owed : Nat} {b : UInt8} {rest : List UInt8}
    (hlow : low ≤ b.toNat) (hhigh : b.toNat ≤ high) :
    readOwed payload low high width (owed + 1) (b :: rest) =
      readOwed (payload * 0x40 + (b.toNat - 0x80)) 0x80 0xBF (width + 1) owed rest := by
  rw [readOwed, if_pos (by simp [hlow, hhigh])]

/-- Whether an octet is one of those that continue a character. -/
private def Continues (b : UInt8) : Prop :=
  0x80 ≤ b.toNat ∧ b.toNat ≤ 0xBF

variable {b b₁ b₂ b₃ : UInt8} {rest : List UInt8}

private theorem firstPiece_two (hlow : 0xC2 ≤ b.toNat) (hhigh : b.toNat < 0xE0)
    (h₁ : Continues b₁) :
    firstPiece b (b₁ :: rest) =
      ⟨some (Char.ofNat ((b.toNat - 0xC0) * 0x40 + (b₁.toNat - 0x80))), 2⟩ := by
  have hlead : Lead.ofOctet? b = some ⟨b.toNat - 0xC0, 1, 0x80, 0xBF⟩ := by
    unfold Lead.ofOctet?
    dsimp only
    rw [if_neg (by omega), if_neg (by omega), if_pos hhigh]
  rw [firstPiece, hlead]
  dsimp only
  rw [readOwed_cons h₁.1 h₁.2, readOwed]

/-- The second octet rules out what two octets could hold, and surrogates. -/
private theorem firstPiece_three (hlow : 0xE0 ≤ b.toNat) (hhigh : b.toNat < 0xF0)
    (h₁ : Continues b₁) (h₂ : Continues b₂) (hshort : b.toNat = 0xE0 → 0xA0 ≤ b₁.toNat)
    (hsurrogate : b.toNat = 0xED → b₁.toNat ≤ 0x9F) :
    firstPiece b (b₁ :: b₂ :: rest) =
      ⟨some (Char.ofNat (((b.toNat - 0xE0) * 0x40 + (b₁.toNat - 0x80)) * 0x40 +
        (b₂.toNat - 0x80))), 3⟩ := by
  obtain ⟨low, high, hlead, hlow₁, hhigh₁⟩ : ∃ low high,
      Lead.ofOctet? b = some ⟨b.toNat - 0xE0, 2, low, high⟩ ∧ low ≤ b₁.toNat ∧
        b₁.toNat ≤ high := by
    unfold Lead.ofOctet?
    dsimp only
    rw [if_neg (by omega), if_neg (by omega), if_neg (by omega)]
    by_cases hE0 : b.toNat = 0xE0
    · exact ⟨0xA0, 0xBF, by simp [hE0], hshort hE0, h₁.2⟩
    · by_cases hED : b.toNat = 0xED
      · exact ⟨0x80, 0x9F, by simp [hED], h₁.1, hsurrogate hED⟩
      · exact ⟨0x80, 0xBF, by simp [hE0, hED, hhigh], h₁.1, h₁.2⟩
  rw [firstPiece, hlead]
  dsimp only
  rw [readOwed_cons hlow₁ hhigh₁, readOwed_cons h₂.1 h₂.2, readOwed]

/-- The second octet rules out what three octets could hold, and what no character is. -/
private theorem firstPiece_four (hlow : 0xF0 ≤ b.toNat) (hhigh : b.toNat ≤ 0xF4)
    (h₁ : Continues b₁) (h₂ : Continues b₂) (h₃ : Continues b₃)
    (hshort : b.toNat = 0xF0 → 0x90 ≤ b₁.toNat) (hlast : b.toNat = 0xF4 → b₁.toNat ≤ 0x8F) :
    firstPiece b (b₁ :: b₂ :: b₃ :: rest) =
      ⟨some (Char.ofNat ((((b.toNat - 0xF0) * 0x40 + (b₁.toNat - 0x80)) * 0x40 +
        (b₂.toNat - 0x80)) * 0x40 + (b₃.toNat - 0x80))), 4⟩ := by
  obtain ⟨low, high, hlead, hlow₁, hhigh₁⟩ : ∃ low high,
      Lead.ofOctet? b = some ⟨b.toNat - 0xF0, 3, low, high⟩ ∧ low ≤ b₁.toNat ∧
        b₁.toNat ≤ high := by
    unfold Lead.ofOctet?
    dsimp only
    rw [if_neg (by omega), if_neg (by omega), if_neg (by omega), if_neg (by simp; omega),
      if_neg (by simp; omega), if_neg (by omega)]
    by_cases hF0 : b.toNat = 0xF0
    · exact ⟨0x90, 0xBF, by simp [hF0], hshort hF0, h₁.2⟩
    · by_cases hF4 : b.toNat = 0xF4
      · exact ⟨0x80, 0x8F, by simp [hF4], h₁.1, hlast hF4⟩
      · exact ⟨0x80, 0xBF, by simp [hF0]; omega, h₁.1, h₁.2⟩
  rw [firstPiece, hlead]
  dsimp only
  rw [readOwed_cons hlow₁ hhigh₁, readOwed_cons h₂.1 h₂.2, readOwed_cons h₃.1 h₃.2, readOwed]

private theorem toNat_ofNat {n : Nat} (h : n < 256) : (UInt8.ofNat n).toNat = n :=
  UInt8.toNat_ofNat_of_lt' h

private theorem continues_ofNat (n : Nat) : Continues (UInt8.ofNat (n % 64 + 128)) := by
  rw [Continues, toNat_ofNat (by omega)]
  omega

/-- A character is read from the octets that it is written as. -/
theorem firstPiece_utf8EncodeChar (c : Char) (rest : List UInt8) :
    ∃ b tail, String.utf8EncodeChar c = b :: tail ∧
      firstPiece b (tail ++ rest) = ⟨some c, tail.length + 1⟩ := by
  have hc : Char.ofNat c.toNat = c := Char.ofNat_toNat c
  have hvalid : c.toNat < 0xD800 ∨ 0xDFFF < c.toNat ∧ c.toNat < 0x110000 := c.valid
  unfold String.utf8EncodeChar
  rw [show c.val.toNat = c.toNat from rfl]
  generalize c.toNat = n at hc hvalid
  dsimp only
  -- the numbers of the octets that continue the character, where there are that many
  have hlast : (UInt8.ofNat (n % 64 + 128)).toNat = n % 64 + 128 := toNat_ofNat (by omega)
  have hthird : (UInt8.ofNat (n / 64 % 64 + 128)).toNat = n / 64 % 64 + 128 :=
    toNat_ofNat (by omega)
  have hsecond : (UInt8.ofNat (n / 4096 % 64 + 128)).toNat = n / 4096 % 64 + 128 :=
    toNat_ofNat (by omega)
  by_cases hone : n ≤ 127
  · have hb : (UInt8.ofNat n).toNat = n := toNat_ofNat (by omega)
    rw [if_pos hone]
    refine ⟨_, _, rfl, ?_⟩
    rw [firstPiece_of_lt (by omega), hb, hc]
    rfl
  rw [if_neg hone]
  by_cases htwo : n ≤ 2047
  · have hb : (UInt8.ofNat (n / 64 % 32 + 192)).toNat = n / 64 % 32 + 192 := toNat_ofNat (by omega)
    rw [if_pos htwo]
    refine ⟨_, _, rfl, ?_⟩
    rw [List.cons_append, firstPiece_two (by omega) (by omega) (continues_ofNat n), hb, hlast]
    have hpayload : (n / 64 % 32 + 192 - 192) * 64 + (n % 64 + 128 - 128) = n := by omega
    rw [hpayload, hc]
    rfl
  rw [if_neg htwo]
  by_cases hthree : n ≤ 65535
  · have hb : (UInt8.ofNat (n / 4096 % 16 + 224)).toNat = n / 4096 % 16 + 224 :=
      toNat_ofNat (by omega)
    rw [if_pos hthree]
    refine ⟨_, _, rfl, ?_⟩
    rw [List.cons_append, List.cons_append, firstPiece_three (by omega) (by omega)
      (continues_ofNat _) (continues_ofNat n) (by omega) (by omega), hb, hthird, hlast]
    have hpayload : ((n / 4096 % 16 + 224 - 224) * 64 + (n / 64 % 64 + 128 - 128)) * 64 +
        (n % 64 + 128 - 128) = n := by omega
    rw [hpayload, hc]
    rfl
  · have hb : (UInt8.ofNat (n / 262144 % 8 + 240)).toNat = n / 262144 % 8 + 240 :=
      toNat_ofNat (by omega)
    rw [if_neg hthree]
    refine ⟨_, _, rfl, ?_⟩
    rw [List.cons_append, List.cons_append, List.cons_append, firstPiece_four (by omega) (by omega)
      (continues_ofNat _) (continues_ofNat _) (continues_ofNat n) (by omega) (by omega), hb,
      hsecond, hthird, hlast]
    have hpayload : (((n / 262144 % 8 + 240 - 240) * 64 + (n / 4096 % 64 + 128 - 128)) * 64 +
        (n / 64 % 64 + 128 - 128)) * 64 + (n % 64 + 128 - 128) = n := by omega
    rw [hpayload, hc]
    rfl

/-! ## Texts -/

/-- The character in front of a text is read from the octets that it is written as. -/
theorem charAfter?_octets (c : Char) (cs : List Char) :
    charAfter? (octets (c :: cs)) = some (c, (String.utf8EncodeChar c).length) := by
  rcases firstPiece_utf8EncodeChar c (octets cs) with ⟨b, tail, hb, hpiece⟩
  rw [octets_cons, hb, List.cons_append, charAfter?]
  rw [hpiece]
  rfl

/-- A text in front of some octets is read back. -/
theorem decode_octets_append (cs : List Char) (bs : List UInt8) :
    decode (octets cs ++ bs) = cs ++ decode bs := by
  induction cs with
  | nil => rfl
  | cons c cs ih =>
    rcases firstPiece_utf8EncodeChar c (octets cs ++ bs) with ⟨b, tail, hb, hpiece⟩
    rw [octets_cons, hb, List.cons_append, List.cons_append, List.append_assoc, decode_cons, hpiece]
    simp [ih]

/-- A text is read back from its octets. -/
@[simp]
theorem decode_octets (cs : List Char) : decode (octets cs) = cs := by
  simpa using decode_octets_append cs []

end Descent.Text
