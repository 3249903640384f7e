/-!
# Octets of a text

Texts are measured and cut in octets of their UTF-8 form.  A cut may fall inside a character, so
reading octets back has to cope with any list: each maximal piece that no character can start
with, or that breaks off, reads as one replacement character.

Main results:

- `octets` writes characters as octets.
- `firstPiece` splits off the first character, or the first piece that is none.
- `decode` reads octets back, with a replacement character for every broken piece.
- `firstPiece_width_pos`: every piece has at least one octet.
-/

namespace Descent.Text

/-- The UTF-8 form of a list of characters. -/
def octets (cs : List Char) : List UInt8 :=
  cs.flatMap String.utf8EncodeChar

@[simp]
theorem octets_nil : octets [] = [] :=
  rfl

@[simp]
theorem octets_cons (c : Char) (cs : List Char) :
    octets (c :: cs) = String.utf8EncodeChar c ++ octets cs :=
  rfl

@[simp]
theorem octets_append (cs ds : List Char) : octets (cs ++ ds) = octets cs ++ octets ds := by
  simp [octets]

/-! ## One character -/

/-- What the first octet of a character promises: its own payload, how many octets follow, and the
range of the first of them. -/
structure Lead where
  payload : Nat
  owed : Nat
  low : Nat
  high : Nat
  deriving DecidableEq, Repr

/-- The promise of a first octet; continuation octets and octets outside the encoding make none.
The narrowed ranges rule out overlong forms, surrogates and code points beyond the last. -/
def Lead.ofOctet? (b : UInt8) : Option Lead :=
  let n := b.toNat
  if n < 0x80 then some ⟨n, 0, 0x80, 0xBF⟩
  else if n < 0xC2 then none
  else if n < 0xE0 then some ⟨n - 0xC0, 1, 0x80, 0xBF⟩
  else if n == 0xE0 then some ⟨0, 2, 0xA0, 0xBF⟩
  else if n == 0xED then some ⟨0xD, 2, 0x80, 0x9F⟩
  else if n < 0xF0 then some ⟨n - 0xE0, 2, 0x80, 0xBF⟩
  else if n == 0xF0 then some ⟨0, 3, 0x90, 0xBF⟩
  else if n < 0xF4 then some ⟨n - 0xF0, 3, 0x80, 0xBF⟩
  else if n == 0xF4 then some ⟨4, 3, 0x80, 0x8F⟩
  else none

/-- The first piece of some octets: a character, or a broken one, and the number of octets. -/
structure Piece where
  char? : Option Char
  width : Nat
  deriving DecidableEq, Repr

/-- Reads the octets a lead still owes; `width` counts those read so far. -/
def readOwed (payload low high width : Nat) : (owed : Nat) → List UInt8 → Piece
  | 0, _ => ⟨some (Char.ofNat payload), width⟩
  | _ + 1, [] => ⟨none, width⟩
  | owed + 1, b :: rest =>
    if low ≤ b.toNat && b.toNat ≤ high then
      readOwed (payload * 0x40 + (b.toNat - 0x80)) 0x80 0xBF (width + 1) owed rest
    else ⟨none, width⟩

/-- The piece that starts with octet `b` and continues in `rest`. -/
def firstPiece (b : UInt8) (rest : List UInt8) : Piece :=
  match Lead.ofOctet? b with
  | none => ⟨none, 1⟩
  | some l => readOwed l.payload l.low l.high 1 l.owed rest

private theorem readOwed_width_ge (payload low high width owed : Nat) (rest : List UInt8) :
    width ≤ (readOwed payload low high width owed rest).width := by
  induction owed generalizing payload low high width rest with
  | zero => exact Nat.le_refl _
  | succ owed ih =>
    cases rest with
    | nil => exact Nat.le_refl _
    | cons b rest =>
      simp only [readOwed]
      split
      · exact Nat.le_trans (Nat.le_succ _) (ih _ _ _ _ _)
      · exact Nat.le_refl _

private theorem readOwed_width_le (payload low high width owed : Nat) (rest : List UInt8) :
    (readOwed payload low high width owed rest).width ≤ width + rest.length := by
  induction owed generalizing payload low high width rest with
  | zero => exact Nat.le_add_right _ _
  | succ owed ih =>
    cases rest with
    | nil => exact Nat.le_refl _
    | cons b rest =>
      simp only [readOwed]
      split
      · refine Nat.le_trans (ih _ _ _ _ _) ?_
        simp only [List.length_cons]
        omega
      · exact Nat.le_add_right _ _

/-- Every piece has at least one octet. -/
theorem firstPiece_width_pos (b : UInt8) (rest : List UInt8) : 0 < (firstPiece b rest).width := by
  unfold firstPiece
  split
  · exact Nat.one_pos
  · exact readOwed_width_ge _ _ _ _ _ _

/-- A piece takes no more octets than there are. -/
theorem firstPiece_width_le (b : UInt8) (rest : List UInt8) :
    (firstPiece b rest).width ≤ (b :: rest).length := by
  simp only [List.length_cons]
  unfold firstPiece
  split
  · exact Nat.le_add_left _ _
  · exact Nat.le_trans (readOwed_width_le _ _ _ _ _ _) (by omega)

/-! ## Characters before and after a position -/

/-- The character at the front of some octets with its width, if the front is one. -/
def charAfter? : List UInt8 → Option (Char × Nat)
  | [] => none
  | b :: rest =>
    let p := firstPiece b rest
    p.char?.map (·, p.width)

/-- Whether an octet continues a character. -/
def isContinuation (b : UInt8) : Bool :=
  0x80 ≤ b.toNat && b.toNat < 0xC0

/-- The character that ends where `before`, listed from the nearest octet on, begins. -/
def charBefore? (before : List UInt8) : Option Char :=
  let tail := (before.take 3).takeWhile isContinuation
  match before.drop tail.length with
  | [] => none
  | b :: _ =>
    let p := firstPiece b tail.reverse
    if p.width == tail.length + 1 then p.char? else none

/-! ## Whole texts -/

/-- What a broken piece reads as. -/
def replacement : Char :=
  '\uFFFD'

/-- Reads octets, ignoring the first `skip`. -/
private def decodeAfter : (skip : Nat) → List UInt8 → List Char
  | _, [] => []
  | skip + 1, _ :: rest => decodeAfter skip rest
  | 0, b :: rest =>
    let p := firstPiece b rest
    p.char?.getD replacement :: decodeAfter (p.width - 1) rest

/-- Reads octets as characters; every broken piece reads as one replacement character. -/
def decode (bs : List UInt8) : List Char :=
  decodeAfter 0 bs

private theorem decodeAfter_eq (skip : Nat) (bs : List UInt8) :
    decodeAfter skip bs = decode (bs.drop skip) := by
  induction bs generalizing skip with
  | nil => cases skip <;> rfl
  | cons b rest ih =>
    cases skip with
    | zero => rfl
    | succ skip => exact ih skip

@[simp]
theorem decode_nil : decode [] = [] :=
  rfl

/-- Reading goes on behind the first piece. -/
theorem decode_cons (b : UInt8) (rest : List UInt8) :
    decode (b :: rest) = (firstPiece b rest).char?.getD replacement ::
      decode (rest.drop ((firstPiece b rest).width - 1)) := by
  rw [← decodeAfter_eq]
  rfl

theorem head?_decode_cons (b : UInt8) (rest : List UInt8) :
    (decode (b :: rest)).head? = some ((firstPiece b rest).char?.getD replacement) :=
  rfl

/-- Whether some octets, the first `skip` ignored, hold no broken piece. -/
private def isSoundAfter : (skip : Nat) → List UInt8 → Bool
  | _, [] => true
  | skip + 1, _ :: rest => isSoundAfter skip rest
  | 0, b :: rest =>
    let p := firstPiece b rest
    p.char?.isSome && isSoundAfter (p.width - 1) rest

/-- Whether some octets are the UTF-8 form of a text. -/
def isSound (bs : List UInt8) : Bool :=
  isSoundAfter 0 bs

end Descent.Text
