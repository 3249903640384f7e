import Descent.Unicode.Folding
import Descent.Unicode.Interval
import Descent.Unicode.Name

/-!
# Sets of characters

A set is kept as it is written: ranges and properties, joined, met, complemented or closed under
change of case.  The same sets serve for characters, as code points, and for single octets.

Main results:

- `CharSet.mem` decides membership.
- The `mem_` lemmas say what each operation does to it.
- `CharSet.intervals` is the normal form of a set, which tells whether two sets are equal.
- `CharSet.isAscii` decides whether a set of octets holds none that belongs to a longer character.
-/

namespace Descent.Pattern

/-- A set of code points, or of octets. -/
inductive CharSet where
  /-- No element. -/
  | none
  /-- All elements from `first` to `last`. -/
  | range (first last : Nat)
  /-- The code points with a property. -/
  | property (p : Unicode.Property)
  | union (a b : CharSet)
  | inter (a b : CharSet)
  /-- Everything outside the set. -/
  | compl (a : CharSet)
  /-- The set with the case variants of its code points. -/
  | folded (a : CharSet)
  /-- The set with the case variants of its ASCII letters. -/
  | asciiFolded (a : CharSet)
  deriving DecidableEq, Repr

namespace CharSet

/-- An ASCII letter in the other case; all else stays. -/
def swapCase (c : Nat) : Nat :=
  if 0x41 ≤ c && c ≤ 0x5A then c + 0x20
  else if 0x61 ≤ c && c ≤ 0x7A then c - 0x20
  else c

/-- Whether a set holds an element. -/
def mem : CharSet → Nat → Bool
  | none, _ => false
  | range first last, c => first ≤ c && c ≤ last
  | property p, c => p.holds c
  | union a b, c => a.mem c || b.mem c
  | inter a b, c => a.mem c && b.mem c
  | compl a, c => !a.mem c
  | folded a, c => (Unicode.variants c).any a.mem
  | asciiFolded a, c => a.mem c || a.mem (swapCase c)

@[simp]
theorem mem_union (a b : CharSet) (c : Nat) : (union a b).mem c = (a.mem c || b.mem c) :=
  rfl

@[simp]
theorem mem_inter (a b : CharSet) (c : Nat) : (inter a b).mem c = (a.mem c && b.mem c) :=
  rfl

@[simp]
theorem mem_compl (a : CharSet) (c : Nat) : (compl a).mem c = !a.mem c :=
  rfl

/-- The set of one element. -/
def single (c : Nat) : CharSet :=
  range c c

/-- Every element. -/
def all : CharSet :=
  compl none

/-- The elements of the first set that are not in the second. -/
def diff (a b : CharSet) : CharSet :=
  inter a (compl b)

/-- The elements of exactly one of two sets. -/
def symmDiff (a b : CharSet) : CharSet :=
  union (diff a b) (diff b a)

/-- The union of some sets. -/
def ofList (sets : List CharSet) : CharSet :=
  sets.foldr union none

@[simp]
theorem mem_single (c d : Nat) : (single c).mem d = decide (d = c) := by
  simp only [single, mem, ← Bool.decide_and, decide_eq_decide]
  omega

@[simp]
theorem mem_all (c : Nat) : all.mem c = true :=
  rfl

@[simp]
theorem mem_diff (a b : CharSet) (c : Nat) : (diff a b).mem c = (a.mem c && !b.mem c) :=
  rfl

theorem mem_ofList (sets : List CharSet) (c : Nat) : (ofList sets).mem c = sets.any (·.mem c) := by
  induction sets with
  | nil => rfl
  | cons s rest ih =>
    simp only [ofList] at ih
    simp [ofList, ih]

/-- Whether a set of octets holds only octets that are characters on their own. -/
def isAscii (s : CharSet) : Bool :=
  (List.range 0x80).all fun i => !s.mem (0x80 + i)

theorem mem_lt_of_isAscii {s : CharSet} (h : s.isAscii) {c : Nat} (hc : c < 0x100)
    (hm : s.mem c) : c < 0x80 := by
  apply Nat.lt_of_not_le
  intro hle
  have := List.all_eq_true.1 h (c - 0x80) (List.mem_range.2 (by omega))
  rw [show 0x80 + (c - 0x80) = c by omega] at this
  simp [hm] at this

/-! ## Normal forms -/

/-- Every code point that folds to another one, or that another one folds to. -/
def casePoints : List Nat :=
  Unicode.foldRules.flatMap fun r =>
    r.span.intervals.flatMap fun i =>
      (List.range (i.last + 1 - i.first)).flatMap fun d =>
        [i.first + d, (((i.first + d : Nat) : Int) + r.offset).toNat]

/-- The normal form of a set. -/
def intervals : CharSet → List Unicode.Interval
  | none => []
  | range first last => Unicode.Interval.normal [⟨first, last⟩]
  | property p => p.intervals
  | union a b => Unicode.Interval.normal (a.intervals ++ b.intervals)
  | inter a b => Unicode.Interval.meet Unicode.lastCodePoint a.intervals b.intervals
  | compl a => Unicode.Interval.complement Unicode.lastCodePoint a.intervals
  | folded a =>
    let l := a.intervals
    let others := (casePoints.filter (Unicode.Interval.mem · l)).flatMap Unicode.variants
    Unicode.Interval.normal (l ++ others.map fun c => ⟨c, c⟩)
  | asciiFolded a =>
    let l := a.intervals
    let others := (List.range 0x80).filter fun c => Unicode.Interval.mem (swapCase c) l
    Unicode.Interval.normal (l ++ others.map fun c => ⟨c, c⟩)

/-- The intervals of a set of characters; the code points reserved for pairs are none. -/
def charIntervals (s : CharSet) : List Unicode.Interval :=
  Unicode.Interval.meet Unicode.lastCodePoint s.intervals
    [⟨0, 0xD7FF⟩, ⟨0xE000, Unicode.lastCodePoint⟩]

/-- The intervals of a set of octets. -/
def octetIntervals (s : CharSet) : List Unicode.Interval :=
  Unicode.Interval.meet 0xFF s.intervals [⟨0, 0xFF⟩]

/-- The ASCII members of a set. -/
def asciiMembers (s : CharSet) : List Nat :=
  (List.range 0x80).filter s.mem

/-- Whether a set holds a character; an ASCII member settles it. -/
def holdsChar (s : CharSet) : Bool :=
  (List.range 0x80).any s.mem || !s.charIntervals.isEmpty

/-- Whether a set of characters is a single one; two ASCII members settle it. -/
def isOneChar (s : CharSet) : Bool :=
  s.asciiMembers.length < 2 && isOne s.charIntervals
where
  /-- Whether a normal form has one member. -/
  isOne : List Unicode.Interval → Bool
    | [i] => i.first == i.last
    | _ => false

/-- Whether a set of octets is a single one. -/
def isOneOctet (s : CharSet) : Bool :=
  isOneChar.isOne s.octetIntervals

/-! ## Classes with a name -/

/-- The ASCII digits. -/
def asciiDigit : CharSet :=
  range 0x30 0x39

/-- ASCII white space. -/
def asciiWhitespace : CharSet :=
  union (range 0x09 0x0D) (single 0x20)

/-- The ASCII letters. -/
def asciiLetter : CharSet :=
  union (range 0x41 0x5A) (range 0x61 0x7A)

/-- The ASCII letters, digits and the low line. -/
def asciiWord : CharSet :=
  union asciiLetter (union asciiDigit (single 0x5F))

/-- The ASCII class with the given name. -/
def asciiClass? (name : String) : Option CharSet :=
  match name with
  | "alnum" => some (union asciiDigit asciiLetter)
  | "alpha" => some asciiLetter
  | "ascii" => some (range 0x00 0x7F)
  | "blank" => some (union (single 0x09) (single 0x20))
  | "cntrl" => some (union (range 0x00 0x1F) (single 0x7F))
  | "digit" => some asciiDigit
  | "graph" => some (range 0x21 0x7E)
  | "lower" => some (range 0x61 0x7A)
  | "print" => some (range 0x20 0x7E)
  | "punct" =>
    some (ofList [range 0x21 0x2F, range 0x3A 0x40, range 0x5B 0x60, range 0x7B 0x7E])
  | "space" => some asciiWhitespace
  | "upper" => some (range 0x41 0x5A)
  | "word" => some asciiWord
  | "xdigit" => some (ofList [asciiDigit, range 0x41 0x46, range 0x61 0x66])
  | _ => Option.none

end CharSet

end Descent.Pattern
