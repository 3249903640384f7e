import Descent.Pattern.Basic

/-!
# Room

Counts abbreviate copies.  The room of a pattern is what it takes, in octets, as a machine whose
states are spelled out: a copy of a pattern for every time that it may be passed, and for a set of
characters one state for every step through their encoded forms.  Patterns that take too much are
refused.

Main results:

- `Node.room` is the room of a pattern.
- `Node.fits` decides whether a pattern takes no more than there is.
-/

namespace Descent.Pattern

/-- The room of a state. -/
def stateRoom : Nat :=
  32

/-- The room of a way out of a state that has several. -/
def wayRoom : Nat :=
  4

/-- The room of one interval in a state that takes octets. -/
def stepRoom : Nat :=
  8

/-- The room that there is. -/
def roomLimit : Nat :=
  10 * Nat.pow 2 20

/-! ## Sets of characters -/

/-- A code point up to which an interval has to be cut off, so that its encoded forms are those with
each octet from an interval of its own. -/
def cutPoint? (first last : Nat) : Option Nat :=
  match [0x7F, 0x7FF, 0xFFFF].find? fun b => first ≤ b && b < last with
  | some b => some b
  | none =>
    if last < 0x80 then none
    else
      [0x40, 0x1000, 0x40000].findSome? fun block =>
        if first / block == last / block then none
        else if first % block != 0 then some (first / block * block + (block - 1))
        else if last % block != block - 1 then some (last / block * block - 1)
        else none

/-- Cuts an interval until the octets of the encoded forms are independent; a few cuts at either
end are enough. -/
def cutInterval : (fuel : Nat) → (first last : Nat) → List Unicode.Interval
  | 0, first, last => [⟨first, last⟩]
  | fuel + 1, first, last =>
    match cutPoint? first last with
    | none => [⟨first, last⟩]
    | some p => cutInterval fuel first p ++ cutInterval fuel (p + 1) last

/-- The octets of the encoded forms, from the lowest to the highest at each place. -/
def octetSteps (i : Unicode.Interval) : List (UInt8 × UInt8) :=
  (String.utf8EncodeChar (Char.ofNat i.first)).zip (String.utf8EncodeChar (Char.ofNat i.last))

/-- The number of places at the front where two lists agree. -/
def agreement : List (UInt8 × UInt8) → List (UInt8 × UInt8) → Nat
  | a :: as, b :: bs => if a == b then agreement as bs + 1 else 0
  | _, _ => 0

/-- The number of different steps in some encoded forms in increasing order. -/
def countSteps (before : List (UInt8 × UInt8)) : List (List (UInt8 × UInt8)) → Nat
  | [] => 0
  | s :: rest => s.length - agreement before s + countSteps s rest

/-- The room of a set of characters. -/
def charRoom (l : List Unicode.Interval) : Nat :=
  match l with
  | [⟨first, last⟩] =>
    if first == last then stateRoom * (octetSteps ⟨first, last⟩).length else several l
  | l => several l
where
  /-- The room of several characters. -/
  several (l : List Unicode.Interval) : Nat :=
    if l.all (·.last < 0x80) then 2 * stateRoom + stepRoom * l.length
    else
      let forms := (l.flatMap fun i => cutInterval 24 i.first i.last).map octetSteps
      2 * stateRoom + stateRoom * countSteps [] forms + wayRoom * forms.length

/-- The room of a set of octets. -/
def octetRoom (l : List Unicode.Interval) : Nat :=
  match l with
  | [⟨first, last⟩] =>
    if first == last then stateRoom else 2 * stateRoom + stepRoom
  | l => 2 * stateRoom + stepRoom * l.length

/-! ## Patterns -/

/-- The room of a pattern; `inBranch` tells that it is one of several alternatives. -/
def Node.roomWithin (inBranch : Bool) : Node → Nat
  | .alt a b =>
    (if inBranch then 0 else 2 * stateRoom) + a.roomWithin true + b.roomWithin true
  | .empty | .look _ => (if inBranch then wayRoom else 0) + stateRoom
  | .char s => (if inBranch then wayRoom else 0) + charRoom s.charIntervals
  | .octet s => (if inBranch then wayRoom else 0) + octetRoom s.octetIntervals
  | .seq a b => (if inBranch then wayRoom else 0) + a.roomWithin false + b.roomWithin false
  | .group _ a => (if inBranch then wayRoom else 0) + 2 * stateRoom + a.roomWithin false
  | .repeated a min max _ =>
    let once := a.roomWithin false
    let fork := stateRoom + 2 * wayRoom
    (if inBranch then wayRoom else 0) +
      match min, max with
      | 0, some 1 => once + fork + stateRoom
      | 0, none => once + fork
      | n, none => n * once + fork
      | n, some m =>
        (if n == 0 then stateRoom else n * once) +
          (if n == m then 0 else (m - n) * (once + fork) + stateRoom)

/-- The room of a whole pattern: before it, what looks for a place to begin, and around it a group. -/
def Node.room (a : Node) : Nat :=
  (3 * stateRoom + stepRoom + 2 * wayRoom) + 3 * stateRoom + a.roomWithin false

/-- The number of parts of a pattern with all copies written out. -/
def Node.copies : Node → Nat
  | .empty | .char _ | .octet _ | .look _ => 1
  | .seq a b | .alt a b => a.copies + b.copies + 1
  | .group _ a => a.copies + 1
  | .repeated a min max _ => (Nat.max min (max.getD 0) + 1) * (a.copies + 1)

/-- Whether a pattern takes no more room than there is; a few parts always do. -/
def Node.fits (a : Node) : Bool :=
  a.copies ≤ 64 || a.room ≤ roomLimit

end Descent.Pattern
