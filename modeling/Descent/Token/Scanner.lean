import Descent.Token.Lexicon

/-!
# Scanning

A scanner cuts a text into tokens.  At each place the first lexeme of the active namespace that
matches wins, and its match may change the active namespace.  Matches of lexemes named for
skipping are passed over.  After the token that ends the text, or an error, nothing more comes.

Main results:

- `Scanner.next?` is the next item of a text, `Lexicon.steps` lists all of them with the active
  namespace after each, and `Lexicon.items` lists them alone.
- `Lexicon.tokenize` gives the tokens of a text up to and with its ending, or the first error.
- `Scanner.after_length_lt`: every match takes an octet at least, so scanning ends.
-/

namespace Descent

/-- A text at a place, with the active namespace and those it was entered from, nearest first; these
are recorded only if the lexicon can go back to them. -/
structure Scanner where
  lexicon : Lexicon
  /-- The octets before the place, nearest first. -/
  before : List UInt8
  /-- The octets after the place. -/
  after : List UInt8
  space : String
  trail : Option (List String)
  finished : Bool

/-- The greatest offset a token may start at. -/
def maxOffset : Nat :=
  Nat.pow 2 32 - 1

namespace Scanner

/-- A scanner at the start of a text. -/
def start (lx : Lexicon) (text : List UInt8) : Scanner :=
  ⟨lx, [], text, defaultSpace, if lx.usesShift then some [] else none, false⟩

/-- The offset of the place. -/
def offset (s : Scanner) : Nat :=
  s.before.length

/-- The whole text. -/
def text (s : Scanner) : List UInt8 :=
  s.before.reverse ++ s.after

/-- Moves on by some octets. -/
def skip (s : Scanner) (n : Nat) : Scanner :=
  { s with before := (s.after.take n).reverse ++ s.before, after := s.after.drop n }

@[simp]
theorem text_start (lx : Lexicon) (text : List UInt8) : (start lx text).text = text := by
  simp [start, Scanner.text]

@[simp]
theorem text_skip (s : Scanner) (n : Nat) : (s.skip n).text = s.text := by
  simp [skip, text]

theorem offset_skip (s : Scanner) {n : Nat} (h : n ≤ s.after.length) :
    (s.skip n).offset = s.offset + n := by
  simp [skip, offset]
  omega

/-- The first lexeme that matches between the octets before, nearest first, and those after, and the
length of its match. -/
def firstMatch? (before after : List UInt8) : List Lexeme → Option (Lexeme × Nat)
  | [] => none
  | l :: rest =>
    match l.matchLength? before after with
    | some n => some (l, n)
    | none => firstMatch? before after rest

/-- The active namespace and its trail after a match of a lexeme. -/
def follow (s : Scanner) (l : Lexeme) : Except LexError Scanner :=
  let enter (target : String) (trail : Option (List String)) : Except LexError Scanner :=
    if s.lexicon.contains target then .ok { s with space := target, trail := trail }
    else .error (.unknownSpace target l.name s.space)
  match l.transition with
  | .stay => .ok s
  | .switch target =>
    if target = s.space then .ok s else enter target (s.trail.map (s.space :: ·))
  | .shift count =>
    let trail := s.trail.getD []
    match count with
    | 0 => .error (.shiftOverflow 0 l.name s.space trail.length)
    | n + 1 =>
      match trail[n]? with
      | none => .error (.shiftOverflow (n + 1) l.name s.space trail.length)
      | some target => enter target (some (trail.drop (n + 1)))

/-- The token of the first `n` octets after the place. -/
def tokenOf (s : Scanner) (l : Lexeme) (n : Nat) : Token :=
  let value := Text.decode (s.after.take n)
  ⟨l.name, String.ofList value, value.length, s.space, l.name != skipName, s.offset⟩

/-- Cuts off one token, kept or not. -/
def scanOne (s : Scanner) : Except LexError (Token × Scanner) :=
  match firstMatch? s.before s.after ((s.lexicon.lexemes? s.space).getD []) with
  | some (l, 0) => .error (.emptyMatch l.name l.pattern)
  | some (l, n + 1) =>
    if maxOffset < s.offset then .error (.tooLarge s.offset)
    else
      match s.follow l with
      | .error e => .error e
      | .ok s' => .ok (s.tokenOf l (n + 1), s'.skip (n + 1))
  | none =>
    if maxOffset < s.offset then .error (.tooLarge s.offset)
    else .error (.unrecognized (.at s.text s.offset s.lexicon.columnUnit))

/-- The scanner after its last item. -/
def finish (s : Scanner) : Scanner :=
  { s with finished := true }

/-- The item that ends a text without error. -/
def endingItem (s : Scanner) : Except LexError Token :=
  if maxOffset < s.offset then .error (.tooLarge s.offset) else .ok (.ending s.offset)

/-- The next kept token, the ending or an error, and the scanner after it. -/
def nextKept : (fuel : Nat) → Scanner → Except LexError Token × Scanner
  | 0, s => (s.endingItem, s.finish)
  | fuel + 1, s =>
    if s.after.isEmpty then (s.endingItem, s.finish)
    else
      match s.scanOne with
      | .error e => (.error e, s.finish)
      | .ok (t, s') => if t.keep then (.ok t, s') else nextKept fuel s'

/-- The next item of a text, and the scanner after it; nothing comes after the last one.  Every
match takes an octet, so the fuel suffices. -/
def next? (s : Scanner) : Option (Except LexError Token × Scanner) :=
  if s.finished then none else some (nextKept (s.after.length + 1) s)

theorem follow_after {s s' : Scanner} {l : Lexeme} (h : s.follow l = .ok s') :
    s'.after = s.after ∧ s'.before = s.before ∧ s'.lexicon = s.lexicon := by
  unfold follow at h
  dsimp only at h
  repeat' split at h
  all_goals cases h
  all_goals exact ⟨rfl, rfl, rfl⟩

/-- Every match takes an octet at least. -/
theorem after_length_lt {s s' : Scanner} {t : Token} (hs : s.after ≠ [])
    (h : s.scanOne = .ok (t, s')) : s'.after.length < s.after.length := by
  unfold scanOne at h
  split at h
  · cases h
  · split at h
    · cases h
    · split at h
      · cases h
      · rename_i s'' hf
        cases h
        have hpos : 0 < s.after.length := List.length_pos_iff.2 hs
        simp only [skip, List.length_drop, (follow_after hf).1]
        omega
  · split at h <;> cases h

end Scanner

/-- An item of a text and the active namespace after it. -/
structure ScanStep where
  item : Except LexError Token
  space : String

namespace Lexicon

/-- The items still to come from a scanner. -/
def stepsFrom : (fuel : Nat) → Scanner → List ScanStep
  | 0, _ => []
  | fuel + 1, s =>
    match s.next? with
    | none => []
    | some (item, s') => ⟨item, s'.space⟩ :: stepsFrom fuel s'

/-- The items of a text with the active namespace after each.  There is at most one item for each
octet, and one at the end. -/
def steps (lx : Lexicon) (text : List UInt8) : List ScanStep :=
  stepsFrom (text.length + 2) (.start lx text)

/-- The items of a text. -/
def items (lx : Lexicon) (text : List UInt8) : List (Except LexError Token) :=
  (lx.steps text).map (·.item)

/-- The tokens of some items, or the first error. -/
def collect : List (Except LexError Token) → Except LexError (List Token)
  | [] => .ok []
  | .error e :: _ => .error e
  | .ok t :: rest =>
    match collect rest with
    | .error e => .error e
    | .ok ts => .ok (t :: ts)

/-- The tokens of a text with its ending, or the first error. -/
def tokenize (lx : Lexicon) (text : List UInt8) : Except LexError (List Token) :=
  collect (lx.items text)

end Lexicon

end Descent
