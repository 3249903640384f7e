/-!
# Quoted texts

A text in quotation marks, with escapes for what would end it or not show.

Main results:

- `quoted` writes a text in quotation marks.
- `quotedBody_append`: escaping goes character by character.
-/

namespace Descent.Text

/-- The digits of a code point in base sixteen. -/
def hexDigits (n : Nat) : List Char :=
  Nat.toDigits 16 n

/-- How a character is written between quotation marks. -/
def quotedChar (c : Char) : List Char :=
  match c with
  | '"' => ['\\', '"']
  | '\\' => ['\\', '\\']
  | '\n' => ['\\', 'n']
  | '\r' => ['\\', 'r']
  | '\t' => ['\\', 't']
  | '\x00' => ['\\', '0']
  | c =>
    if c.toNat < 0x20 || c.toNat == 0x7F then
      ['\\', 'u', '\x7b'] ++ hexDigits c.toNat ++ ['\x7d']
    else [c]

/-- How characters are written between quotation marks. -/
def quotedBody (cs : List Char) : List Char :=
  cs.flatMap quotedChar

/-- A text in quotation marks. -/
def quoted (s : String) : String :=
  "\"" ++ String.ofList (quotedBody s.toList) ++ "\""

theorem quotedBody_append (cs ds : List Char) :
    quotedBody (cs ++ ds) = quotedBody cs ++ quotedBody ds := by
  simp [quotedBody]

end Descent.Text
