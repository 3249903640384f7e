import Descent.Text.Utf8

/-!
# Pattern engines

Patterns are compiled and matched by an engine.  Nothing is known of an engine but that it compiles
patterns, and that a compiled pattern may match at a place.  What a result needs to know beyond that
it takes as a promise of the engine.

Main results:

- `Engine` compiles patterns to matchers.
- `Engine.EndsInText` promises that no match ends outside the text or inside a character.
-/

namespace Descent

/-- A compiled pattern: given the octets before a place of a text, nearest first, and those after, it
tells the offset in the text at which its match from that place on ends, if there is one. -/
abbrev Matcher := (before after : List UInt8) → Option Nat

/-- What compiles patterns. -/
structure Engine where
  /-- Compiles a pattern over characters or, if not `unicode`, over octets, or tells what is wrong
  with it. -/
  compile : (unicode : Bool) → (pattern : String) → Except String Matcher

/-- Every match ends in the text, and not before the place it starts from.  Over characters, what
starts between two characters ends between two characters. -/
structure Engine.EndsInText (E : Engine) : Prop where
  within {unicode : Bool} {pattern : String} {m : Matcher} {before after : List UInt8} {stop : Nat}
    (hm : E.compile unicode pattern = .ok m) (h : m before after = some stop) :
    before.length ≤ stop ∧ stop ≤ before.length + after.length
  between {pattern : String} {m : Matcher} {front rest : List Char} {stop : Nat}
    (hm : E.compile true pattern = .ok m)
    (h : m (Text.octets front).reverse (Text.octets rest) = some stop) :
    ∃ passed left, rest = passed ++ left ∧ stop = (Text.octets (front ++ passed)).length

end Descent
