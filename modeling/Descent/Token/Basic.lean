/-!
# Tokens

A token is a stretch of a text with the kind its lexeme gives it.  A text ends in one token of a
kind of its own.

Main results:

- `Token.ending` is the token that ends a text, and `Token.isEnding` tells it by its kind.
-/

namespace Descent

/-- The namespace that every text starts in. -/
def defaultSpace : String :=
  "default"

/-- The name of the lexemes whose matches are passed over. -/
def skipName : String :=
  "skip"

/-- The kind of the token that ends a text. -/
def endingKind : String :=
  "EOF"

/-- A token of a text. -/
structure Token where
  kind : String
  value : String
  /-- The number of characters of the value. -/
  length : Nat
  /-- The namespace the token was found in. -/
  space : String
  /-- Whether the token is part of the text's meaning. -/
  keep : Bool
  /-- The octet at which the token starts. -/
  offset : Nat
  deriving DecidableEq, Repr

namespace Token

/-- The token that ends a text at an offset. -/
def ending (offset : Nat) : Token :=
  ⟨endingKind, endingKind, 0, defaultSpace, true, offset⟩

/-- Whether a token ends its text; the kind alone decides. -/
def isEnding (t : Token) : Bool :=
  t.kind == endingKind

@[simp]
theorem isEnding_ending (offset : Nat) : (ending offset).isEnding = true := by
  simp [isEnding, ending]

@[simp]
theorem offset_ending (offset : Nat) : (ending offset).offset = offset :=
  rfl

end Token

end Descent
