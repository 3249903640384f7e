import Descent.Unicode.Category

/-!
# Properties

A property is a set of code points put together from general categories and tabulated spans.

Main results:

- `Property.holds` decides membership; the `holds_` lemmas say what each operation does to it.
- `NamedProperty.find?` looks a property up by name.
- `isDigit`, `isWhitespace` and `isWord` are the three classes that patterns abbreviate.
-/

namespace Descent.Unicode

/-- A set of code points. -/
inductive Property where
  /-- The code points of any of the categories. -/
  | categories (gs : List Category)
  /-- The code points of no category. -/
  | unassigned
  /-- The code points of any of the spans, which are in increasing order. -/
  | spans (l : List Span)
  | either (a b : Property)
  /-- The code points of the first set that are not in the second. -/
  | except (a b : Property)
  deriving DecidableEq, Repr

namespace Property

/-- Whether a code point has the property. -/
def holds : Property → Nat → Bool
  | .categories gs, c => gs.any (·.holds c)
  | .unassigned, c => !assigned.any (·.holds c)
  | .spans l, c => Span.mem c l
  | .either a b, c => a.holds c || b.holds c
  | .except a b, c => a.holds c && !b.holds c

@[simp]
theorem holds_either (a b : Property) (c : Nat) :
    (either a b).holds c = (a.holds c || b.holds c) :=
  rfl

@[simp]
theorem holds_except (a b : Property) (c : Nat) :
    (except a b).holds c = (a.holds c && !b.holds c) :=
  rfl

/-- The property of a written table. -/
def table (lines : List String) : Property :=
  .spans (lines.flatMap Span.listOfText)

end Property

/-- A property with its names, in lower case and without blanks, low lines and hyphens. -/
structure NamedProperty where
  names : List String
  property : Property
  deriving DecidableEq, Repr

/-- The named property of a written table. -/
def NamedProperty.ofTable (names lines : List String) : NamedProperty :=
  ⟨names, .table lines⟩

/-- The property with a given name in a list. -/
def NamedProperty.find? (name : String) (ps : List NamedProperty) : Option Property :=
  (ps.find? fun p => p.names.contains name).map (·.property)

/-! ## The classes that patterns abbreviate -/

namespace Property

/-- Decimal digits of any script. -/
def digit : Property :=
  .categories [.decimalNumber]

/-- The characters that separate words and lines. -/
def whitespace : Property :=
  .spans [⟨0x9, 0xD, 1⟩, ⟨0x20, 0x20, 1⟩, ⟨0x85, 0x85, 1⟩, ⟨0xA0, 0xA0, 1⟩, ⟨0x1680, 0x1680, 1⟩,
    ⟨0x2000, 0x200A, 1⟩, ⟨0x2028, 0x2029, 1⟩, ⟨0x202F, 0x202F, 1⟩, ⟨0x205F, 0x205F, 1⟩,
    ⟨0x3000, 0x3000, 1⟩]

/-- The characters of words: letters, marks, digits, numbers written as letters, connectors, the
two joiners, and the enclosed letters, which are alphabetic although they are symbols. -/
def word : Property :=
  .either
    (.categories (letters ++ marks ++ [.decimalNumber, .letterNumber, .connectorPunctuation]))
    (.spans [⟨0x200C, 0x200D, 1⟩, ⟨0x24B6, 0x24E9, 1⟩, ⟨0x1F130, 0x1F149, 1⟩,
      ⟨0x1F150, 0x1F169, 1⟩, ⟨0x1F170, 0x1F189, 1⟩])

end Property

/-- Whether a code point is a decimal digit. -/
def isDigit (c : Nat) : Bool :=
  Property.digit.holds c

/-- Whether a code point is white space. -/
def isWhitespace (c : Nat) : Bool :=
  Property.whitespace.holds c

/-- Whether a code point belongs to words. -/
def isWord (c : Nat) : Bool :=
  Property.word.holds c

end Descent.Unicode
