import Descent.Unicode.Age
import Descent.Unicode.Segmentation

/-!
# Property names

A property is written by its own name, or as a value of a key: a category, a script, an age or a
way to break.  Case, blanks, low lines and hyphens do not count in names, nor does "is" in front.

Main results:

- `Property.ofName?` is the property with a given name.
- `Property.ofValue?` is the property for a value of a key.
-/

namespace Descent.Unicode

/-- The ASCII signs of a name in lower case, without blanks, low lines and hyphens. -/
def bareName (name : List Char) : List Char :=
  (name.filter fun c => c != ' ' && c != '_' && c != '-' && c.toNat < 0x80).map Char.toLower

/-- A name without what does not count; but "isc" is a name of its own, not "c". -/
def looseName (name : List Char) : List Char :=
  match name with
  | i :: s :: rest =>
    if i.toLower == 'i' && s.toLower == 's' then
      if bareName rest == ['c'] then ['i', 's', 'c'] else bareName rest
    else bareName name
  | _ => bareName name

namespace Property

/-- The general categories, their groups, and three further sets, by name.  No character is half of
a pair, so that category has no name. -/
def ofCategoryName? (name : String) : Option Property :=
  match name with
  | "lu" | "uppercaseletter" => some (.categories [.uppercaseLetter])
  | "ll" | "lowercaseletter" => some (.categories [.lowercaseLetter])
  | "lt" | "titlecaseletter" => some (.categories [.titlecaseLetter])
  | "lc" | "casedletter" => some (.categories casedLetters)
  | "lm" | "modifierletter" => some (.categories [.modifierLetter])
  | "lo" | "otherletter" => some (.categories [.otherLetter])
  | "l" | "letter" => some (.categories letters)
  | "mn" | "nonspacingmark" => some (.categories [.nonspacingMark])
  | "mc" | "spacingmark" => some (.categories [.spacingMark])
  | "me" | "enclosingmark" => some (.categories [.enclosingMark])
  | "m" | "mark" | "combiningmark" => some (.categories marks)
  | "nd" | "decimalnumber" | "digit" => some (.categories [.decimalNumber])
  | "nl" | "letternumber" => some (.categories [.letterNumber])
  | "no" | "othernumber" => some (.categories [.otherNumber])
  | "n" | "number" => some (.categories numbers)
  | "pc" | "connectorpunctuation" => some (.categories [.connectorPunctuation])
  | "pd" | "dashpunctuation" => some (.categories [.dashPunctuation])
  | "ps" | "openpunctuation" => some (.categories [.openPunctuation])
  | "pe" | "closepunctuation" => some (.categories [.closePunctuation])
  | "pi" | "initialpunctuation" => some (.categories [.initialPunctuation])
  | "pf" | "finalpunctuation" => some (.categories [.finalPunctuation])
  | "po" | "otherpunctuation" => some (.categories [.otherPunctuation])
  | "p" | "punctuation" | "punct" => some (.categories punctuation)
  | "sm" | "mathsymbol" => some (.categories [.mathSymbol])
  | "sc" | "currencysymbol" => some (.categories [.currencySymbol])
  | "sk" | "modifiersymbol" => some (.categories [.modifierSymbol])
  | "so" | "othersymbol" => some (.categories [.otherSymbol])
  | "s" | "symbol" => some (.categories symbols)
  | "zs" | "spaceseparator" => some (.categories [.spaceSeparator])
  | "zl" | "lineseparator" => some (.categories [.lineSeparator])
  | "zp" | "paragraphseparator" => some (.categories [.paragraphSeparator])
  | "z" | "separator" => some (.categories separators)
  | "cc" | "control" | "cntrl" => some (.categories [.control])
  | "cf" | "format" => some (.categories [.format])
  | "co" | "privateuse" => some (.categories [.privateUse])
  | "cn" | "unassigned" => some .unassigned
  | "c" | "other" => some (.either (.categories controls) .unassigned)
  | "assigned" => some (.categories assigned)
  | "ascii" => some (.spans [⟨0, 0x7F, 1⟩])
  | "any" => some (.spans [⟨0, 0x10FFFF, 1⟩])
  | _ => none

/-- The property with a given name: a binary property, a category or a script. -/
def ofName? (name : List Char) : Option Property :=
  let name := String.ofList (looseName name)
  (NamedProperty.find? name binaryProperties).or
    ((ofCategoryName? name).or (NamedProperty.find? name scripts))

/-- The characters that a version of the database has. -/
def ofAge? (name : String) : Option Property :=
  (versions.findIdx? fun v => v.names.contains name).map fun i =>
    agesUpTo (versions.take (i + 1))

/-- The property for a value of a key. -/
def ofValue? (key value : List Char) : Option Property :=
  let value := String.ofList (looseName value)
  match String.ofList (looseName key) with
  | "gc" | "generalcategory" => ofCategoryName? value
  | "sc" | "script" => NamedProperty.find? value scripts
  | "scx" | "scriptextensions" =>
    (NamedProperty.find? value extendedScripts).or (NamedProperty.find? value scripts)
  | "age" => ofAge? value
  | "gcb" | "graphemeclusterbreak" => NamedProperty.find? value graphemeBreaks
  | "wb" | "wordbreak" => NamedProperty.find? value wordBreaks
  | "sb" | "sentencebreak" => NamedProperty.find? value sentenceBreaks
  | _ => none

end Property

end Descent.Unicode
