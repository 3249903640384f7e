import Descent.Grammar.Document

/-!
# Instructions of a document

Only the lines that start with a per cent sign declare lexemes, wherever they stand.  So the lexemes of a document
are what its instructions come to, one after the other; and the pattern that a namespace passes over is what the
patterns given for it come to.

Main results:

- `Grammar.lexemes_of_ofDocument`: the lexemes of a document are what its instructions come to.
- `Grammar.skip?_of_ofDocument`: what a namespace passes over are the patterns given for it, put together.
-/

namespace Descent

namespace Grammar

variable {g g' : Grammar} {d d' : Draft} {source space : String} {number : Nat} {raw : List Char}

/-! ## Lines -/

/-- The instruction in a line, if there is one. -/
def instruction? (raw : List Char) : Option Instruction :=
  if (Text.trimEnd raw).head? = some '%' then Instruction.ofLine? (Text.trimEnd raw) else none

/-- The instructions of a document, in order. -/
def instructionsOf (text : String) : List Instruction :=
  (linesOf text.toList).filterMap instruction?

theorem head?_of_trimEnd {c : Char} (h : (Text.trimEnd raw).head? = some c) : raw.head? = some c := by
  have hfront : Text.trimEnd raw <+: raw := by
    have hsuffix := List.dropWhile_suffix (l := raw.reverse) Text.isBlank
    rw [← List.reverse_prefix, List.reverse_reverse] at hsuffix
    exact hsuffix
  rcases hfront with ⟨rest, hrest⟩
  rcases hline : Text.trimEnd raw with _ | ⟨d, line⟩
  · rw [hline] at h
    cases h
  · rw [hline] at h hrest
    rw [← hrest]
    exact h

/-- A line of a body holds no instruction. -/
theorem instruction?_of_continuesBody (h : continuesBody raw = true) : instruction? raw = none := by
  apply if_neg
  intro hhead
  have hraw := head?_of_trimEnd hhead
  rcases raw with _ | ⟨c, rest⟩
  · cases hraw
  · obtain rfl : c = '%' := Option.some.inj hraw
    cases h

/-- What an instruction does to lexemes depends on the lexemes alone. -/
theorem lexemes_perform_congr (h : g.lexemes = g'.lexemes) (i : Instruction) :
    (g.perform i).lexemes = (g'.perform i).lexemes := by
  cases i with
  | pragma name value => exact h
  | skip space pattern | lexeme space name pattern target => simp only [perform, h]

theorem lexemes_foldl_perform_congr (h : g.lexemes = g'.lexemes) (is : List Instruction) :
    (is.foldl perform g).lexemes = (is.foldl perform g').lexemes := by
  induction is generalizing g g' with
  | nil => exact h
  | cons i is ih => exact ih (lexemes_perform_congr h i)

theorem lexemes_close (d : Draft) : d.close.lexemes = d.grammar.lexemes := by
  unfold Draft.close
  split <;> rfl

/-- A line outside bodies carries out its instruction. -/
theorem lexemes_of_readOutside (h : readOutside source number g raw = .ok d) :
    d.grammar.lexemes = ((instruction? raw).toList.foldl perform g).lexemes := by
  unfold readOutside at h
  dsimp only at h
  split at h
  · rename_i hnone
    cases h
    have hhead : (Text.trimEnd raw).head? ≠ some '%' := by
      rw [Bool.or_eq_true] at hnone
      intro hhead
      rcases hline : Text.trimEnd raw with _ | ⟨c, line⟩
      · rw [hline] at hhead
        cases hhead
      · rw [hline] at hhead hnone
        obtain rfl : c = '%' := Option.some.inj hhead
        rcases hnone with hnone | hnone <;> cases hnone
    rw [instruction?, if_neg hhead]
    rfl
  · split at h
    · rename_i hhead
      rw [instruction?, if_pos hhead]
      split at h
      · rename_i i hi
        cases h
        rw [hi]
        rfl
      · cases h
    · rename_i hhead
      rw [instruction?, if_neg hhead]
      split at h <;> cases h
      rfl

/-- Every line carries out its instruction. -/
theorem lexemes_of_readLine (h : d.readLine source number raw = .ok d') :
    d'.grammar.lexemes = ((instruction? raw).toList.foldl perform d.grammar).lexemes := by
  unfold Draft.readLine at h
  split at h
  · split at h
    · rename_i hbody
      cases h
      rw [instruction?_of_continuesBody hbody]
      rfl
    · rw [lexemes_of_readOutside h]
      exact lexemes_foldl_perform_congr (lexemes_close d) _
  · exact lexemes_of_readOutside h

theorem lexemes_of_readLines {lines : List (List Char)} (h : d.readLines source number lines = .ok d') :
    d'.grammar.lexemes = ((lines.filterMap instruction?).foldl perform d.grammar).lexemes := by
  induction lines generalizing d number with
  | nil =>
    cases h
    rfl
  | cons raw lines ih =>
    rw [Draft.readLines] at h
    split at h
    · cases h
    · rename_i d₁ hline
      have hfirst := lexemes_of_readLine hline
      rw [ih h]
      rcases hi : instruction? raw with _ | i
      · rw [hi] at hfirst
        rw [List.filterMap_cons_none hi]
        exact lexemes_foldl_perform_congr hfirst _
      · rw [hi] at hfirst
        rw [List.filterMap_cons_some hi, List.foldl_cons]
        exact lexemes_foldl_perform_congr hfirst _

/-- The lexemes of a document are what its instructions come to. -/
theorem lexemes_of_ofDocument {text : String} (h : ofDocument text source = .ok g) :
    g.lexemes = ((instructionsOf text).foldl perform .empty).lexemes := by
  unfold ofDocument at h
  rcases hlines : Draft.readLines source 1 ⟨.empty, none⟩ (linesOf text.toList) with e | d
  · rw [hlines] at h
    cases h
  · rw [hlines] at h
    cases h
    rw [lexemes_close]
    exact lexemes_of_readLines hlines

/-! ## What is passed over -/

/-- The pattern of what a namespace passes over. -/
def skip? (lexemes : OrderedMap String PatternMap) (space : String) : Option String :=
  (lexemes.get? space).bind (·.get? skipName)

/-- The key of a lexeme. -/
def lexemeKey (name : String) (target : Option String) : String :=
  match target with
  | some target => name ++ ":" ++ target
  | none => name

/-- The patterns that a namespace passes over, after one more instruction.  A lexeme that is declared under their
name takes their place. -/
def addPattern (space : String) (patterns : List String) : Instruction → List String
  | .pragma _ _ => patterns
  | .skip s pattern => if s = space then patterns ++ [pattern] else patterns
  | .lexeme s name pattern target =>
    if s = space ∧ lexemeKey name target = skipName then [pattern] else patterns

/-- The patterns that some instructions give for what a namespace passes over. -/
def skipPatterns (space : String) (is : List Instruction) : List String :=
  is.foldl (addPattern space) []

/-- Some patterns put together as one, in order. -/
def anyPattern? : List String → Option String
  | [] => none
  | first :: rest => some (rest.foldl eitherPattern first)

variable {lexemes : OrderedMap String PatternMap} {patterns : List String}

/-- A pattern more is put behind those that were there. -/
theorem anyPattern?_append (patterns : List String) (pattern : String) :
    anyPattern? (patterns ++ [pattern]) =
      some (((anyPattern? patterns).map (eitherPattern · pattern)).getD pattern) := by
  rcases patterns with _ | ⟨first, rest⟩
  · rfl
  · rw [List.cons_append, anyPattern?, List.foldl_append]
    rfl

/-- Patterns of another namespace do not matter. -/
theorem skip?_insert_of_ne {name : String} (h : name ≠ space) (patterns : PatternMap) :
    skip? (lexemes.insert name patterns) space = skip? lexemes space := by
  unfold skip?
  rw [OrderedMap.get?_insert_of_ne _ _ h]

theorem skip?_insert_self (patterns : PatternMap) :
    skip? (lexemes.insert space patterns) space = patterns.get? skipName := by
  unfold skip?
  rw [OrderedMap.get?_insert_self]
  rfl

/-- The patterns that a namespace has so far, if any, hold what it passes over. -/
theorem get?_getD_skipName (lexemes : OrderedMap String PatternMap) (space : String) :
    ((lexemes.get? space).getD .empty).get? skipName = skip? lexemes space := by
  unfold skip?
  cases lexemes.get? space <;> rfl

theorem get?_addSkip (lexemes : PatternMap) (pattern : String) :
    (addSkip lexemes pattern).get? skipName =
      some (((lexemes.get? skipName).map (eitherPattern · pattern)).getD pattern) := by
  unfold addSkip
  rw [OrderedMap.get?_insert_self]
  cases lexemes.get? skipName <;> rfl

/-- An instruction adds a pattern to what a namespace passes over, or takes its place. -/
theorem skip?_perform (h : skip? g.lexemes space = anyPattern? patterns) (i : Instruction) :
    skip? (g.perform i).lexemes space = anyPattern? (addPattern space patterns i) := by
  cases i with
  | pragma name value => exact h
  | skip name pattern =>
    have hperform : (g.perform (.skip name pattern)).lexemes =
        g.lexemes.insert name (addSkip ((g.lexemes.get? name).getD .empty) pattern) := rfl
    rw [hperform]
    by_cases hname : name = space
    · rw [addPattern, if_pos hname, hname, skip?_insert_self, get?_addSkip, get?_getD_skipName, h,
        anyPattern?_append]
    · rw [addPattern, if_neg hname, skip?_insert_of_ne hname, h]
  | lexeme name key pattern target =>
    have hperform : (g.perform (.lexeme name key pattern target)).lexemes =
        g.lexemes.insert name
          (((g.lexemes.get? name).getD .empty).insert (lexemeKey key target) pattern) := rfl
    rw [hperform]
    by_cases hname : name = space
    · rw [hname, skip?_insert_self]
      by_cases hkey : lexemeKey key target = skipName
      · rw [addPattern, if_pos ⟨rfl, hkey⟩, hkey, OrderedMap.get?_insert_self]
        rfl
      · rw [addPattern, if_neg (fun h => hkey h.2), OrderedMap.get?_insert_of_ne _ _ hkey,
          get?_getD_skipName, h]
    · rw [addPattern, if_neg (fun h => hname h.1), skip?_insert_of_ne hname, h]

theorem skip?_foldl_perform (h : skip? g.lexemes space = anyPattern? patterns) (is : List Instruction) :
    skip? (is.foldl perform g).lexemes space = anyPattern? (is.foldl (addPattern space) patterns) := by
  induction is generalizing g patterns with
  | nil => exact h
  | cons i is ih => exact ih (skip?_perform h i)

theorem skip?_empty (space : String) : skip? Grammar.empty.lexemes space = none := by
  have hempty : Grammar.empty.lexemes =
      (OrderedMap.empty : OrderedMap String PatternMap).insert defaultSpace .empty := rfl
  rw [hempty]
  by_cases hspace : space = defaultSpace
  · rw [hspace, skip?_insert_self]
    rfl
  · rw [skip?_insert_of_ne (Ne.symm hspace)]
    rfl

/-- What a namespace of a document passes over are the patterns given for it, put together. -/
theorem skip?_of_ofDocument {text : String} (h : ofDocument text source = .ok g) (space : String) :
    skip? g.lexemes space = anyPattern? (skipPatterns space (instructionsOf text)) := by
  rw [lexemes_of_ofDocument h]
  exact skip?_foldl_perform (skip?_empty space) _

end Grammar

end Descent
