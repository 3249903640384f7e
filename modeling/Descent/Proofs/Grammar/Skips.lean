import Descent.Proofs.Grammar.Instructions
import Descent.Proofs.Pattern.Engine

/-!
# What a namespace passes over

The patterns of what a namespace passes over become one, in which each of them is an alternative
after those that were there before.  For every engine that speaks a dialect the whole matches as the
first of them that matches, if none of them matters for how another one is read.

Main results:

- `Grammar.skips_of_ofDocument`: what a namespace passes over is what the first of its patterns
  matches that does.
- `Grammar.skips_not_apart`: what one pattern says about flags, the names it gives, and a comment that
  it leaves open hold for the others too, and the more there are, the deeper they nest.
-/

namespace Descent

namespace Grammar

variable {g : Grammar} {text source space first : String} {rest : List String}

/-- What a namespace of a document passes over is a pattern, if each of the patterns given for it is one
and they are joinable.  It matches where one of them does on its own, and as far as the first one that
does. -/
theorem skips_of_ofDocument {E : Engine} {D : Dialect} (hE : E.Speaks D) (unicode : Bool)
    (hdoc : ofDocument text source = .ok g)
    (hskips : skipPatterns space (instructionsOf text) = first :: rest)
    (hvalid : ∀ p ∈ first :: rest, ∃ m, E.compile unicode p = .ok m)
    (hjoin : D.Joinable unicode first rest) :
    ∃ stored m, skip? g.lexemes space = some stored ∧ E.compile unicode stored = .ok m ∧
      ∀ before after,
        ((m before after).isSome = true ↔
          ∃ p ∈ first :: rest, (E.match? unicode before after p).isSome = true) ∧
        m before after = (first :: rest).findSome? (E.match? unicode before after) := by
  have hstored : skip? g.lexemes space = some (rest.foldl eitherPattern first) := by
    rw [skip?_of_ofDocument hdoc, hskips, anyPattern?]
  rcases hE.compile_foldl_eitherPattern hvalid hjoin with ⟨m, hm, hmatch⟩
  refine ⟨_, m, hstored, hm, fun before after => ⟨?_, hmatch before after⟩⟩
  rw [hmatch, List.findSome?_isSome_iff]

/-- A document in which comments of two kinds and newlines are passed over. -/
def commentDocument : String :=
  "%skip line //[a-z]*\n%skip block /\\*[a-z]*\\*/\n%skip newline \\n\n%token a a\n"

theorem isOk_commentDocument : (ofDocument commentDocument "comments").isOk = true := by
  decide +kernel

/-- These patterns can be put together. -/
theorem joinable_comments : Pattern.dialect.Joinable true "//[a-z]*" ["/\\*[a-z]*\\*/", "\\n"] := by
  constructor
  · intro _ r hr
    rcases Pattern.dialect_read?_iff.1 hr with ⟨a, ha, rfl⟩
    have hflags :
        ((Pattern.read? (.initial true) "//[a-z]*".toList).all (·.flags == .initial true)) = true := by
      decide +kernel
    rw [show Pattern.read? (.initial true) "//[a-z]*".toList = some a from ha] at hflags
    show a.flags = Pattern.Flags.initial true
    simpa using hflags
  · intro _ p hp r hr
    rcases Pattern.dialect_read?_iff.1 hr with ⟨a, ha, rfl⟩
    have hclosed : ∀ p ∈ ["//[a-z]*", "/\\*[a-z]*\\*/", "\\n"],
        ((Pattern.read? (.initial true) p.toList).all (!·.flags.spaced)) = true := by
      decide +kernel
    have hclosed := hclosed p hp
    rw [show Pattern.read? (.initial true) p.toList = some a from ha] at hclosed
    show a.flags.spaced = false
    simpa using hclosed
  · decide +kernel
  · intro a ha
    have hfits :
        ((Pattern.read? (.initial true)
          (["/\\*[a-z]*\\*/", "\\n"].foldl eitherPattern "//[a-z]*").toList).all
          fun a => a.nested.depth ≤ Pattern.maxDepth && a.nested.node.fits) = true := by
      decide +kernel
    rw [ha] at hfits
    simpa using hfits

/-- In that document the pattern put together matches a comment of the second kind as its own pattern
does. -/
theorem skips_commentDocument :
    ∃ g stored m, ofDocument commentDocument "comments" = .ok g ∧
      skip? g.lexemes defaultSpace = some stored ∧ Pattern.engine.compile true stored = .ok m ∧
      m (Text.octets ['a']) (Text.octets "/*ab*/".toList) = some 7 := by
  have hskips : skipPatterns defaultSpace (instructionsOf commentDocument) =
      ["//[a-z]*", "/\\*[a-z]*\\*/", "\\n"] := by
    decide +kernel
  have hvalid : ∀ p ∈ ["//[a-z]*", "/\\*[a-z]*\\*/", "\\n"],
      ∃ m, Pattern.engine.compile true p = .ok m := by
    have hok : ∀ p ∈ ["//[a-z]*", "/\\*[a-z]*\\*/", "\\n"],
        (Pattern.engine.compile true p).isOk = true := by
      decide +kernel
    intro p hp
    have hp := hok p hp
    rcases hm : Pattern.engine.compile true p with e | m
    · rw [hm] at hp
      cases hp
    · exact ⟨m, rfl⟩
  rcases hdoc : ofDocument commentDocument "comments" with e | g
  · have hok := isOk_commentDocument
    rw [hdoc] at hok
    cases hok
  · rcases skips_of_ofDocument Pattern.engine_speaks true hdoc hskips hvalid joinable_comments with
      ⟨stored, m, hstored, hm, hmatch⟩
    refine ⟨g, stored, m, rfl, hstored, hm, ?_⟩
    rw [(hmatch _ _).2]
    decide +kernel

/-- What the start of a document passes over. -/
def startSkip? (text : String) : Option String :=
  (ofDocument text "").toOption.bind (skip? ·.lexemes defaultSpace)

open Pattern (engine)

/-- Patterns that are put together do not always match as the first of them that matches does on its
own: the first one may set a flag for the later ones, names may clash, a comment may run on, and there
may be too many of them. -/
theorem skips_not_apart :
    (startSkip? "%skip a (?i)x\n%skip b y\n" = some "(?:(?i)x|y)" ∧
      engine.match? true [] (Text.octets ['Y']) "(?:(?i)x|y)" = some 1 ∧
      engine.match? true [] (Text.octets ['Y']) "(?i)x" = none ∧
      engine.match? true [] (Text.octets ['Y']) "y" = none) ∧
    (startSkip? "%skip a (?P<n>x)\n%skip b (?P<n>y)\n" = some "(?:(?P<n>x)|(?P<n>y))" ∧
      (engine.compile true "(?P<n>x)").isOk = true ∧ (engine.compile true "(?P<n>y)").isOk = true ∧
      (engine.compile true "(?:(?P<n>x)|(?P<n>y))").isOk = false) ∧
    (startSkip? "%skip a x\n%skip b (?x)y#\n" = some "(?:x|(?x)y#)" ∧
      (engine.compile true "x").isOk = true ∧ (engine.compile true "(?x)y#").isOk = true ∧
      (engine.compile true "(?:x|(?x)y#)").isOk = false) ∧
    ∃ stored, anyPattern? (List.replicate 252 "x") = some stored ∧
      ∀ m, engine.compile true stored ≠ .ok m := by
  refine ⟨by decide +kernel, by decide +kernel, by decide +kernel, _, rfl, fun m => ?_⟩
  have hread :
      ((Pattern.read? (.initial true) "x".toList).any fun a => a.flags == .initial true) = true := by
    decide +kernel
  rcases (Option.any_eq_true _ _).1 hread with ⟨a, ha, hflags⟩
  have hflags : a.flags = .initial true := beq_iff_eq.1 hflags
  refine Pattern.not_compiled_of_many ha hflags (fun p hp => ?_) ?_ m
  · rw [List.eq_of_mem_replicate hp]
    exact ⟨a, ha, hflags ▸ rfl⟩
  · rw [List.length_replicate]
    decide

end Grammar

end Descent
