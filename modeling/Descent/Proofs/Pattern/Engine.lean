import Mathlib.Data.List.Nodup
import Descent.Pattern.Engine
import Descent.Proofs.Pattern.Alternatives
import Descent.Proofs.Pattern.Boundary
import Descent.Proofs.Pattern.Reading
import Descent.Proofs.Token.Dialect

/-!
# What the engine of patterns promises

The engine that reads patterns keeps all that is asked of engines: its matches end in the text and
between characters, and two patterns in a group are read as alternatives of which the first one that
matches counts.

Main results:

- `engine_endsInText`: no match ends outside the text or inside a character.
- `engine_speaks`: patterns are read in a dialect of flags, groups and alternatives.
- `not_compiled_of_many`: too many patterns nest too deeply when they are joined.
-/

namespace Descent.Pattern

variable {unicode : Bool} {pattern : String} {m : Matcher} {a : Node}

theorem compile_engine_iff : engine.compile unicode pattern = .ok m ↔
    ∃ a, ofString unicode pattern = .ok a ∧ a.matcher = m := by
  simp only [engine]
  split
  · rename_i a ha
    simp [ha]
  · rename_i fault hfault
    simp [hfault]

theorem matcher_eq_some {before after : List UInt8} {stop : Nat} (h : a.matcher before after = some stop) :
    ∃ n, a.matchLength? before after = some n ∧ stop = before.length + n := by
  rcases Option.map_eq_some_iff.1 h with ⟨n, hn, rfl⟩
  exact ⟨n, hn, rfl⟩

/-- The matcher of a pattern tells where a match ends by its length. -/
theorem matchLength?_of_matcher (a : Node) (before after : List UInt8) :
    (a.matcher before after).map (· - before.length) = a.matchLength? before after := by
  rw [Node.matcher, Option.map_map]
  simp [Function.comp_def]

/-- No match ends outside the text or inside a character. -/
theorem engine_endsInText : engine.EndsInText where
  within hm h := by
    rcases compile_engine_iff.1 hm with ⟨a, -, rfl⟩
    rcases matcher_eq_some h with ⟨n, hn, rfl⟩
    have hle := Node.matchLength?_le hn
    omega
  between {pattern m front rest stop} hm h := by
    rcases compile_engine_iff.1 hm with ⟨a, ha, rfl⟩
    rcases matcher_eq_some h with ⟨n, hn, rfl⟩
    rcases Node.exists_take_of_matchLength? (keepsCharacters_of_ofString ha) hn with ⟨passed, left, rfl, htake, -⟩
    refine ⟨passed, left, rfl, ?_⟩
    have hlength := congrArg List.length htake
    rw [List.length_take, Nat.min_eq_left (Node.matchLength?_le hn)] at hlength
    rw [Text.octets_append, List.length_append, List.length_reverse, hlength]

/-! ## Alternatives that are joined -/

namespace Alternatives

variable {f : Flags} {cs : List Char} {a b : Alternatives} {before after : List UInt8}

/-- The patterns of some alternatives. -/
def nodes (a : Alternatives) : List Node :=
  a.seqs.map (·.node)

/-- Whether all alternatives are tidy. -/
def Tidy (a : Alternatives) : Prop :=
  ∀ n ∈ a.nodes, n.Tidy

theorem tidy_of_read? (h : read? f cs = some a) : a.Tidy := by
  intro n hn
  rcases List.mem_map.1 hn with ⟨s, hs, rfl⟩
  exact Pattern.tidy_of_read? h s hs

/-- Alternatives match as the first of them that matches does. -/
theorem matchLength?_nested (a : Alternatives) (before after : List UInt8) :
    a.nested.node.matchLength? before after = Node.firstMatch? before after a.nodes :=
  Node.matchLength?_ofAlternatives a.nodes before after

theorem nodes_beside (a b : Alternatives) : (a.beside b).nodes = a.nodes ++ b.nodes :=
  List.map_append

theorem nodes_joined (ha : a.Tidy) (hb : b.Tidy) : (a.joined f b).nodes = [(a.beside b).nested.node] := by
  have htidy : (a.beside b).nested.node.Tidy := by
    apply Node.composes_tidy.ofAlternatives
    have hnodes : (a.beside b).seqs.map (·.node) = a.nodes ++ b.nodes := nodes_beside a b
    rw [hnodes]
    exact List.forall_mem_append.2 ⟨ha, hb⟩
  have hnode : (Node.ofSequence [(a.beside b).nested.node]) = (a.beside b).nested.node := by
    rw [Node.ofSequence, List.flatMap_singleton, Node.ofParts_parts htidy]
  exact congrArg (fun n => [n]) hnode

/-- Two patterns that are joined match as the first one does, or else as the second one. -/
theorem matchLength?_joined (ha : a.Tidy) (hb : b.Tidy) (before after : List UInt8) :
    (a.joined f b).nested.node.matchLength? before after =
      (a.nested.node.matchLength? before after).or (b.nested.node.matchLength? before after) := by
  rw [matchLength?_nested, nodes_joined ha hb, Node.firstMatch?_cons, matchLength?_nested, nodes_beside,
    Node.firstMatch?_append, matchLength?_nested, matchLength?_nested]
  exact Option.or_none

theorem names_joined (a : Alternatives) (f : Flags) (b : Alternatives) :
    (a.joined f b).nested.names = a.nested.names ++ b.nested.names := by
  simp [joined, beside, nested, sequenceOf, Item.toNested, Nested.grouped]

theorem depthOf_le_append (as bs : List Nested) : depthOf as ≤ depthOf (as ++ bs) := by
  have hdeepest (n : Nat) : n ≤ bs.foldl (fun d a => max d a.depth) n := by
    induction bs generalizing n with
    | nil => exact Nat.le_refl n
    | cons b bs ih => exact Nat.le_trans (Nat.le_max_left n b.depth) (ih _)
  unfold depthOf
  rw [List.foldl_append, List.length_append]
  have hle := hdeepest (as.foldl (fun d a => max d a.depth) 0)
  dsimp only
  split <;> split <;> omega

/-- Patterns that are joined nest deeper than the first one does. -/
theorem depth_joined (a : Alternatives) (f : Flags) (b : Alternatives) :
    a.nested.depth < (a.joined f b).nested.depth := by
  have hdepth : (a.joined f b).nested.depth = depthOf (a.seqs ++ b.seqs) + 1 := by
    simp [joined, beside, nested, sequenceOf, Item.toNested, Nested.grouped, depthOf]
  rw [hdepth]
  exact Nat.lt_succ_of_le (depthOf_le_append a.seqs b.seqs)

/-- What alternatives are as a pattern.  A comment is taken to go on wherever comments are written. -/
def reading (a : Alternatives) : Reading Flags :=
  ⟨a.nested.node.matcher, a.flags, a.nested.names, a.flags.spaced⟩

end Alternatives

/-! ## The dialect -/

/-- The dialect that patterns are read in. -/
def dialect : Dialect where
  Flags := Flags
  initial := .initial
  read? f pattern := (read? f pattern.toList).map Alternatives.reading
  Fits unicode pattern := ∀ a, read? (.initial unicode) pattern.toList = some a →
    a.nested.depth ≤ maxDepth ∧ a.nested.node.fits = true

theorem dialect_read?_iff {f : Flags} {r : Reading Flags} :
    dialect.read? f pattern = some r ↔ ∃ a, read? f pattern.toList = some a ∧ a.reading = r :=
  Option.map_eq_some_iff

theorem allDistinct_iff {names : List String} : allDistinct names = true ↔ names.Nodup := by
  induction names with
  | nil => simp [allDistinct]
  | cons name names ih => simp [allDistinct, ih]

/-- A pattern is what is read of it within all limits. -/
theorem ofString_iff : ofString unicode pattern = .ok a ↔
    ∃ b, read? (.initial unicode) pattern.toList = some b ∧ b.nested.depth ≤ maxDepth ∧
      allDistinct b.nested.names = true ∧ b.nested.node.fits = true ∧ b.nested.node = a := by
  unfold ofString Node.ofChars?
  rcases hread : read? (.initial unicode) pattern.toList with _ | b
  · simp
  · have hkept : (unicode && !b.nested.node.keepsCharacters) = false := by
      cases unicode with
      | false => rfl
      | true => simp [Node.composes_keepsCharacters.nested (keepsCharacters_of_read? rfl hread)]
    by_cases hlimits : (decide (b.nested.depth ≤ maxDepth) && allDistinct b.nested.names) = true
    · simp only [Option.bind_some, hlimits, if_true, hkept]
      simp only [Bool.and_eq_true, decide_eq_true_eq] at hlimits
      by_cases hfits : b.nested.node.fits = true
      · simp [hfits, hlimits]
      · simp [hfits]
    · simp only [Option.bind_some, if_neg hlimits]
      simp only [Bool.and_eq_true, decide_eq_true_eq, not_and] at hlimits
      simp only [reduceCtorEq, Option.some.injEq, exists_eq_left', false_iff, not_and]
      exact fun hdepth hnames => absurd hnames (hlimits hdepth)

/-- A pattern and a further one are read as alternatives in a group. -/
theorem read?_eitherPattern {p q : String} {a b : Alternatives}
    (ha : read? (.initial unicode) p.toList = some a) (hb : read? a.flags q.toList = some b)
    (haspaced : a.flags.spaced = false) (hbspaced : b.flags.spaced = false) :
    read? (.initial unicode) (Grammar.eitherPattern p q).toList = some (a.joined (.initial unicode) b) := by
  have hsource : (Grammar.eitherPattern p q).toList = joinedChars p.toList q.toList := by
    simp [Grammar.eitherPattern, joinedChars]
  rw [hsource]
  exact read?_joined rfl ha hb haspaced hbspaced

/-- Patterns are read in the dialect. -/
theorem engine_speaks : engine.Speaks dialect where
  compile_iff {unicode pattern m} := by
    rw [compile_engine_iff]
    constructor
    · rintro ⟨a, ha, rfl⟩
      rcases ofString_iff.1 ha with ⟨b, hb, hdepth, hnames, hfits, rfl⟩
      refine ⟨b.reading, dialect_read?_iff.2 ⟨b, hb, rfl⟩, allDistinct_iff.1 hnames, ?_, rfl⟩
      intro b' hb'
      rw [hb] at hb'
      cases hb'
      exact ⟨hdepth, hfits⟩
    · rintro ⟨r, hr, hnames, hfits, rfl⟩
      rcases dialect_read?_iff.1 hr with ⟨b, hb, rfl⟩
      rcases hfits b hb with ⟨hdepth, hfits⟩
      exact ⟨_, ofString_iff.2 ⟨b, hb, hdepth, allDistinct_iff.2 hnames, hfits, rfl⟩, rfl⟩
  read_either {unicode p q a b} hp hq ha hb := by
    rcases dialect_read?_iff.1 hp with ⟨a, hfirst, rfl⟩
    rcases dialect_read?_iff.1 hq with ⟨b, hsecond, rfl⟩
    refine ⟨(a.joined (.initial unicode) b).reading,
      dialect_read?_iff.2 ⟨_, read?_eitherPattern hfirst hsecond ha hb, rfl⟩, rfl,
      a.names_joined (.initial unicode) b, rfl, fun before after => ?_⟩
    simp only [Alternatives.reading, Node.matcher]
    rw [Alternatives.matchLength?_joined (Alternatives.tidy_of_read? hfirst) (Alternatives.tidy_of_read? hsecond),
      Option.map_or]

/-! ## Levels -/

/-- Every pattern that is joined to those before it nests them deeper. -/
theorem depth_foldl_eitherPattern {first : String} {rest : List String} {a : Alternatives}
    (hfirst : read? (.initial unicode) first.toList = some a) (hflags : a.flags = .initial unicode)
    (hrest : ∀ p ∈ rest, ∃ b, read? (.initial unicode) p.toList = some b ∧ b.flags.spaced = false) :
    ∃ c, read? (.initial unicode) (rest.foldl Grammar.eitherPattern first).toList = some c ∧
      a.nested.depth + rest.length ≤ c.nested.depth := by
  induction rest generalizing first a with
  | nil => exact ⟨a, hfirst, Nat.le_refl _⟩
  | cons p rest ih =>
    rcases List.forall_mem_cons.1 hrest with ⟨⟨b, hb, hspaced⟩, hrest⟩
    have hread := read?_eitherPattern hfirst (hflags ▸ hb) (hflags ▸ rfl) hspaced
    rcases ih hread rfl hrest with ⟨c, hc, hdepth⟩
    have hdeeper := a.depth_joined (.initial unicode) b
    refine ⟨c, hc, ?_⟩
    rw [List.length_cons]
    omega

/-- More patterns than there are levels cannot be joined one after the other. -/
theorem not_compiled_of_many {first : String} {rest : List String} {a : Alternatives}
    (hfirst : read? (.initial unicode) first.toList = some a) (hflags : a.flags = .initial unicode)
    (hrest : ∀ p ∈ rest, ∃ b, read? (.initial unicode) p.toList = some b ∧ b.flags.spaced = false)
    (hmany : maxDepth < rest.length) (m : Matcher) :
    engine.compile unicode (rest.foldl Grammar.eitherPattern first) ≠ .ok m := by
  intro hm
  rcases compile_engine_iff.1 hm with ⟨n, hn, -⟩
  rcases ofString_iff.1 hn with ⟨c, hc, hlevels, -⟩
  rcases depth_foldl_eitherPattern hfirst hflags hrest with ⟨c', hc', hdepth⟩
  rw [hc] at hc'
  cases hc'
  omega

end Descent.Pattern
