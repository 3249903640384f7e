import Mathlib.Data.List.Forall2
import Descent.Proofs.Search.WholeText
import Descent.Proofs.Token.Maker

/-!
# Patterns that a trace records

The event of a token records a pattern, which is found again by the namespace and the name of the token
when the token is matched.  It is the pattern that has made the token unless an earlier lexeme of the
namespace has the same name: then the event records the pattern of that lexeme, which does not match
where the token stands.

Main results:

- `Machine.representation_of_mem`: what an event records is found by the namespace and the name.
- `Language.recorded_patterns`: the events of a text record the patterns of the makers of its tokens, one
  event for each token, just where no lexeme of the name was passed by.
- `Language.records_other_pattern`: an event may record a pattern that does not match.
-/

namespace Descent

/-- What the event of a token records is found by the namespace and the name of the token. -/
theorem Machine.representation_of_mem {m : Machine} {d : Derivation} (hd : m.Fits d) {depth : Int}
    {todo : Todo} {u : MatchedToken} (hu : u ∈ matchedTokens (d.linearize m depth todo)) :
    u.representation = (m.lexicon.representation? u.space u.kind).getD "" := by
  rw [Derivation.matchedTokens_linearize] at hu
  rcases List.mem_map.1 hu with ⟨leaf, hleaf, rfl⟩
  rcases hd.leaf hleaf with ⟨r, unification, kept, hr, hbody⟩
  rw [matched_eq hr hbody]

namespace Language

variable {H : Host} {g : Grammar} {l : Language} {text : String} {start : Option String} {fuel : Nat}
  {events : List Event}

/-- The events of a text match the first of its tokens, one after the other.  Each records the pattern of
the first lexeme of its token's name, among those passed by and the one that has made the token.  Just
where none of that name was passed by is this the pattern that has made the token, and just there does
it match what the token holds. -/
theorem recorded_patterns (hl : ofGrammar H g = .ok l)
    (htrace : l.trace text start fuel = some (.ok events)) :
    ∃ ts rest, l.items text = ts.map Except.ok ++ rest ∧
      List.Forall₂ (fun u t => u.shown = t.shown ∧ ∃ passed maker length recorded,
        l.lexicon.MadeBy (Text.octets text.toList) t passed maker length ∧
        (passed ++ [maker]).find? (·.name == t.kind) = some recorded ∧
        u.representation = recorded.pattern ∧
        H.engine.compile l.lexicon.unicode u.representation = .ok recorded.matcher ∧
        (u.representation = maker.pattern ↔ ∀ l ∈ passed, l.name ≠ t.kind) ∧
        (recorded.lengthAt? (Text.octets text.toList) t.offset = some length ↔
          ∀ l ∈ passed, l.name ≠ t.kind)) (matchedTokens events) ts := by
  rcases trace_sound htrace with ⟨root, s₀, s, d, ts, last, -, -, -, -, -, haccounts⟩
  rcases haccounts.items_eq with ⟨rest, hitems⟩
  have hshown : List.Forall₂ (fun (u : MatchedToken) (t : Token) => u.shown = t.shown)
      (matchedTokens events) ts := by
    have heq := haccounts.tokens_eq
    rw [← List.forall₂_eq_eq_eq, List.forall₂_map_left_iff, List.forall₂_map_right_iff] at heq
    exact heq
  have hfound : ∀ u ∈ matchedTokens events,
      u.representation = (l.lexicon.representation? u.space u.kind).getD "" := by
    rw [haccounts.events_eq]
    exact fun u hu => Machine.representation_of_mem haccounts.fits hu
  have hmakers := Lexicon.exists_maker hitems
  refine ⟨ts, .ok last :: rest, hitems, ?_⟩
  clear hitems haccounts htrace
  generalize matchedTokens events = us at hshown hfound ⊢
  induction hshown with
  | nil => exact .nil
  | @cons u t us ts hut hrest ih =>
    rw [List.forall_mem_cons] at hfound hmakers
    refine .cons ⟨hut, ?_⟩ (ih hmakers.2 hfound.2)
    rcases hmakers.1 with ⟨passed, maker, length, hmade⟩
    rcases hmade.exists_recorded (lexicon_of_ofGrammar hl).2 with
      ⟨recorded, hfind, hlookup, hcompile, hpattern, hmatch⟩
    have hkind : u.kind = t.kind := congrArg (·.1) hut
    have hspace : u.space = t.space := congrArg (·.2.2) hut
    have hrepresentation : u.representation = recorded.pattern := by
      rw [hfound.1, hkind, hspace, hlookup, Option.getD_some]
    refine ⟨passed, maker, length, recorded, hmade, hfind, hrepresentation, ?_, ?_, hmatch⟩
    · rw [hrepresentation]
      exact hcompile
    · rw [hrepresentation]
      exact hpattern

/-- Two lexemes of one name, the first of which goes on in another namespace, which is the same one. -/
def namesakes : Grammar :=
  .ofParts ⟨[(defaultSpace, ⟨[("a:default", "x"), ("a", "y")]⟩)]⟩ ⟨[("r", "<a> <a>")]⟩ .empty

/-- Both letters are parsed, and each event records the pattern that has made its token just if no
lexeme of the name was passed by. -/
theorem recorded_patterns_namesakes :
    ∃ l events ts rest, ofGrammar .standard namesakes = .ok l ∧ l.trace "xy" none 40 = some (.ok events) ∧
      l.items "xy" = ts.map Except.ok ++ rest ∧
      List.Forall₂ (fun u t => u.shown = t.shown ∧ ∃ passed maker length,
        l.lexicon.MadeBy (Text.octets "xy".toList) t passed maker length ∧
        (u.representation = maker.pattern ↔ ∀ l ∈ passed, l.name ≠ t.kind))
        (matchedTokens events) ts := by
  have hparses : parses namesakes "xy" 40 = true := by decide +kernel
  unfold parses at hparses
  split at hparses
  · rename_i l hl
    split at hparses
    · rename_i events hevents
      rcases recorded_patterns hl hevents with ⟨ts, rest, hitems, hrecorded⟩
      refine ⟨l, events, ts, rest, hl, hevents, hitems, hrecorded.imp ?_⟩
      rintro u t ⟨hshown, passed, maker, length, recorded, hmade, -, -, -, hpattern, -⟩
      exact ⟨hshown, passed, maker, length, hmade, hpattern⟩
    · cases hparses
  · cases hparses

/-- What the events of a text record, with the values matched, and the lexemes of a namespace with what they match
at an offset of the text. -/
def recordsAt (g : Grammar) (text : String) (offset fuel : Nat) :
    Option (List (String × String) × List (String × Option Nat)) :=
  match ofGrammar .standard g with
  | .ok l =>
    match l.trace text none fuel, l.lexicon.lexemes? defaultSpace with
    | some (.ok events), some ls =>
      some ((matchedTokens events).map fun u => (u.value, u.representation),
        ls.map fun l => (l.pattern, l.lengthAt? (Text.octets text.toList) offset))
    | _, _ => none
  | .error _ => none

/-- The second letter is made by the second lexeme, and its event records the pattern of the first
one, which does not match there. -/
theorem records_other_pattern :
    ∃ l events first second ls, ofGrammar .standard namesakes = .ok l ∧
      l.trace "xy" none 40 = some (.ok events) ∧
      matchedTokens events = [first, second] ∧ l.lexicon.lexemes? defaultSpace = some ls ∧
      ls.map (fun l => (l.pattern, l.lengthAt? (Text.octets "xy".toList) 1)) =
        [("x", none), ("y", some 1)] ∧
      second.value = "y" ∧ second.representation = "x" := by
  have hrecords : recordsAt namesakes "xy" 1 40 =
      some ([("x", "x"), ("y", "x")], [("x", none), ("y", some 1)]) := by
    decide +kernel
  unfold recordsAt at hrecords
  split at hrecords
  · rename_i l hl
    split at hrecords
    · rename_i events ls hevents hls
      rw [Option.some.injEq, Prod.mk.injEq] at hrecords
      rcases hus : matchedTokens events with _ | ⟨first, _ | ⟨second, _ | ⟨third, us⟩⟩⟩
      all_goals simp [hus] at hrecords
      exact ⟨l, events, first, second, ls, hl, hevents, hus, hls, hrecords.2, hrecords.1.2⟩
    · cases hrecords
  · cases hrecords

end Language

end Descent
