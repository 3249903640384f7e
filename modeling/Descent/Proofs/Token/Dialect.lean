import Mathlib.Data.List.Forall2
import Descent.Grammar.Document
import Descent.Token.Engine

/-!
# Dialects of patterns

What an engine makes of a written pattern depends on flags that hold where the pattern starts, and a
pattern may set flags for what comes after it.  A dialect says how patterns are read.  An engine that
keeps to a dialect promises two things: a pattern compiles if it is read, gives no name twice and stays
within limits; and two patterns in a group with a bar between them are alternatives, of which the first
one that matches counts, where the flags that the first pattern sets hold up to the end of the group.

Main results:

- `Dialect` says how patterns are read, and `Engine.Speaks` that an engine keeps to it.
- `Engine.match?` is the match of a pattern on its own.
- `Engine.Speaks.compile_foldl_eitherPattern`: patterns that are joinable compile to one that matches as
  the first of them that matches.
-/

namespace Descent

open Grammar (eitherPattern)

/-- What a written pattern is read as. -/
structure Reading (Flags : Type) where
  matcher : Matcher
  /-- The flags that hold at its end. -/
  flags : Flags
  /-- The names of its groups. -/
  names : List String
  /-- Whether something written behind the pattern may still belong to it, as to a comment that has
  not ended. -/
  endsOpen : Bool

/-- How patterns are read. -/
structure Dialect where
  Flags : Type
  /-- The flags that hold at the start of a pattern over characters or over octets. -/
  initial : (unicode : Bool) → Flags
  /-- Reads a pattern at whose start some flags hold. -/
  read? : Flags → String → Option (Reading Flags)
  /-- Whether a pattern stays within the limits of nesting and size. -/
  Fits : (unicode : Bool) → String → Prop

/-- The names of the groups of a pattern. -/
def Dialect.names (D : Dialect) (unicode : Bool) (pattern : String) : List String :=
  ((D.read? (D.initial unicode) pattern).map (·.names)).getD []

/-- An engine keeps to a dialect. -/
structure Engine.Speaks (E : Engine) (D : Dialect) : Prop where
  compile_iff {unicode : Bool} {pattern : String} {m : Matcher} :
    E.compile unicode pattern = .ok m ↔
      ∃ r, D.read? (D.initial unicode) pattern = some r ∧ r.names.Nodup ∧ D.Fits unicode pattern ∧
        r.matcher = m
  /-- The second alternative is read with the flags that the first one leaves; behind the group those
  from before it hold again. -/
  read_either {unicode : Bool} {p q : String} {a b : Reading D.Flags}
    (hp : D.read? (D.initial unicode) p = some a) (hq : D.read? a.flags q = some b)
    (ha : a.endsOpen = false) (hb : b.endsOpen = false) :
    ∃ c, D.read? (D.initial unicode) ("(?:" ++ p ++ "|" ++ q ++ ")") = some c ∧
      c.flags = D.initial unicode ∧ c.names = a.names ++ b.names ∧ c.endsOpen = false ∧
      ∀ before after,
        c.matcher before after = (a.matcher before after).or (b.matcher before after)

/-- The offset at which a pattern's match ends, on its own. -/
def Engine.match? (E : Engine) (unicode : Bool) (before after : List UInt8) (pattern : String) :
    Option Nat :=
  match E.compile unicode pattern with
  | .ok m => m before after
  | .error _ => none

/-- Patterns can be put together so that none of them matters for how another one is read. -/
structure Dialect.Joinable (D : Dialect) (unicode : Bool) (first : String) (rest : List String) :
    Prop where
  /-- The first one of several leaves the flags as they are. -/
  flags : rest ≠ [] → ∀ r, D.read? (D.initial unicode) first = some r → r.flags = D.initial unicode
  /-- None of several ends in an open comment. -/
  closed : rest ≠ [] → ∀ p ∈ first :: rest, ∀ r, D.read? (D.initial unicode) p = some r →
    r.endsOpen = false
  /-- No name is given twice. -/
  names : ((first :: rest).flatMap (D.names unicode)).Nodup
  fits : D.Fits unicode (rest.foldl eitherPattern first)

namespace Engine.Speaks

variable {E : Engine} {D : Dialect} {unicode : Bool} {first : String} {rest : List String}
  {a : Reading D.Flags} {rs : List (Reading D.Flags)}

/-- Patterns that are put together are read as alternatives in order, where the first one leaves the
flags as they are and no comment is left open. -/
theorem read_foldl_eitherPattern (hE : E.Speaks D)
    (hfirst : D.read? (D.initial unicode) first = some a)
    (hrest : List.Forall₂ (fun p r => D.read? (D.initial unicode) p = some r) rest rs)
    (hflags : rest ≠ [] → a.flags = D.initial unicode) (hopen : rest ≠ [] → a.endsOpen = false)
    (hclosed : ∀ p ∈ rest, ∀ r, D.read? (D.initial unicode) p = some r → r.endsOpen = false) :
    ∃ c, D.read? (D.initial unicode) (rest.foldl eitherPattern first) = some c ∧
      c.names = (a :: rs).flatMap (·.names) ∧
      ∀ before after, c.matcher before after = (a :: rs).findSome? (·.matcher before after) := by
  induction hrest generalizing first a with
  | nil => exact ⟨a, hfirst, by simp, by simp⟩
  | @cons p r rest rs hp hrest ih =>
    rcases List.forall_mem_cons.1 hclosed with ⟨hclosedp, hclosed⟩
    have hleft := hflags (List.cons_ne_nil p rest)
    rcases hE.read_either hfirst (hleft ▸ hp) (hopen (List.cons_ne_nil p rest)) (hclosedp r hp) with
      ⟨c, hc, hflags', hnames, hopen', hmatch⟩
    rcases ih hc (fun _ => hflags') (fun _ => hopen') hclosed with ⟨d, hd, hdnames, hdmatch⟩
    refine ⟨d, hd, ?_, fun before after => ?_⟩
    · rw [hdnames, List.flatMap_cons, hnames, List.append_assoc]
      rfl
    · rw [hdmatch, List.findSome?_cons, List.findSome?_cons, List.findSome?_cons, hmatch]
      cases a.matcher before after <;> rfl

theorem match?_eq (hE : E.Speaks D) {pattern : String} {r : Reading D.Flags}
    (hvalid : ∃ m, E.compile unicode pattern = .ok m)
    (hr : D.read? (D.initial unicode) pattern = some r) (before after : List UInt8) :
    E.match? unicode before after pattern = r.matcher before after := by
  rcases hvalid with ⟨m, hm⟩
  rcases hE.compile_iff.1 hm with ⟨r', hr', -, -, rfl⟩
  rw [hr, Option.some.injEq] at hr'
  rw [match?, hm, hr']

/-- Patterns each of which compiles are all read. -/
theorem exists_readings (hE : E.Speaks D) {patterns : List String}
    (hvalid : ∀ p ∈ patterns, ∃ m, E.compile unicode p = .ok m) :
    ∃ rs, List.Forall₂ (fun p r => D.read? (D.initial unicode) p = some r) patterns rs := by
  induction patterns with
  | nil => exact ⟨[], .nil⟩
  | cons p patterns ih =>
    rcases List.forall_mem_cons.1 hvalid with ⟨⟨m, hm⟩, hvalid⟩
    rcases hE.compile_iff.1 hm with ⟨r, hr, -⟩
    rcases ih hvalid with ⟨rs, hrs⟩
    exact ⟨r :: rs, .cons hr hrs⟩

theorem findSome?_match? (hE : E.Speaks D) {patterns : List String}
    (hvalid : ∀ p ∈ patterns, ∃ m, E.compile unicode p = .ok m)
    (hrs : List.Forall₂ (fun p r => D.read? (D.initial unicode) p = some r) patterns rs)
    (before after : List UInt8) :
    patterns.findSome? (E.match? unicode before after) = rs.findSome? (·.matcher before after) := by
  induction hrs with
  | nil => rfl
  | cons hr hrs ih =>
    rcases List.forall_mem_cons.1 hvalid with ⟨hp, hvalid⟩
    rw [List.findSome?_cons, List.findSome?_cons, hE.match?_eq hp hr, ih hvalid]

theorem flatMap_names {patterns : List String}
    (hrs : List.Forall₂ (fun p r => D.read? (D.initial unicode) p = some r) patterns rs) :
    patterns.flatMap (D.names unicode) = rs.flatMap (·.names) := by
  induction hrs with
  | nil => rfl
  | cons hr hrs ih =>
    rw [List.flatMap_cons, List.flatMap_cons, ih, Dialect.names, hr, Option.map_some, Option.getD_some]

/-- Patterns that are joinable, each of which compiles, compile together, and match as the first of
them that matches on its own. -/
theorem compile_foldl_eitherPattern (hE : E.Speaks D)
    (hvalid : ∀ p ∈ first :: rest, ∃ m, E.compile unicode p = .ok m)
    (hjoin : D.Joinable unicode first rest) :
    ∃ m, E.compile unicode (rest.foldl eitherPattern first) = .ok m ∧
      ∀ before after, m before after = (first :: rest).findSome? (E.match? unicode before after) := by
  rcases hE.exists_readings hvalid with ⟨_, hreads⟩
  cases hreads with
  | @cons _ a _ rs hfirst hrest =>
    have hreads : List.Forall₂ (fun p r => D.read? (D.initial unicode) p = some r) (first :: rest)
        (a :: rs) := .cons hfirst hrest
    rcases hE.read_foldl_eitherPattern hfirst hrest (fun hne => hjoin.flags hne a hfirst)
      (fun hne => hjoin.closed hne first List.mem_cons_self a hfirst)
      (fun p hp => hjoin.closed (List.ne_nil_of_mem hp) p (List.mem_cons_of_mem first hp)) with
      ⟨c, hc, hnames, hmatch⟩
    have hnodup : c.names.Nodup := by
      rw [hnames, ← flatMap_names hreads]
      exact hjoin.names
    refine ⟨c.matcher, hE.compile_iff.2 ⟨c, hc, hnodup, hjoin.fits, rfl⟩, fun before after => ?_⟩
    rw [hmatch, hE.findSome?_match? hvalid hreads]

end Engine.Speaks

end Descent
