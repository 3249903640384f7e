import Descent.Proofs.Rule.Appended
import Descent.Proofs.Search.MoreRules
import Descent.Proofs.Tree.Independence

/-!
# Grammars with one more rule

A rule under a new name that is declared after all others does not disturb them: their rules, with the
numbers of their parts, stay as they are, and no search for one of them ever looks at the new rule.

Main results:

- `Builder.readEvents_congr` and `LinkedBuilder.readEvents_congr`: a tree is made of the rules that its
  events enter.
- `Language.Widens` says that a language has the rules of another one, and `Language.Widens.derive_eq`
  that it derives texts in the same way.
- `Language.undisturbed_of_declaring`: what one more rule leaves as it is.
-/

namespace Descent

/-! ## Trees of events -/

/-- Two tables have the same rules wherever some events enter one. -/
def RuleTable.AgreeOn (rules rules' : RuleTable) (events : List Event) : Prop :=
  ∀ call depth left, .enter call depth left ∈ events → rules'.get? call.rule = rules.get? call.rule

section

variable {rules rules' : RuleTable} {events : List Event} {root : RuleKey}

theorem RuleTable.AgreeOn.tail {e : Event} (h : rules.AgreeOn rules' (e :: events)) :
    rules.AgreeOn rules' events :=
  fun call depth left hmem => h call depth left (List.mem_cons_of_mem _ hmem)

theorem Builder.readEvents_congr (h : rules.AgreeOn rules' events) (skipping : Bool) (b : Builder) :
    readEvents rules' skipping b events = readEvents rules skipping b events := by
  induction events generalizing skipping b with
  | nil => rfl
  | cons e events ih =>
    have hread := ih h.tail
    unfold readEvents
    cases e with
    | token t => simp only [hread]
    | leave call depth left => simp only [hread]
    | enter call depth left => simp only [hread, h call depth left List.mem_cons_self]

theorem LinkedBuilder.readEvents_congr (h : rules.AgreeOn rules' events) (skipping : Bool)
    (b : LinkedBuilder) : readEvents rules' skipping b events = readEvents rules skipping b events := by
  induction events generalizing skipping b with
  | nil => rfl
  | cons e events ih =>
    have hread := ih h.tail
    unfold readEvents
    cases e with
    | token t => simp only [hread]
    | leave call depth left => simp only [hread]
    | enter call depth left => simp only [hread, h call depth left List.mem_cons_self]

theorem Tree.ofEvents_congr (h : rules.AgreeOn rules' events)
    (hroot : rules'.get? root = rules.get? root) :
    ofEvents rules' root events = ofEvents rules root events := by
  have htrees (ts : List Tree) : ofTrees rules' root ts = ofTrees rules root ts := by
    unfold ofTrees
    rw [hroot]
  simp only [ofEvents, Builder.readEvents_congr h, htrees]

theorem LinkedTree.ofEvents_congr (h : rules.AgreeOn rules' events)
    (hroot : rules'.get? root = rules.get? root) :
    ofEvents rules' root events = ofEvents rules root events := by
  have hnodes (a : Arena) (is : List Nat) : ofNodes rules' root a is = ofNodes rules root a is := by
    unfold ofNodes
    rw [hroot]
  simp only [ofEvents, LinkedBuilder.readEvents_congr h, hnodes]

end

namespace Language

variable {H : Host} {g : Grammar} {l l' : Language} {root : RuleKey} {key body : String} {rules rules' : RuleTable}

/-! ## Languages with more rules -/

/-- A language has the rules of another one first, and the same lexicon and window. -/
structure Widens (l l' : Language) : Prop where
  lexicon_eq : l'.lexicon = l.lexicon
  pragmas_eq : l'.grammar.pragmas = l.grammar.pragmas
  itemSize_eq : l'.itemSize = l.itemSize
  rules : OrderedMap.Extends l.rules l'.rules

theorem Widens.machine (h : l.Widens l') : l.machine.Widens l'.machine :=
  ⟨h.lexicon_eq, fun _ hkey => h.rules.get? hkey⟩

/-- A text is derived in the same way from a rule that is there. -/
theorem Widens.derive_eq (h : l.Widens l') (hclosed : l.rules.Closed) (hroot : l.rules.get? root ≠ none)
    (text : String) (fuel : Nat) : l'.derive text root fuel = l.derive text root fuel := by
  have hitems : l'.items text = l.items text := by rw [items, items, h.lexicon_eq]
  have hroom : l'.hasRoom = l.hasRoom := by rw [hasRoom, hasRoom, h.pragmas_eq, h.itemSize_eq]
  rw [derive, derive, hitems, hroom, h.pragmas_eq,
    Machine.search_eq_of_widens h.machine hclosed hroot]

theorem Widens.errorOf_eq (h : l.Widens l') (text : String) : l'.errorOf text = l.errorOf text := by
  funext f
  unfold errorOf
  rw [h.lexicon_eq]

/-- The events of a derivation are all of rules that both languages have. -/
theorem Widens.agreeOn (h : l.Widens l') (hclosed : l.rules.Closed) {text : String} {fuel : Nat}
    {events : List Event} (hevents : l.derive text root fuel = some (.ok events)) :
    l.rules.AgreeOn l'.rules events := by
  intro call depth left hmem
  have hsearch := (search_of_derive hevents).2
  have hrecorded := Machine.recorded_of_search (m := l.machine) hclosed hsearch _ hmem
  exact h.rules.get? hrecorded.1

/-- A parse and its trace are the same from a rule that is there. -/
theorem Widens.parse_eq_of_startRule? (h : l.Widens l') (hclosed : l.rules.Closed)
    (hroot : l.rules.get? root ≠ none) {start : Option String}
    (hstart : l.startRule? start = some root) (hstart' : l'.startRule? start = some root)
    (text : String) (fuel : Nat) :
    l'.trace text start fuel = l.trace text start fuel ∧
      l'.parse text start fuel = l.parse text start fuel ∧
      l'.parseLinked text start fuel = l.parseLinked text start fuel := by
  rw [trace, trace, parse, parse, parseLinked, parseLinked, hstart, hstart', h.errorOf_eq]
  dsimp only
  rw [h.derive_eq hclosed hroot]
  rcases hderive : l.derive text root fuel with _ | (f | events)
  · exact ⟨rfl, rfl, rfl⟩
  · exact ⟨rfl, rfl, rfl⟩
  · have hagree := h.agreeOn hclosed hderive
    have hthere : l'.rules.get? root = l.rules.get? root := h.rules.get? hroot
    refine ⟨rfl, ?_, ?_⟩
    · simp only [Option.map_some, treeOf, Tree.ofEvents_congr hagree hthere,
        LinkedTree.ofEvents_congr hagree hthere, h.errorOf_eq]
    · simp only [Option.map_some, LinkedTree.ofEvents_congr hagree hthere]

/-! ## One more rule -/

/-- A grammar with one more rule compiles to a language with its rules and the same lexicon. -/
theorem ofGrammar_declaring (hl : ofGrammar H g = .ok l)
    (h : (g.declaring key body).rules = .ok rules') :
    ofGrammar H (g.declaring key body) =
      .ok ⟨g.declaring key body, l.lexicon, rules', H.itemSize⟩ := by
  have hlexicon : (g.declaring key body).lexicon H.engine = .ok l.lexicon :=
    (lexicon_of_ofGrammar hl).2
  rw [ofGrammar, h]
  dsimp only
  rw [ofRules, hlexicon]

/-- A parse starts from the same rule, unless it is asked to start from the new one. -/
theorem startRule?_of_declaring (hnew : bareRuleName key ∉ g.ruleNames) (h : g.rules = .ok l.rules)
    (h' : (g.declaring key body).rules = .ok l'.rules) {start : Option String}
    (hstart : start ≠ some (bareRuleName key)) (hroot : l'.rules.root? = l.rules.root?) :
    l'.startRule? start = l.startRule? start := by
  unfold startRule?
  rw [hroot]
  rcases start with _ | name
  · rfl
  · have hother : name ≠ bareRuleName key := fun hsame => hstart (congrArg some hsame)
    have hcontains : l'.rules.contains (.named name) = l.rules.contains (.named name) := by
      rw [Bool.eq_iff_iff, OrderedMap.contains_iff_mem_keys, OrderedMap.contains_iff_mem_keys,
        Grammar.named_mem_keys_iff h, Grammar.named_mem_keys_iff h',
        Grammar.ruleNames_declaring hnew, List.mem_append, List.mem_singleton]
      exact or_iff_left hother
    dsimp only
    rw [hcontains]

/-- One more rule at the end of a grammar, under a name that is not declared yet, disturbs nothing: the
rules before stay as they are, in their order, and so does the rule that a parse starts from.  A text is
parsed as before unless the parse is asked to start from the new rule. -/
theorem undisturbed_of_declaring (hnew : bareRuleName key ∉ g.ruleNames) (h : g.rules = .ok rules)
    (h' : (g.declaring key body).rules = .ok rules') :
    rules.entries <+: rules'.entries ∧ rules'.root? = rules.root? ∧
      ∀ H l, ofGrammar H g = .ok l → ∃ l', ofGrammar H (g.declaring key body) = .ok l' ∧
        ∀ text start fuel, start ≠ some (bareRuleName key) →
          l'.trace text start fuel = l.trace text start fuel ∧
          l'.parse text start fuel = l.parse text start fuel ∧
          l'.parseLinked text start fuel = l.parseLinked text start fuel := by
  have hextends := Grammar.extends_of_declaring hnew h h'
  have hroot : rules'.root? = rules.root? := by
    rcases Grammar.exists_root_of_rules h with ⟨root, hroot, -⟩
    rw [hroot, RuleTable.root?_of_extends hextends hroot]
  refine ⟨hextends, hroot, fun H l hl => ?_⟩
  refine ⟨_, ofGrammar_declaring hl h', fun text start fuel hstart => ?_⟩
  have hrules : l.rules = rules := by
    have hboth := rules_of_ofGrammar hl
    rw [h] at hboth
    exact (Except.ok.inj hboth).symm
  have hgrammar := (lexicon_of_ofGrammar hl).1
  subst hrules
  have hwidens : l.Widens ⟨g.declaring key body, l.lexicon, rules', H.itemSize⟩ :=
    ⟨rfl, by rw [hgrammar]; rfl, (itemSize_of_ofGrammar hl).symm, hextends⟩
  rcases exists_startRule hl start with ⟨root, hsame, hthere⟩
  have hsame' : startRule? ⟨g.declaring key body, l.lexicon, rules', H.itemSize⟩ start = some root :=
    (startRule?_of_declaring hnew h h' hstart hroot).trans hsame
  exact hwidens.parse_eq_of_startRule? (Grammar.closed_of_rules h) hthere hsame hsame' text fuel

/-- A grammar of words of letters. -/
def letterWords : Grammar :=
  .ofParts ⟨[("default", ⟨[("a", "a"), ("b", "b")]⟩)]⟩
    ⟨[("word", "letter() (<b> | letter())*"), ("#letter", "<a>")]⟩ .empty

/-- A rule that calls those before it makes no difference to them. -/
theorem undisturbed_of_declaring_pair :
    ∃ l l', ofGrammar .standard letterWords = .ok l ∧
      ofGrammar .standard (letterWords.declaring "#pair" "word() (<b> | letter())?") = .ok l' ∧
      l.rules.entries <+: l'.rules.entries ∧
      l'.parse "aba" none 200 = l.parse "aba" none 200 ∧
      l'.trace "a" (some "letter") 200 = l.trace "a" (some "letter") 200 := by
  have hok : (ofGrammar .standard letterWords).isOk = true := by decide +kernel
  have hok' : (letterWords.declaring "#pair" "word() (<b> | letter())?").rules.isOk = true := by
    decide +kernel
  rcases hl : ofGrammar .standard letterWords with e | l
  · rw [hl] at hok
    cases hok
  rcases hrules' : (letterWords.declaring "#pair" "word() (<b> | letter())?").rules with e | rules'
  · rw [hrules'] at hok'
    cases hok'
  have hnew : bareRuleName "#pair" ∉ letterWords.ruleNames := by decide
  obtain ⟨hextends, -, hundisturbed⟩ :=
    undisturbed_of_declaring hnew (rules_of_ofGrammar hl) hrules'
  rcases hundisturbed .standard l hl with ⟨l', hl', hsame⟩
  have hboth := rules_of_ofGrammar hl'
  rw [hrules'] at hboth
  refine ⟨l, l', rfl, hl', Except.ok.inj hboth ▸ hextends, ?_, ?_⟩
  · exact (hsame "aba" none 200 (by decide)).2.1
  · exact (hsame "a" (some "letter") 200 (by decide)).1

end Language

end Descent
