import Descent.Language
import Descent.Proofs.Search.FirstDerivation

/-!
# Soundness of parsing

Whatever the size of the window, a parse that ends well has recorded one derivation of its start
rule.  The derivation matches exactly the tokens before the one that the window stands on at the
end, each by a rule for its kind, and tokens with one index agree inside every use of a declared
rule.

Main results:

- `matchedTokens` lists the tokens of some events, and `matchedTokens_linearize` those of a
  derivation.
- `Machine.run_ok` says of any search, and `Language.trace_sound` of a parse, what its events are.
-/

namespace Descent

/-! ## Tokens of events -/

/-- The token that an event matches. -/
def Event.matched? : Event → Option MatchedToken
  | .token t => some t
  | _ => none

/-- The tokens that some events match. -/
def matchedTokens (events : List Event) : List MatchedToken :=
  events.filterMap Event.matched?

@[simp]
theorem matchedTokens_enter (c : Call) (depth : Int) (todo : Todo) (events : List Event) :
    matchedTokens (.enter c depth todo :: events) = matchedTokens events :=
  rfl

@[simp]
theorem matchedTokens_leave (c : Call) (depth : Int) (todo : Todo) (events : List Event) :
    matchedTokens (.leave c depth todo :: events) = matchedTokens events :=
  rfl

@[simp]
theorem matchedTokens_token (t : MatchedToken) (events : List Event) :
    matchedTokens (.token t :: events) = t :: matchedTokens events :=
  rfl

@[simp]
theorem matchedTokens_nil : matchedTokens [] = [] :=
  rfl

@[simp]
theorem matchedTokens_append (es fs : List Event) :
    matchedTokens (es ++ fs) = matchedTokens es ++ matchedTokens fs :=
  List.filterMap_append

namespace Derivation

mutual

/-- The tokens of a derivation with the rules that match them. -/
def leaves : Derivation → List (RuleKey × Token)
  | token key t => [(key, t)]
  | concatenation _ parts | repetition _ parts => leavesAll parts
  | choice _ _ part => leaves part

/-- The tokens of some derivations with the rules that match them. -/
def leavesAll : List Derivation → List (RuleKey × Token)
  | [] => []
  | d :: rest => leaves d ++ leavesAll rest

end

theorem mem_leavesAll {l : RuleKey × Token} {ds : List Derivation} :
    l ∈ leavesAll ds ↔ ∃ d ∈ ds, l ∈ d.leaves := by
  induction ds with
  | nil => simp [leavesAll]
  | cons d ds ih => simp [leavesAll, ih]

private theorem yieldAll_eq {ds : List Derivation}
    (h : ∀ d ∈ ds, d.yield = d.leaves.map Prod.snd) :
    yieldAll ds = (leavesAll ds).map Prod.snd := by
  induction ds with
  | nil => rfl
  | cons d ds ih =>
    rw [yieldAll, leavesAll, List.map_append, h d List.mem_cons_self,
      ih fun c hc => h c (List.mem_cons_of_mem _ hc)]

theorem yield_eq_map_leaves (d : Derivation) : d.yield = d.leaves.map Prod.snd := by
  induction d with
  | token key t => rfl
  | concatenation key parts ih => exact yieldAll_eq ih
  | choice key index part ih => exact ih
  | repetition key parts ih => exact yieldAll_eq ih

variable {m : Machine}

private theorem InTurn.matchedTokens {ds : List Derivation} {depth : Int} {es : List Event}
    (hes : InTurn m depth ds es)
    (h : ∀ d ∈ ds, ∀ todo, Descent.matchedTokens (d.linearize m depth todo) =
      d.leaves.map fun l => m.matched l.1 l.2) :
    Descent.matchedTokens es = (leavesAll ds).map fun l => m.matched l.1 l.2 := by
  induction hes with
  | nil => rfl
  | cons todo _ ih =>
    rw [leavesAll, matchedTokens_append, List.map_append, h _ List.mem_cons_self,
      ih fun c hc => h c (List.mem_cons_of_mem _ hc)]

/-- The events of a derivation match the tokens at its leaves, in order. -/
theorem matchedTokens_linearize (d : Derivation) (depth : Int) (todo : Todo) :
    matchedTokens (d.linearize m depth todo) = d.leaves.map fun l => m.matched l.1 l.2 := by
  induction d generalizing depth todo with
  | token key t => rfl
  | concatenation key parts ih =>
    simp [linearize, leaves, (inTurn_linearizeAll _ _ _).matchedTokens fun d hd => ih d hd _]
  | choice key index part ih => simp [linearize, leaves, ih]
  | repetition key parts ih =>
    simp [linearize, leaves, (inTurn_linearizeTimes _ _ _ _ _).matchedTokens fun d hd => ih d hd _]

end Derivation

/-- Tokens that agree pairwise in order agree in any order. -/
theorem Consistent.agrees {ts : List MatchedToken} (h : Consistent ts) {t u : MatchedToken}
    (ht : t ∈ ts) (hu : u ∈ ts) : t.Agrees u := by
  induction h with
  | nil => cases ht
  | cons hhead htail ih =>
    rcases List.mem_cons.1 ht with rfl | ht'
    · rcases List.mem_cons.1 hu with rfl | hu'
      · exact fun _ _ _ => rfl
      · exact hhead u hu'
    · rcases List.mem_cons.1 hu with rfl | hu'
      · exact fun index hti hui => (hhead t ht' index hui hti).symm
      · exact ih ht' hu'

namespace Machine

variable {m : Machine}

/-- The token at a leaf has the kind that its rule asks for. -/
theorem Fits.leaf {d : Derivation} (h : m.Fits d) {l : RuleKey × Token} (hl : l ∈ d.leaves) :
    ∃ r unification kept, m.rules.get? l.1 = some r ∧
      r.body = .token l.2.kind unification kept := by
  induction h with
  | token hr hbody hkind =>
    rw [Derivation.leaves, List.mem_singleton] at hl
    rw [hl]
    exact ⟨_, _, _, hr, by rw [hbody, hkind]⟩
  | concatenation hr hbody hrules hparts ih =>
    rcases Derivation.mem_leavesAll.1 hl with ⟨d, hd, hl⟩
    exact ih d hd hl
  | choice hr hbody hrule hpart ih => exact ih hl
  | repetition hr hbody hrules hmin hmax hparts ih =>
    rcases Derivation.mem_leavesAll.1 hl with ⟨d, hd, hl⟩
    exact ih d hd hl

/-- Whatever the window, a search that ends well has recorded a derivation of its rule, and stands
on the ending after the tokens of the derivation. -/
theorem run_ok {items : List (Except LexError Token)} {capacity fuel : Nat} {root : RuleKey}
    {s₀ s : State} (hinitial : m.initial items capacity root = .ok s₀)
    (hrun : m.run fuel s₀ = some (.ok s)) :
    ∃ d last rest, m.Ends items root d last rest ∧
      s.trace.reverse = d.linearize m (-1) .empty ∧ s.window.current = some (.ok last) := by
  rcases first_or_fails hinitial hrun with ⟨s', ds, hr, hgood, hfirst⟩ | ⟨⟨f, hf⟩, -⟩
  · cases hr
    rcases hfirst.path with ⟨n, hpath⟩
    rcases hpath.exists_ends hfirst.accepts with ⟨d, last, rest, hd, -, hconfig⟩
    have htrace : s.trace = (d.linearize m (-1) .empty).reverse := congrArg Config.trace hconfig
    refine ⟨d, last, rest, hd, by rw [htrace, List.reverse_reverse], ?_⟩
    have hcurrent := hgood.placed.current
    rw [htrace, matchedCount_reverse, Derivation.matchedCount_linearize, hd.items_eq,
      List.getElem?_append_right (by simp), List.length_map, Nat.sub_self] at hcurrent
    exact hcurrent
  · cases hf

end Machine

/-! ## Parses -/

/-- What a state of a text shows of a token: the kind, the value and the namespace. -/
def Token.shown (t : Token) : String × String × String :=
  (t.kind, t.value, t.space)

/-- What the event of a token shows of it. -/
def MatchedToken.shown (t : MatchedToken) : String × String × String :=
  (t.kind, t.value, t.space)

/-- The account that a parse gives of a text: one derivation of a rule, over all the tokens before
an ending. -/
structure Language.Accounts (l : Language) (text : String) (root : RuleKey) (events : List Event)
    (d : Derivation) (ts : List Token) (last : Token) : Prop where
  rule_eq : d.rule = root
  fits : l.machine.Fits d
  events_eq : events = d.linearize l.machine (-1) .empty
  items_eq : ∃ rest, l.items text = ts.map Except.ok ++ .ok last :: rest
  ending : last.isEnding = true
  /-- No token is left out and none comes twice. -/
  tokens_eq : (matchedTokens events).map MatchedToken.shown = ts.map Token.shown
  /-- Every token has the kind that its rule asks for. -/
  kinds : ∀ t ∈ matchedTokens events, ∃ r, l.rules.get? t.rule = some r ∧
    r.body = .token t.kind t.unification t.kept
  /-- Tokens with one index agree directly inside the same use of a declared rule. -/
  agree : ∀ scope ∈ d.scopes l.machine, ∀ t ∈ scope, ∀ u ∈ scope, t.Agrees u

namespace Language

variable {l : Language} {text : String}

theorem accounts_of_ends {root : RuleKey} {d : Derivation} {last : Token}
    {rest : List (Except LexError Token)} (h : l.machine.Ends (l.items text) root d last rest) :
    l.Accounts text root (d.linearize l.machine (-1) .empty) d d.yield last := by
  refine ⟨h.derives.rule_eq, h.derives.fits, rfl, ⟨rest, h.items_eq⟩, h.ending, ?_, ?_, ?_⟩
  · rw [Derivation.matchedTokens_linearize, Derivation.yield_eq_map_leaves, List.map_map,
      List.map_map]
    rfl
  · intro t ht
    rw [Derivation.matchedTokens_linearize] at ht
    rcases List.mem_map.1 ht with ⟨leaf, hleaf, rfl⟩
    rcases h.derives.fits.leaf hleaf with ⟨r, unification, kept, hr, hbody⟩
    refine ⟨r, hr, ?_⟩
    rw [Machine.matched_eq hr hbody]
    exact hbody
  · intro scope hscope t ht u hu
    exact (h.derives.unified.2 scope hscope).agrees ht hu

/-- Whatever the window, a parse that ends well gives an account of the text up to the ending that
its window stands on. -/
theorem trace_sound {start : Option String} {fuel : Nat} {events : List Event}
    (htrace : l.trace text start fuel = some (.ok events)) :
    ∃ root s₀ s d ts last, l.startRule? start = some root ∧
      l.machine.initial (l.items text) l.grammar.pragmas.lookahead root = .ok s₀ ∧
      l.machine.run fuel s₀ = some (.ok s) ∧ events = s.trace.reverse ∧
      s.window.current = some (.ok last) ∧ l.Accounts text root events d ts last := by
  unfold Language.trace at htrace
  rcases hroot : l.startRule? start with _ | root
  · rw [hroot] at htrace
    cases htrace
  · rw [hroot] at htrace
    rcases Option.map_eq_some_iff.1 htrace with ⟨r, hderive, hr⟩
    rcases Machine.search_cases (search_of_derive hderive).2 with ⟨-, f, rfl⟩ | ⟨s₀, r', hinitial, hrun, rfl⟩
    · cases hr
    · rcases r' with f | s
      · cases hr
      · cases hr
        rcases Machine.run_ok hinitial hrun with ⟨d, last, rest, hends, hevents, hcurrent⟩
        refine ⟨root, s₀, s, d, d.yield, last, rfl, hinitial, hrun, rfl, hcurrent, ?_⟩
        have haccounts := accounts_of_ends hends
        rw [← hevents] at haccounts
        exact haccounts

/-- A parse that makes a tree makes it of the events that a trace shows. -/
theorem exists_events_of_parse {start : Option String} {fuel : Nat} {t : Tree}
    (h : l.parse text start fuel = some (.ok t)) :
    ∃ root events, l.startRule? start = some root ∧ l.trace text start fuel = some (.ok events) ∧
      Tree.ofEvents l.rules root events = .ok t := by
  unfold parse at h
  rcases hroot : l.startRule? start with _ | root
  · rw [hroot] at h
    cases h
  · rw [hroot] at h
    rcases Option.map_eq_some_iff.1 h with ⟨r, hderive, hr⟩
    rcases r with f | events
    · cases hr
    · refine ⟨root, events, rfl, ?_, (ofEvents_of_treeOf hr).1⟩
      rw [trace, hroot]
      dsimp only
      rw [hderive]
      rfl

/-- A grammar of two equal letters. -/
def twins : Grammar :=
  .ofParts ⟨[("default", ⟨[("a", "a|b")]⟩)]⟩ ⟨[("#twins", "::a[0]:: ::a[0]::")]⟩ .empty

/-- Whether a text is parsed by the rules of a grammar. -/
def parses (g : Grammar) (text : String) (fuel : Nat) : Bool :=
  match ofGrammar .standard g with
  | .ok l =>
    match l.trace text none fuel with
    | some (.ok _) => true
    | _ => false
  | .error _ => false

/-- Two equal letters are parsed, and the parse gives an account of them. -/
theorem trace_sound_twins :
    ∃ l events, ofGrammar .standard twins = .ok l ∧ l.trace "aa" none 40 = some (.ok events) ∧
      ∃ root d ts last, l.Accounts "aa" root events d ts last := by
  have hparses : parses twins "aa" 40 = true := by decide +kernel
  unfold parses at hparses
  split at hparses
  · rename_i l hl
    split at hparses
    · rename_i events hevents
      rcases trace_sound hevents with ⟨root, s₀, s, d, ts, last, -, -, -, -, -, haccounts⟩
      exact ⟨l, events, hl, hevents, root, d, ts, last, haccounts⟩
    · cases hparses
  · cases hparses

end Language

end Descent
