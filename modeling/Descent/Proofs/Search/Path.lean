import Descent.Proofs.Search.Beginning
import Descent.Proofs.Search.Move

/-!
# Paths of a search

A path decides as it likes, and a search tries paths one after the other.  Those that begin with the
plan of a rule and come to what is planned after it are the derivations of the rule.

Main results:

- `Machine.path_of_follows`: a derivation is a path from the plan of its rule to what comes after, and
  `Machine.exists_path_of_followsPart` gives the path of a beginning.
- `Machine.Path.derivation_or_stops`: every path from the plan of a rule begins with a derivation of
  the rule, or ends inside its use with a beginning of one.
- `Machine.Path.exists_derivation`: every path to the end begins with a derivation.
-/

namespace Descent

/-! ## Tokens among the events of a derivation -/

namespace Derivation

variable {m : Machine}

private theorem InTurn.matchedCount {ds : List Derivation} {depth : Int} {es : List Event}
    (hes : InTurn m depth ds es)
    (h : ∀ d ∈ ds, ∀ todo, Descent.matchedCount (d.linearize m depth todo) = d.yield.length) :
    Descent.matchedCount es = (yieldAll ds).length := by
  induction hes with
  | nil => rfl
  | cons todo _ ih =>
    rw [yieldAll, matchedCount_append, List.length_append, h _ List.mem_cons_self,
      ih fun c hc => h c (List.mem_cons_of_mem _ hc)]

/-- The events of a derivation hold one match for every token. -/
@[simp]
theorem matchedCount_linearize (d : Derivation) (depth : Int) (todo : Todo) :
    matchedCount (d.linearize m depth todo) = d.yield.length := by
  induction d generalizing depth todo with
  | token key t => simp [linearize, yield]
  | concatenation key parts ih =>
    simp [linearize, yield, (inTurn_linearizeAll _ _ _).matchedCount fun d hd => ih d hd _]
  | choice key index part ih => simp [linearize, yield, ih]
  | repetition key parts ih =>
    simp [linearize, yield, (inTurn_linearizeTimes _ _ _ _ _).matchedCount fun d hd => ih d hd _]

@[simp]
theorem matchedCount_linearizeAll (ds : List Derivation) (depth : Int) (todo : Todo) :
    matchedCount (linearizeAll m depth todo ds) = (yieldAll ds).length :=
  (inTurn_linearizeAll ds depth todo).matchedCount fun d _ => d.matchedCount_linearize depth

@[simp]
theorem matchedCount_linearizeTimes (ds : List Derivation) (key : RuleKey) (depth : Int)
    (todo : Todo) (made : Nat) :
    matchedCount (linearizeTimes m key depth todo made ds) = (yieldAll ds).length :=
  (inTurn_linearizeTimes ds key depth todo made).matchedCount fun d _ => d.matchedCount_linearize depth

end Derivation

namespace Machine

variable {m : Machine} {items : List (Except LexError Token)} {todo : Todo} {depth : Int}
  {trace : List Event} {seen : List MatchedToken}

/-! ## Derivations of what comes next -/

/-- A derivation of the tokens that come after those matched, whose tokens pass the test after those
seen. -/
structure Follows (m : Machine) (items : List (Except LexError Token)) (trace : List Event)
    (seen : List MatchedToken) (d : Derivation) : Prop where
  fits : m.Fits d
  admits : m.Admits seen d
  tokens : d.yield.map Except.ok <+: items.drop (matchedCount trace)

/-- Derivations one after the other of the tokens that come next. -/
structure FollowAll (m : Machine) (items : List (Except LexError Token)) (trace : List Event)
    (seen : List MatchedToken) (ds : List Derivation) : Prop where
  fits : ∀ d ∈ ds, m.Fits d
  admits : m.AdmitsAll seen ds
  tokens : (Derivation.yieldAll ds).map Except.ok <+: items.drop (matchedCount trace)

private theorem append_prefix_drop_iff {α : Type} {xs ys zs : List α} {n : Nat} :
    xs ++ ys <+: zs.drop n ↔ xs <+: zs.drop n ∧ ys <+: zs.drop (n + xs.length) := by
  constructor
  · rintro ⟨rest, hrest⟩
    refine ⟨⟨ys ++ rest, by rw [← hrest, List.append_assoc]⟩, rest, ?_⟩
    rw [← List.drop_drop, ← hrest, List.append_assoc, List.drop_left]
  · rintro ⟨⟨rest, hrest⟩, hys⟩
    rw [← List.drop_drop, ← hrest, List.drop_left] at hys
    rw [← hrest]
    exact List.prefix_append_right_inj xs |>.2 hys

theorem followAll_nil (h : Consistent seen) : m.FollowAll items trace seen [] :=
  ⟨fun _ hd => absurd hd List.not_mem_nil, admitsAll_nil h, List.nil_prefix⟩

theorem followAll_cons_iff {d : Derivation} {ds : List Derivation} :
    m.FollowAll items trace seen (d :: ds) ↔
      m.Follows items trace seen d ∧
        m.FollowAll items ((d.linearize m depth todo).reverse ++ trace) (seen ++ d.direct m)
          ds := by
  have htokens : ∀ es : List Derivation,
      (Derivation.yieldAll (d :: es)).map (Except.ok (ε := LexError)) <+:
          items.drop (matchedCount trace) ↔
        d.yield.map Except.ok <+: items.drop (matchedCount trace) ∧
          (Derivation.yieldAll es).map Except.ok <+:
            items.drop (matchedCount ((d.linearize m depth todo).reverse ++ trace)) := by
    intro es
    rw [Derivation.yieldAll, List.map_append, append_prefix_drop_iff, List.length_map,
      matchedCount_append, matchedCount_reverse, Derivation.matchedCount_linearize,
      Nat.add_comm d.yield.length]
  constructor
  · rintro ⟨hfits, hadmits, hprefix⟩
    have hadmits := admitsAll_cons_iff.1 hadmits
    have hprefix := (htokens ds).1 hprefix
    exact ⟨⟨hfits d List.mem_cons_self, hadmits.1, hprefix.1⟩,
      fun e he => hfits e (List.mem_cons_of_mem _ he), hadmits.2, hprefix.2⟩
  · rintro ⟨hd, hds⟩
    refine ⟨?_, admitsAll_cons_iff.2 ⟨hd.admits, hds.admits⟩,
      (htokens ds).2 ⟨hd.tokens, hds.tokens⟩⟩
    intro e he
    rcases List.mem_cons.1 he with rfl | he
    · exact hd.fits
    · exact hds.fits e he

/-- A beginning of what comes after the tokens matched, whose tokens pass the test after those seen. -/
structure FollowsPart (m : Machine) (items : List (Except LexError Token)) (trace : List Event)
    (seen : List MatchedToken) (b : Beginning) : Prop where
  starts : m.Starts b
  admits : m.AdmitsPart seen b
  tokens : b.yield.map Except.ok <+: items.drop (matchedCount trace)

/-- The tokens of parts that are whole and of the beginning of one come next just if those of the parts
do, and those of the beginning after them. -/
private theorem tokens_upTo_iff {done : List Derivation} {part : Beginning} {es : List Event}
    (hes : matchedCount es = (Derivation.yieldAll done).length) :
    (Derivation.yieldAll done ++ part.yield).map (Except.ok (ε := LexError)) <+:
        items.drop (matchedCount trace) ↔
      (Derivation.yieldAll done).map Except.ok <+: items.drop (matchedCount trace) ∧
        part.yield.map Except.ok <+: items.drop (matchedCount (es.reverse ++ trace)) := by
  rw [List.map_append, append_prefix_drop_iff, List.length_map, matchedCount_append,
    matchedCount_reverse, hes, Nat.add_comm (Derivation.yieldAll done).length]

/-- What a beginning matches comes next just if its parts that are whole come next, and the beginning of
one after them. -/
private theorem followsPart_iff_upTo {b part : Beginning} {done : List Derivation}
    {seen' : List MatchedToken} (trace' es : List Event) (hstarts : m.Starts b)
    (hfits : ∀ d ∈ done, m.Fits d) (hpart : m.Starts part)
    (hyield : b.yield = Derivation.yieldAll done ++ part.yield)
    (hadmits : m.AdmitsPart seen b ↔ m.AdmitsUpTo seen' done part)
    (hcount : matchedCount trace' = matchedCount trace)
    (hes : matchedCount es = (Derivation.yieldAll done).length) :
    m.FollowsPart items trace seen b ↔ m.FollowAll items trace' seen' done ∧
      m.FollowsPart items (es.reverse ++ trace') (seen' ++ Derivation.directAll m done) part := by
  constructor
  · rintro ⟨-, hb, htokens⟩
    rw [hyield, ← hcount, tokens_upTo_iff hes] at htokens
    have hupTo := hadmits.1 hb
    exact ⟨⟨hfits, hupTo.1, htokens.1⟩, hpart, hupTo.2, htokens.2⟩
  · rintro ⟨hdone, hrest⟩
    refine ⟨hstarts, hadmits.2 ⟨hdone.admits, hrest.admits⟩, ?_⟩
    rw [hyield, ← hcount, tokens_upTo_iff hes]
    exact ⟨hdone.tokens, hrest.tokens⟩

/-! ## From derivations to paths -/

/-- A rule may match a token that passes the test after those seen. -/
theorem admits_token_iff_accepts {key : RuleKey} {r : Rule} {kind : String}
    {unification : Option Nat} {kept : Bool} {t : Token} (hr : m.rules.get? key = some r)
    (hbody : r.body = .token kind unification kept) (hkind : t.kind = kind)
    (hsees : Sees trace depth seen) :
    m.Admits seen (.token key t) ↔ accepts kind unification depth trace t = true := by
  rw [admits_token_iff hsees, matched_eq hr hbody]
  cases unification <;> simp [accepts, hkind]

private theorem getElem?_of_prefix {α : Type} {x : α} {xs : List α} {n : Nat}
    (h : [x] <+: xs.drop n) : xs[n]? = some x := by
  rcases h with ⟨rest, hrest⟩
  rw [← List.head?_drop, ← hrest]
  rfl

/-- A derivation of what comes next is a path from the plan of its rule to what is left. -/
private def Walks (m : Machine) (items : List (Except LexError Token)) (d : Derivation) : Prop :=
  ∀ (todo : Todo) {depth : Int} {trace : List Event} {seen : List MatchedToken},
    Sees trace depth seen → m.Follows items trace seen d →
      ∃ n, m.Path items n ⟨m.planned todo d.rule, depth, trace⟩ (d.decisions m)
        ⟨todo, depth, (d.linearize m depth todo).reverse ++ trace⟩

private theorem exists_path_all (todo : Todo) {ds : List Derivation}
    (hds : ∀ d ∈ ds, Walks m items d)
    (hsees : Sees trace depth seen) (h : m.FollowAll items trace seen ds) :
    ∃ n, m.Path items n ⟨m.plannedAll todo (ds.map Derivation.rule), depth, trace⟩
      (Derivation.decisionsAll m ds)
      ⟨todo, depth, (Derivation.linearizeAll m depth todo ds).reverse ++ trace⟩ := by
  induction ds generalizing trace seen with
  | nil => exact ⟨0, .refl _⟩
  | cons d ds ih =>
    rcases followAll_cons_iff.1 h with ⟨hd, hrest⟩
    rcases hds d List.mem_cons_self _ hsees hd with ⟨n, hhead⟩
    rcases ih (fun c hc => hds c (List.mem_cons_of_mem _ hc)) (hsees.linearize hd.admits) hrest with
      ⟨k, htail⟩
    refine ⟨n + k, ?_⟩
    rw [List.map_cons, plannedAll_cons, Derivation.decisionsAll, Derivation.linearizeAll,
      List.reverse_append, List.append_assoc]
    exact hhead.trans htail

/-- One more pass may begin where it is admitted. -/
private theorem exists_path_pass (items : List (Except LexError Token)) (todo : Todo) (depth : Int)
    (trace : List Event) {key child : RuleKey} {r : Rule} {bounds : Bounds}
    (hr : m.rules.get? key = some r) (hbody : r.body = .repetition bounds child) {made : Nat}
    (hnext : bounds.admits (made + 1) = true) :
    ∃ n, m.Path items n ⟨m.passesLeft key child todo made, depth, trace⟩
      (Derivation.passMark (bounds.min - made))
      ⟨m.planned (m.passesLeft key child todo (made + 1)) child, depth, trace⟩ := by
  have hleast := leastPasses_eq hr hbody
  by_cases hlt : made < bounds.min
  · have hmark : Derivation.passMark (bounds.min - made) = [] := by
      simp [Derivation.passMark, Nat.sub_ne_zero_of_lt hlt]
    rw [passesLeft_of_lt (by rw [hleast]; exact hlt), hmark]
    exact ⟨0, .refl _⟩
  · have hle : bounds.min ≤ made := Nat.le_of_not_lt hlt
    have hmark : Derivation.passMark (bounds.min - made) = [true] := by
      simp [Derivation.passMark, Nat.sub_eq_zero_of_le hle]
    have hgoOn : m.Path items 1 ⟨todo.push (.leave (m.use key made) true), depth, trace⟩ [true]
        ⟨todo.push (.enter (m.use key (made + 1))), depth, trace⟩ :=
      .single (by simp [use])
    have hagain : m.Path items 1 ⟨todo.push (.enter (m.use key (made + 1))), depth, trace⟩ []
        ⟨m.planned (m.passesLeft key child todo (made + 1)) child, depth, trace⟩ := by
      rw [passesLeft_of_le (by rw [hleast]; omega)]
      exact .single (by simp [moves_again hr hbody, hnext])
    rw [passesLeft_of_le (by rw [hleast]; exact hle), hmark]
    exact ⟨1 + 1, hgoOn.trans hagain⟩

/-- From where some passes have begun, further passes follow. -/
private theorem exists_path_passes (todo : Todo) {key child : RuleKey} {r : Rule} {bounds : Bounds}
    (hr : m.rules.get? key = some r) (hbody : r.body = .repetition bounds child) {made : Nat}
    {ds : List Derivation} (hds : ∀ d ∈ ds, Walks m items d)
    (hrules : ∀ d ∈ ds, d.rule = child) (hmax : bounds.admits (made + ds.length) = true)
    (hsees : Sees trace depth seen) (h : m.FollowAll items trace seen ds) :
    ∃ n es, Derivation.decisionsTimes m (bounds.min - made) ds = es ++ [false] ∧
      m.Path items n ⟨m.passesLeft key child todo made, depth, trace⟩ es
        ⟨m.passesLeft key child todo (made + ds.length), depth,
          (Derivation.linearizeTimes m key depth todo made ds).reverse ++ trace⟩ := by
  induction ds generalizing made trace seen with
  | nil => exact ⟨0, [], rfl, .refl _⟩
  | cons d ds ih =>
    rcases followAll_cons_iff.1 h with ⟨hd, hrest⟩
    obtain rfl : d.rule = child := hrules d List.mem_cons_self
    have hlength : made + (d :: ds).length = made + 1 + ds.length := by
      simp only [List.length_cons]
      omega
    rw [hlength] at hmax ⊢
    have hnext : bounds.admits (made + 1) = true := Bounds.admits_of_le hmax (by omega)
    obtain ⟨j, hpass⟩ := exists_path_pass items todo depth trace hr hbody hnext
    rcases hds d List.mem_cons_self _ hsees hd with ⟨n, hhead⟩
    obtain ⟨k, es, hes, htail⟩ := ih (fun c hc => hds c (List.mem_cons_of_mem _ hc))
      (fun c hc => hrules c (List.mem_cons_of_mem _ hc)) hmax (hsees.linearize hd.admits) hrest
    refine ⟨j + (n + k), Derivation.passMark (bounds.min - made) ++ (d.decisions m ++ es), ?_, ?_⟩
    · rw [Derivation.decisionsTimes, Nat.sub_sub, hes, List.append_assoc, List.append_assoc]
    · rw [Derivation.linearizeTimes, List.reverse_append, List.append_assoc]
      exact hpass.trans (hhead.trans htail)

/-- From where some passes have begun, further passes lead out of a repetition. -/
private theorem exists_path_times (todo : Todo) {key child : RuleKey} {r : Rule} {bounds : Bounds}
    (hr : m.rules.get? key = some r) (hbody : r.body = .repetition bounds child) {made : Nat}
    {ds : List Derivation} (hds : ∀ d ∈ ds, Walks m items d)
    (hrules : ∀ d ∈ ds, d.rule = child) (hmin : bounds.min ≤ made + ds.length)
    (hmax : bounds.admits (made + ds.length) = true) (hsees : Sees trace depth seen)
    (h : m.FollowAll items trace seen ds) :
    ∃ n, m.Path items n ⟨m.passesLeft key child todo made, depth, trace⟩
      (Derivation.decisionsTimes m (bounds.min - made) ds)
      ⟨todo, (m.use key (made + ds.length)).depthOutside depth,
        .leave (m.use key (made + ds.length)) depth todo ::
          ((Derivation.linearizeTimes m key depth todo made ds).reverse ++ trace)⟩ := by
  rcases exists_path_passes todo hr hbody hds hrules hmax hsees h with ⟨n, es, hes, hpath⟩
  have hleast : m.leastPasses key ≤ made + ds.length := by
    rw [leastPasses_eq hr hbody]
    exact hmin
  rw [passesLeft_of_le hleast] at hpath
  rw [hes]
  exact ⟨n + 1, hpath.trans (.single (by rw [moves_decision]; exact List.mem_cons_self))⟩

private theorem exists_path_skip (items : List (Except LexError Token)) (todo : Todo) (depth : Int)
    (trace : List Event) {key : RuleKey} {r : Rule} {children : List RuleKey}
    (hr : m.rules.get? key = some r) (hbody : r.body = .choice children) {index : Nat}
    (hindex : index ≤ children.length) :
    ∃ n, m.Path items n ⟨todo.push (.enter (m.use key 0)), depth, trace⟩
      (List.replicate index true) ⟨todo.push (.enter (m.use key index)), depth, trace⟩ := by
  induction index with
  | zero => exact ⟨0, .refl _⟩
  | succ index ih =>
    rcases ih (Nat.le_of_succ_le hindex) with ⟨n, hpath⟩
    have hskip : m.Path items 1 ⟨todo.push (.enter (m.use key index)), depth, trace⟩ [true]
        ⟨todo.push (.enter (m.use key (index + 1))), depth, trace⟩ :=
      .single (by simp [moves_choice hr hbody (List.getElem?_eq_getElem hindex)])
    rw [List.replicate_succ']
    exact ⟨n + 1, hpath.trans hskip⟩

private theorem path_concatenation {key : RuleKey} {r : Rule} {children : List RuleKey}
    (hr : m.rules.get? key = some r) (hbody : r.body = .concatenation children) :
    m.Path items 1 ⟨m.planned todo key, depth, trace⟩ []
      ⟨m.plannedAll (todo.push (.leave (m.use key 0) false)) children, m.depthInside key depth,
        .enter (m.use key 0) (m.depthInside key depth) .empty :: trace⟩ :=
  .single (by rw [planned, moves_concatenation hr hbody]; exact List.mem_singleton_self _)

/-- An alternative of a choice is begun when those before it have been passed over. -/
private theorem exists_path_choice {key child : RuleKey} {r : Rule} {children : List RuleKey}
    {index : Nat} (hr : m.rules.get? key = some r) (hbody : r.body = .choice children)
    (hchild : children[index]? = some child) :
    ∃ n, m.Path items n ⟨m.planned todo key, depth, trace⟩ (List.replicate index true ++ [false])
      ⟨m.planned (todo.push (.leave (m.use key 0) false)) child, m.depthInside key depth,
        .enter (m.use key index) (m.depthInside key depth)
          (todo.push (.leave (m.use key 0) false)) :: trace⟩ := by
  have hindex := (List.getElem?_eq_some_iff.1 hchild).1
  obtain ⟨n, hskip⟩ := exists_path_skip (m := m) items (todo.push (.leave (m.use key 0) false))
    depth trace hr hbody (Nat.le_of_lt hindex)
  exact ⟨n + 1, hskip.trans
    (.single (by rw [moves_choice hr hbody hchild]; exact List.mem_cons_self))⟩

private theorem path_repetition {key child : RuleKey} {r : Rule} {bounds : Bounds}
    (hr : m.rules.get? key = some r) (hbody : r.body = .repetition bounds child) :
    m.Path items 1 ⟨m.planned todo key, depth, trace⟩ []
      ⟨m.passesLeft key child todo 0, m.depthInside key depth,
        .enter (m.use key (m.leastPasses key)) (m.depthInside key depth) .empty :: trace⟩ := by
  rw [leastPasses_eq hr hbody, planned]
  exact .single (by rw [moves_repetition hr hbody]; exact List.mem_singleton_self _)

/-- The last move of a use of a rule leads back to the depth around it. -/
private theorem path_leave {key : RuleKey} {data : Nat} :
    m.Path items 1
      ⟨todo.push (.leave (m.use key data) false), m.depthInside key depth, trace⟩ []
      ⟨todo, depth, .leave (m.use key data) (m.depthInside key depth) .empty :: trace⟩ := by
  exact .single (by simp)

private theorem walks (d : Derivation) : Walks m items d := by
  induction d with
  | token key t =>
    intro todo depth trace seen hsees h
    cases h.fits with
    | token hr hbody hkind =>
      have haccepts := (admits_token_iff_accepts hr hbody hkind hsees).1 h.admits
      refine ⟨1, .single ?_⟩
      rw [Derivation.rule_token, planned, moves_token hr hbody, getElem?_of_prefix h.tokens]
      simp [haccepts, Derivation.decisions, Derivation.linearize]
  | concatenation key parts ih =>
    intro todo depth trace seen hsees h
    cases h.fits with
    | concatenation hr hbody hrules hparts =>
      have hall : m.FollowAll items
          (.enter (m.use key 0) (m.depthInside key depth) .empty :: trace)
          (m.seenInside key seen) parts :=
        ⟨hparts, (admits_concatenation_iff hsees.consistent).1 h.admits,
          by simpa [Derivation.yield] using h.tokens⟩
      rcases exists_path_all (todo.push (.leave (m.use key 0) false)) ih hsees.enter hall with
        ⟨n, hinside⟩
      rw [hrules] at hinside
      have hpath := (path_concatenation hr hbody).trans (hinside.trans path_leave)
      exact ⟨1 + (n + 1), by simpa [Derivation.decisions, Derivation.linearize] using hpath⟩
  | choice key index part ih =>
    intro todo depth trace seen hsees h
    cases h.fits with
    | choice hr hbody hchild hpart =>
      have hfollows : m.Follows items
          (.enter (m.use key index) (m.depthInside key depth)
            (todo.push (.leave (m.use key 0) false)) :: trace)
          (m.seenInside key seen) part :=
        ⟨hpart, (admits_choice_iff hsees.consistent).1 h.admits,
          by simpa [Derivation.yield] using h.tokens⟩
      obtain ⟨k, hbegin⟩ := exists_path_choice (m := m) hr hbody hchild
      rcases ih (todo.push (.leave (m.use key 0) false)) hsees.enter hfollows with ⟨n, hinside⟩
      have hpath := hbegin.trans (hinside.trans path_leave)
      exact ⟨k + (n + 1), by simpa [Derivation.decisions, Derivation.linearize] using hpath⟩
  | repetition key parts ih =>
    intro todo depth trace seen hsees h
    cases h.fits with
    | repetition hr hbody hrules hmin hmax hparts =>
      have hall : m.FollowAll items
          (.enter (m.use key (m.leastPasses key)) (m.depthInside key depth) .empty :: trace)
          (m.seenInside key seen) parts :=
        ⟨hparts, (admits_repetition_iff hsees.consistent).1 h.admits,
          by simpa [Derivation.yield] using h.tokens⟩
      obtain ⟨n, hinside⟩ := exists_path_times todo hr hbody ih hrules
        (by rw [Nat.zero_add]; exact hmin) (by rw [Nat.zero_add]; exact hmax) hsees.enter hall
      rw [← leastPasses_eq hr hbody] at hinside
      have hpath := (path_repetition hr hbody).trans hinside
      exact ⟨1 + n, by simpa [Derivation.decisions, Derivation.linearize] using hpath⟩

/-- A derivation of what comes next is a path from the plan of its rule to what is left. -/
theorem path_of_follows (todo : Todo) {d : Derivation} (hsees : Sees trace depth seen)
    (h : m.Follows items trace seen d) :
    ∃ n, m.Path items n ⟨m.planned todo d.rule, depth, trace⟩ (d.decisions m)
      ⟨todo, depth, (d.linearize m depth todo).reverse ++ trace⟩ :=
  walks d todo hsees h

theorem plannedAll_append (todo : Todo) (keys later : List RuleKey) :
    m.plannedAll todo (keys ++ later) = m.plannedAll (m.plannedAll todo later) keys :=
  List.foldr_append

private theorem exists_path_of_follows (todo : Todo) {d : Derivation} (hsees : Sees trace depth seen)
    (h : m.Follows items trace seen d) :
    ∃ n ds c, m.Path items n ⟨m.planned todo d.rule, depth, trace⟩ ds c ∧
      matchedCount c.trace = matchedCount trace + d.yield.length := by
  rcases path_of_follows todo hsees h with ⟨n, hpath⟩
  exact ⟨n, _, _, hpath, by simp [Nat.add_comm]⟩

/-- A beginning of what comes next is a path from the plan of its rule that matches its tokens. -/
theorem exists_path_of_followsPart (todo : Todo) {b : Beginning} (hsees : Sees trace depth seen)
    (h : m.FollowsPart items trace seen b) :
    ∃ n ds c, m.Path items n ⟨m.planned todo b.rule, depth, trace⟩ ds c ∧
      matchedCount c.trace = matchedCount trace + b.yield.length := by
  induction b generalizing todo depth trace seen with
  | nothing key => exact ⟨0, [], _, .refl _, rfl⟩
  | unclosed d =>
    cases h.starts with
    | unclosed hfits => exact exists_path_of_follows todo hsees ⟨hfits, h.admits, h.tokens⟩
  | whole d =>
    cases h.starts with
    | whole hfits => exact exists_path_of_follows todo hsees ⟨hfits, h.admits, h.tokens⟩
  | concatenation key done part later ih =>
    cases h.starts with
    | concatenation hr hbody hrules hfits hpart =>
      have henter : m.Path items 1 ⟨m.planned todo key, depth, trace⟩ [] _ :=
        path_concatenation hr hbody
      rw [← hrules, plannedAll_append] at henter
      generalize hleft : todo.push (.leave (m.use key 0) false) = left at henter
      have hsplit := (followsPart_iff_upTo
        (.enter (m.use key 0) (m.depthInside key depth) .empty :: trace)
        (Derivation.linearizeAll m (m.depthInside key depth)
          (m.plannedAll left (part.rule :: later)) done) h.starts hfits hpart rfl
        (admitsPart_concatenation_iff hsees.consistent) (by simp) (by simp)).1 h
      rcases exists_path_all _ (fun d _ => walks d) hsees.enter hsplit.1 with ⟨n, hdone⟩
      have hturn := Derivation.inTurn_linearizeAll (m := m) done (m.depthInside key depth)
        (m.plannedAll left (part.rule :: later))
      rcases ih (m.plannedAll left later) (hsees.enter.inTurn hturn hsplit.1.admits) hsplit.2 with
        ⟨k, ds, c, hrest, hcount⟩
      refine ⟨_, _, c, henter.trans (hdone.trans hrest), ?_⟩
      rw [hcount, Beginning.yield]
      simp
      omega
  | choice key index part ih =>
    cases h.starts with
    | choice hr hbody hrule hpart =>
      have hfollows : m.FollowsPart items
          (.enter (m.use key index) (m.depthInside key depth)
            (todo.push (.leave (m.use key 0) false)) :: trace)
          (m.seenInside key seen) part :=
        ⟨hpart, (admitsPart_choice_iff hsees.consistent).1 h.admits,
          by simpa [Beginning.yield] using h.tokens⟩
      obtain ⟨j, hbegin⟩ := exists_path_choice (m := m) hr hbody hrule
      rcases ih (todo.push (.leave (m.use key 0) false)) hsees.enter hfollows with
        ⟨k, ds, c, hrest, hcount⟩
      exact ⟨_, _, c, hbegin.trans hrest, by simpa [Beginning.yield] using hcount⟩
  | repetition key done part ih =>
    cases h.starts with
    | @repetition _ _ bounds _ _ hr hbody hrules hmax hfits hpart =>
      have hsplit := (followsPart_iff_upTo
        (.enter (m.use key (m.leastPasses key)) (m.depthInside key depth) .empty :: trace)
        (Derivation.linearizeTimes m key (m.depthInside key depth) todo 0 done) h.starts hfits hpart
        rfl (admitsPart_repetition_iff hsees.consistent) (by simp) (by simp)).1 h
      have hadmits : bounds.admits (0 + done.length) = true :=
        Bounds.admits_of_le hmax (by omega)
      rcases exists_path_passes todo hr hbody (fun d _ => walks d) hrules hadmits hsees.enter
        hsplit.1 with ⟨n, es, -, hdone⟩
      rw [Nat.zero_add] at hdone
      obtain ⟨j, hpass⟩ := exists_path_pass items todo (m.depthInside key depth)
        ((Derivation.linearizeTimes m key (m.depthInside key depth) todo 0 done).reverse ++
          .enter (m.use key (m.leastPasses key)) (m.depthInside key depth) .empty :: trace)
        hr hbody hmax
      have hturn := Derivation.inTurn_linearizeTimes (m := m) done key (m.depthInside key depth) todo 0
      rcases ih (m.passesLeft key part.rule todo (done.length + 1))
        (hsees.enter.inTurn hturn hsplit.1.admits) hsplit.2 with ⟨k, ds, c, hrest, hcount⟩
      refine ⟨_, _, c, (path_repetition hr hbody).trans (hdone.trans (hpass.trans hrest)), ?_⟩
      rw [hcount, Beginning.yield]
      simp
      omega

/-! ## From paths to derivations -/

/-- A path begins with a derivation of a rule, and fewer than `n` moves are left after it. -/
private def Begins (m : Machine) (items : List (Except LexError Token)) (n : Nat) (key : RuleKey)
    (todo : Todo) (depth : Int) (trace : List Event) (seen : List MatchedToken) (ds : List Bool)
    (c : Config) : Prop :=
  ∃ d k es, k < n ∧ d.rule = key ∧ m.Follows items trace seen d ∧ ds = d.decisions m ++ es ∧
    m.Path items k ⟨todo, depth, (d.linearize m depth todo).reverse ++ trace⟩ es c

/-- A path from the plan of a rule ends at a place inside its use, with a beginning of it. -/
structure Stops (m : Machine) (items : List (Except LexError Token)) (key : RuleKey) (todo : Todo)
    (depth : Int) (trace : List Event) (seen : List MatchedToken) (c : Config) (b : Beginning) :
    Prop where
  rule_eq : b.rule = key
  follows : m.FollowsPart items trace seen b
  trace_eq : c.trace = (b.linearize m depth todo).reverse ++ trace
  todo_ne : c.todo ≠ .empty

/-- Every path of `n` moves from the plan of a rule begins with a derivation of it, or ends inside. -/
private def Readable (m : Machine) (items : List (Except LexError Token)) (n : Nat) : Prop :=
  ∀ {todo : Todo} {key : RuleKey} {depth : Int} {trace : List Event} {seen : List MatchedToken}
    {ds : List Bool} {c : Config}, m.Path items n ⟨m.planned todo key, depth, trace⟩ ds c →
    Sees trace depth seen → Begins m items n key todo depth trace seen ds c ∨
      ∃ b, m.Stops items key todo depth trace seen c b

/-- Before any move in a use of a rule, nothing of it is matched. -/
private theorem stops_nothing {left : Todo} {step : Step} (key : RuleKey) (todo : Todo)
    (hsees : Sees trace depth seen) :
    m.Stops items key todo depth trace seen ⟨left.push step, depth, trace⟩ (.nothing key) :=
  ⟨rfl, ⟨.nothing key, ⟨by simpa [Beginning.direct] using hsees.consistent,
    fun _ hs => absurd hs List.not_mem_nil⟩, List.nil_prefix⟩, rfl, push_ne_empty _ _⟩

/-- A path through some parts ends inside one of them. -/
private def StopsAmong (m : Machine) (items : List (Except LexError Token)) (keys : List RuleKey)
    (todo : Todo) (depth : Int) (trace : List Event) (seen : List MatchedToken) (c : Config) : Prop :=
  ∃ done part later, done.map Derivation.rule ++ part.rule :: later = keys ∧
    m.FollowAll items trace seen done ∧
    m.Stops items part.rule (m.plannedAll todo later) depth
      ((Derivation.linearizeAll m depth (m.plannedAll todo (part.rule :: later)) done).reverse ++ trace)
      (seen ++ Derivation.directAll m done) c part

private theorem StopsAmong.cons {keys : List RuleKey} {d : Derivation} {c : Config}
    (hd : m.Follows items trace seen d)
    (h : StopsAmong m items keys todo depth
      ((d.linearize m depth (m.plannedAll todo keys)).reverse ++ trace) (seen ++ d.direct m) c) :
    StopsAmong m items (d.rule :: keys) todo depth trace seen c := by
  rcases h with ⟨done, part, later, rfl, hdone, hstops⟩
  refine ⟨d :: done, part, later, rfl, followAll_cons_iff.2 ⟨hd, hdone⟩, ?_⟩
  rw [Derivation.linearizeAll, Derivation.directAll, List.reverse_append, List.append_assoc,
    ← plannedAll_append, ← List.append_assoc seen]
  exact hstops

private theorem exists_followAll {n : Nat} (hn : ∀ k ≤ n, Readable m items k)
    {keys : List RuleKey} {ds : List Bool} {c : Config}
    (hpath : m.Path items n ⟨m.plannedAll todo keys, depth, trace⟩ ds c)
    (hsees : Sees trace depth seen) :
    (∃ parts k es, k ≤ n ∧ parts.map Derivation.rule = keys ∧
      m.FollowAll items trace seen parts ∧ ds = Derivation.decisionsAll m parts ++ es ∧
      m.Path items k ⟨todo, depth, (Derivation.linearizeAll m depth todo parts).reverse ++ trace⟩
        es c) ∨ StopsAmong m items keys todo depth trace seen c := by
  induction keys generalizing n trace seen ds with
  | nil => exact .inl ⟨[], n, ds, Nat.le_refl n, rfl, followAll_nil hsees.consistent, rfl, hpath⟩
  | cons key keys ih =>
    rw [plannedAll_cons] at hpath
    rcases hn n (Nat.le_refl n) hpath hsees with ⟨d, k, es, hk, rfl, hd, rfl, hrest⟩ | ⟨b, hb⟩
    · rcases ih (fun j hj => hn j (by omega)) hrest (hsees.linearize hd.admits) with
        ⟨parts, k', es', hk', rfl, hparts, rfl, hlast⟩ | hstops
      · refine .inl ⟨d :: parts, k', es', by omega, rfl, followAll_cons_iff.2 ⟨hd, hparts⟩, ?_, ?_⟩
        · rw [Derivation.decisionsAll, List.append_assoc]
        · rw [Derivation.linearizeAll, List.reverse_append, List.append_assoc]
          exact hlast
      · exact .inr (hstops.cons hd)
    · obtain rfl : b.rule = key := hb.rule_eq
      refine .inr ⟨[], b, keys, rfl, followAll_nil hsees.consistent, ?_⟩
      simpa [Derivation.linearizeAll, Derivation.directAll] using hb

/-- A path that leaves a use of a rule goes on in what is left to do. -/
private theorem exists_path_of_leave {n : Nat} {key : RuleKey} {data : Nat} {ds : List Bool}
    {c : Config}
    (hpath : m.Path items n
      ⟨todo.push (.leave (m.use key data) false), m.depthInside key depth, trace⟩ ds c) :
    c = ⟨todo.push (.leave (m.use key data) false), m.depthInside key depth, trace⟩ ∨
    ∃ k < n, m.Path items k
      ⟨todo, depth, .leave (m.use key data) (m.depthInside key depth) .empty :: trace⟩ ds c := by
  rcases hpath.stays_or_moves with rfl | ⟨k, d, es, c₁, hk, hmove, rfl, hrest⟩
  · exact .inl rfl
  · rw [moves_leave, List.mem_singleton] at hmove
    cases hmove
    rw [depthOutside_depthInside] at hrest
    exact .inr ⟨k, hk, hrest⟩

/-- Passes after `made` others by which a path leads out of a repetition. -/
private structure Passes (m : Machine) (items : List (Except LexError Token)) (bounds : Bounds)
    (child : RuleKey) (made : Nat) (trace : List Event) (seen : List MatchedToken)
    (parts : List Derivation) : Prop where
  rules : ∀ d ∈ parts, d.rule = child
  min_le : bounds.min ≤ made + parts.length
  admits_length : bounds.admits (made + parts.length) = true
  follow : m.FollowAll items trace seen parts

private theorem Passes.cons {child : RuleKey} {bounds : Bounds} {made : Nat} {d : Derivation}
    {parts : List Derivation} {left : Todo} (hrule : d.rule = child)
    (hd : m.Follows items trace seen d)
    (h : Passes m items bounds child (made + 1) ((d.linearize m depth left).reverse ++ trace)
      (seen ++ d.direct m) parts) : Passes m items bounds child made trace seen (d :: parts) := by
  have hlength : made + 1 + parts.length = made + (d :: parts).length := by
    simp only [List.length_cons]
    omega
  refine ⟨?_, ?_, ?_, followAll_cons_iff.2 ⟨hd, h.follow⟩⟩
  · intro e he
    rcases List.mem_cons.1 he with rfl | he
    · exact hrule
    · exact h.rules e he
  · rw [← hlength]
    exact h.min_le
  · rw [← hlength]
    exact h.admits_length

/-- A path of fewer than `n` moves after the first leads out of a repetition. -/
private def LeadsOut (m : Machine) (items : List (Except LexError Token)) (n : Nat)
    (key child : RuleKey) (bounds : Bounds) (todo : Todo) (c : Config) (made : Nat) (depth : Int)
    (trace : List Event) (seen : List MatchedToken) (ds : List Bool) : Prop :=
  ∃ parts j es, j < n ∧ Passes m items bounds child made trace seen parts ∧
    ds = Derivation.decisionsTimes m (bounds.min - made) parts ++ es ∧
    m.Path items j ⟨todo, (m.use key (made + parts.length)).depthOutside depth,
      .leave (m.use key (made + parts.length)) depth todo ::
        ((Derivation.linearizeTimes m key depth todo made parts).reverse ++ trace)⟩ es c

private theorem LeadsOut.cons {n : Nat} {key child : RuleKey} {bounds : Bounds} {c : Config}
    {made : Nat} {d : Derivation} {ds : List Bool} (hrule : d.rule = child)
    (hd : m.Follows items trace seen d)
    (h : LeadsOut m items n key child bounds todo c (made + 1) depth
      ((d.linearize m depth (m.passesLeft key child todo (made + 1))).reverse ++ trace)
      (seen ++ d.direct m) ds) :
    LeadsOut m items n key child bounds todo c made depth trace seen
      (Derivation.passMark (bounds.min - made) ++ (d.decisions m ++ ds)) := by
  rcases h with ⟨parts, j, es, hj, hparts, rfl, hpath⟩
  have hlength : made + 1 + parts.length = made + (d :: parts).length := by
    simp only [List.length_cons]
    omega
  refine ⟨d :: parts, j, es, hj, .cons hrule hd hparts, ?_, ?_⟩
  · rw [Derivation.decisionsTimes, Nat.sub_sub, List.append_assoc, List.append_assoc]
  · rw [← hlength, Derivation.linearizeTimes, List.reverse_append, List.append_assoc, hrule]
    exact hpath

/-- A path through further passes ends between two of them, or inside one. -/
private inductive StaysIn (m : Machine) (items : List (Except LexError Token)) (key child : RuleKey)
    (bounds : Bounds) (todo : Todo) (c : Config) (made : Nat) (depth : Int) (trace : List Event)
    (seen : List MatchedToken) : Prop
  | between (done : List Derivation) (hdone : Passes m items bounds child made trace seen done)
      (htrace : c.trace =
        (Derivation.linearizeTimes m key depth todo made done).reverse ++ trace)
      (htodo : c.todo ≠ .empty) : StaysIn m items key child bounds todo c made depth trace seen
  | inside (done : List Derivation) (part : Beginning) (hrules : ∀ d ∈ done, d.rule = child)
      (hnext : bounds.admits (made + done.length + 1) = true)
      (hdone : m.FollowAll items trace seen done)
      (hpart : m.Stops items child (m.passesLeft key child todo (made + done.length + 1)) depth
        ((Derivation.linearizeTimes m key depth todo made done).reverse ++ trace)
        (seen ++ Derivation.directAll m done) c part) :
      StaysIn m items key child bounds todo c made depth trace seen

private theorem StaysIn.cons {key child : RuleKey} {bounds : Bounds} {c : Config} {made : Nat}
    {d : Derivation} (hrule : d.rule = child) (hd : m.Follows items trace seen d)
    (h : StaysIn m items key child bounds todo c (made + 1) depth
      ((d.linearize m depth (m.passesLeft key child todo (made + 1))).reverse ++ trace)
      (seen ++ d.direct m)) :
    StaysIn m items key child bounds todo c made depth trace seen := by
  have htimes (done : List Derivation) :
      (Derivation.linearizeTimes m key depth todo made (d :: done)).reverse ++ trace =
        (Derivation.linearizeTimes m key depth todo (made + 1) done).reverse ++
          ((d.linearize m depth (m.passesLeft key child todo (made + 1))).reverse ++ trace) := by
    rw [Derivation.linearizeTimes, List.reverse_append, List.append_assoc, hrule]
  cases h with
  | between done hdone htrace htodo =>
    exact .between (d :: done) (.cons hrule hd hdone) (htrace.trans (htimes _).symm) htodo
  | inside done part hrules hnext hdone hpart =>
    have hlength : made + 1 + done.length = made + (d :: done).length := by
      simp only [List.length_cons]
      omega
    rw [hlength] at hnext hpart
    refine .inside (d :: done) part ?_ hnext (followAll_cons_iff.2 ⟨hd, hdone⟩) ?_
    · intro e he
      rcases List.mem_cons.1 he with rfl | he
      · exact hrule
      · exact hrules e he
    · rw [htimes, Derivation.directAll, ← List.append_assoc seen]
      exact hpart

/-- A path from where some passes have begun leads out of the repetition by further passes, or stays in
it. -/
private theorem leadsOut {n : Nat} (hn : ∀ k < n, Readable m items k) {key child : RuleKey}
    {r : Rule} {bounds : Bounds} (hr : m.rules.get? key = some r)
    (hbody : r.body = .repetition bounds child) {made : Nat}
    (hmade : bounds.admits (max bounds.min made) = true) {ds : List Bool} {c : Config} {k : Nat}
    (hk : k < n) (hpath : m.Path items k ⟨m.passesLeft key child todo made, depth, trace⟩ ds c)
    (hsees : Sees trace depth seen) :
    LeadsOut m items n key child bounds todo c made depth trace seen ds ∨
      StaysIn m items key child bounds todo c made depth trace seen := by
  have hleast := leastPasses_eq hr hbody
  induction k using Nat.strongRecOn generalizing made trace seen ds with
  | ind k ih =>
    -- One more pass is read off the path, and what follows it is a shorter path.
    have hpass {k' : Nat} {es : List Bool} (hk' : k' ≤ k)
        (hnext : bounds.admits (max bounds.min (made + 1)) = true)
        (hmore : m.Path items k'
          ⟨m.planned (m.passesLeft key child todo (made + 1)) child, depth, trace⟩ es c) :
        LeadsOut m items n key child bounds todo c made depth trace seen
          (Derivation.passMark (bounds.min - made) ++ es) ∨
        StaysIn m items key child bounds todo c made depth trace seen := by
      rcases hn k' (by omega) hmore hsees with ⟨d, j, fs, hj, hrule, hd, rfl, hrest⟩ | ⟨b, hb⟩
      · rcases ih j (by omega) hnext (by omega) hrest (hsees.linearize hd.admits) with hout | hin
        · exact .inl (hout.cons hrule hd)
        · exact .inr (hin.cons hrule hd)
      · refine .inr (.inside [] b (by simp) (Bounds.admits_of_le hnext (Nat.le_max_right _ (made + 1)))
          (followAll_nil hsees.consistent) ?_)
        simpa [Derivation.linearizeTimes, Derivation.directAll] using hb
    by_cases hlt : made < bounds.min
    · rw [passesLeft_of_lt (by rw [hleast]; exact hlt)] at hpath
      have hmax : max bounds.min (made + 1) = max bounds.min made := by omega
      have h := hpass (Nat.le_refl k) (by rw [hmax]; exact hmade) hpath
      simpa [Derivation.passMark, Nat.sub_ne_zero_of_lt hlt] using h
    · have hle : bounds.min ≤ made := Nat.le_of_not_lt hlt
      rw [Nat.max_eq_right hle] at hmade
      rw [passesLeft_of_le (by rw [hleast]; exact hle)] at hpath
      have hnone : Passes m items bounds child made trace seen [] :=
        ⟨by simp, hle, hmade, followAll_nil hsees.consistent⟩
      rcases hpath.stays_or_moves with rfl | ⟨j, d, es, c₁, hj, hmove, rfl, hrest⟩
      · exact .inr (.between [] hnone rfl (push_ne_empty _ _))
      rw [moves_decision, List.mem_cons, List.mem_singleton] at hmove
      rcases hmove with hstop | hgoOn
      · cases hstop
        refine .inl ⟨[], j, es, by omega, hnone, ?_, hrest⟩
        simp [Derivation.decisionsTimes]
      · cases hgoOn
        rcases hrest.stays_or_moves with rfl | ⟨j', d', es', c₂, hj', hmove', rfl, hrest'⟩
        · exact .inr (.between [] hnone rfl (push_ne_empty _ _))
        have hagain : (d', c₂) ∈
            m.moves items ⟨todo.push (.enter (m.use key (made + 1))), depth, trace⟩ := hmove'
        rw [moves_again hr hbody] at hagain
        split at hagain
        · rename_i hnext
          rw [List.mem_singleton] at hagain
          cases hagain
          have hmax : max bounds.min (made + 1) = made + 1 := by omega
          rw [← passesLeft_of_le (by rw [hleast]; omega)] at hrest'
          have h := hpass (by omega) (by rw [hmax]; exact hnext) hrest'
          simpa [Derivation.passMark, Nat.sub_eq_zero_of_le hle] using h
        · cases hagain

/-- A path that ends before the end of a use has all parts of the derivation of its rule. -/
private theorem stops_unclosed {d : Derivation} {c : Config} (hd : m.Follows items trace seen d)
    (htoken : d.isToken = false)
    (htrace : c.trace = (d.linearize m depth todo).dropLast.reverse ++ trace)
    (htodo : c.todo ≠ .empty) :
    m.Stops items d.rule todo depth trace seen c (.unclosed d) :=
  ⟨rfl, ⟨.unclosed hd.fits htoken, hd.admits, hd.tokens⟩, htrace, htodo⟩

private theorem dropLast_enter_leave {es : List Event} {e f : Event} :
    (e :: (es ++ [f])).dropLast = e :: es := by
  rw [← List.cons_append, List.dropLast_concat]

/-- The events of a beginning hold one match for every token. -/
theorem Starts.matchedCount_linearize {b : Beginning} (h : m.Starts b) :
    matchedCount (b.linearize m depth todo) = b.yield.length := by
  induction h generalizing depth todo with
  | nothing key => rfl
  | @unclosed d hd htoken =>
    cases d with
    | token key t => cases htoken
    | concatenation key parts =>
      simp [Beginning.linearize, Beginning.yield, Derivation.linearize, Derivation.yield,
        dropLast_enter_leave]
    | choice key index part =>
      simp [Beginning.linearize, Beginning.yield, Derivation.linearize, Derivation.yield,
        dropLast_enter_leave]
    | repetition key parts =>
      simp [Beginning.linearize, Beginning.yield, Derivation.linearize, Derivation.yield,
        dropLast_enter_leave]
  | whole hd => exact Derivation.matchedCount_linearize ..
  | concatenation hr hbody hrules hdone hpart ih => simp [Beginning.linearize, Beginning.yield, ih]
  | choice hr hbody hrule hpart ih => simp [Beginning.linearize, Beginning.yield, ih]
  | repetition hr hbody hrules hmax hdone hpart ih => simp [Beginning.linearize, Beginning.yield, ih]

section

variable {n : Nat} {key : RuleKey} {r : Rule} {ds : List Bool} {c : Config}

private theorem begins_token {kind : String} {unification : Option Nat} {kept : Bool}
    (hr : m.rules.get? key = some r) (hbody : r.body = .token kind unification kept)
    (hpath : m.Path items n ⟨m.planned todo key, depth, trace⟩ ds c)
    (hsees : Sees trace depth seen) : Begins m items n key todo depth trace seen ds c ∨
      ∃ b, m.Stops items key todo depth trace seen c b := by
  rcases hpath.stays_or_moves with rfl | ⟨k, d, es, c₁, hk, hmove, rfl, hrest⟩
  · exact .inr ⟨_, stops_nothing key todo hsees⟩
  rw [planned, moves_token hr hbody] at hmove
  split at hmove
  · rename_i t hitem
    split at hmove
    · rename_i haccepts
      rw [List.mem_singleton] at hmove
      cases hmove
      have hkind : t.kind = kind := (accepts_iff.1 haccepts).1
      have hadmits := (admits_token_iff_accepts hr hbody hkind hsees).2 haccepts
      have htokens : [Except.ok t] <+: items.drop (matchedCount trace) := by
        rw [List.drop_eq_getElem?_toList_append, hitem]
        exact List.prefix_append _ _
      exact .inl ⟨.token key t, k, es, hk, rfl, ⟨.token hr hbody hkind, hadmits, htokens⟩, rfl,
        hrest⟩
    · cases hmove
  · cases hmove

private theorem begins_concatenation {children : List RuleKey}
    (hn : ∀ k < n, Readable m items k) (hr : m.rules.get? key = some r)
    (hbody : r.body = .concatenation children)
    (hpath : m.Path items n ⟨m.planned todo key, depth, trace⟩ ds c)
    (hsees : Sees trace depth seen) : Begins m items n key todo depth trace seen ds c ∨
      ∃ b, m.Stops items key todo depth trace seen c b := by
  rcases hpath.stays_or_moves with rfl | ⟨k, d, es, c₁, hk, hmove, rfl, hrest⟩
  · exact .inr ⟨_, stops_nothing key todo hsees⟩
  rw [planned, moves_concatenation hr hbody, List.mem_singleton] at hmove
  cases hmove
  rcases exists_followAll (fun i hi => hn i (by omega)) hrest hsees.enter with
    ⟨parts, j, fs, hj, hrules, hparts, rfl, hlast⟩ | ⟨done, part, later, hrules, hdone, hpart⟩
  · have hfollows : m.Follows items trace seen (.concatenation key parts) :=
      ⟨.concatenation hr hbody hrules hparts.fits,
        (admits_concatenation_iff hsees.consistent).2 hparts.admits,
        by simpa [Derivation.yield] using hparts.tokens⟩
    rcases exists_path_of_leave hlast with rfl | ⟨i, hi, hend⟩
    · refine .inr ⟨_, stops_unclosed hfollows rfl ?_ (push_ne_empty _ _)⟩
      simp [Derivation.linearize, dropLast_enter_leave]
    · refine .inl ⟨.concatenation key parts, i, fs, by omega, rfl, hfollows, rfl, ?_⟩
      simpa [Derivation.linearize] using hend
  · refine .inr ⟨.concatenation key done part later, rfl, ?_, ?_, hpart.todo_ne⟩
    · have hstarts : m.Starts (.concatenation key done part later) :=
        .concatenation hr hbody hrules hdone.fits hpart.follows.starts
      exact (followsPart_iff_upTo _ _ hstarts hdone.fits hpart.follows.starts rfl
        (admitsPart_concatenation_iff hsees.consistent) (matchedCount_enter ..)
        (Derivation.matchedCount_linearizeAll ..)).2 ⟨hdone, hpart.follows⟩
    · rw [hpart.trace_eq, Beginning.linearize]
      simp

/-- A path in a choice that has passed over some alternatives takes a later one, or has passed over
more of them. -/
private theorem exists_taken {children : List RuleKey} (hr : m.rules.get? key = some r)
    (hbody : r.body = .choice children) {index : Nat}
    (hpath : m.Path items n ⟨todo.push (.enter (m.use key index)), depth, trace⟩ ds c) :
    (∃ more child k es, k < n ∧ children[index + more]? = some child ∧
      ds = List.replicate more true ++ false :: es ∧
      m.Path items k ⟨m.planned todo child, m.depthInside key depth,
        .enter (m.use key (index + more)) (m.depthInside key depth) todo :: trace⟩ es c) ∨
      ∃ later, c = ⟨todo.push (.enter (m.use key later)), depth, trace⟩ := by
  induction n using Nat.strongRecOn generalizing index ds with
  | ind n ih =>
    rcases hpath.stays_or_moves with rfl | ⟨k, d, es, c₁, hk, hmove, rfl, hrest⟩
    · exact .inr ⟨index, rfl⟩
    rcases hchild : children[index]? with _ | child
    · rw [moves_choice_of_none hr hbody hchild] at hmove
      cases hmove
    · rw [moves_choice hr hbody hchild, List.mem_cons, List.mem_singleton] at hmove
      rcases hmove with htake | hskip
      · cases htake
        exact .inl ⟨0, child, k, es, hk, hchild, rfl, hrest⟩
      · cases hskip
        rcases ih k hk hrest with ⟨more, child', j, fs, hj, hchild', rfl, hlast⟩ | hpassed
        · rw [Nat.add_assoc, Nat.add_comm 1 more] at hchild' hlast
          exact .inl ⟨more + 1, child', j, fs, by omega, hchild', rfl, hlast⟩
        · exact .inr hpassed

private theorem begins_choice {children : List RuleKey} (hn : ∀ k < n, Readable m items k)
    (hr : m.rules.get? key = some r) (hbody : r.body = .choice children)
    (hpath : m.Path items n ⟨m.planned todo key, depth, trace⟩ ds c)
    (hsees : Sees trace depth seen) : Begins m items n key todo depth trace seen ds c ∨
      ∃ b, m.Stops items key todo depth trace seen c b := by
  rcases exists_taken hr hbody hpath with ⟨index, child, k, es, hk, hchild, rfl, hrest⟩ | ⟨later, rfl⟩
  · rw [Nat.zero_add] at hchild hrest
    rcases hn k hk hrest hsees.enter with ⟨part, j, fs, hj, rfl, hpart, rfl, hlast⟩ | ⟨part, hpart⟩
    · have hfollows : m.Follows items trace seen (.choice key index part) :=
        ⟨.choice hr hbody hchild hpart.fits, (admits_choice_iff hsees.consistent).2 hpart.admits,
          by simpa [Derivation.yield] using hpart.tokens⟩
      rcases exists_path_of_leave hlast with rfl | ⟨i, hi, hend⟩
      · refine .inr ⟨_, stops_unclosed hfollows rfl ?_ (push_ne_empty _ _)⟩
        simp [Derivation.linearize, dropLast_enter_leave]
      · refine .inl ⟨.choice key index part, i, fs, by omega, rfl, hfollows, ?_, ?_⟩
        · rw [Derivation.decisions, List.append_assoc, List.cons_append]
        · simpa [Derivation.linearize] using hend
    · have hrule := hpart.rule_eq
      rw [← hrule] at hchild
      refine .inr ⟨.choice key index part, rfl, ⟨.choice hr hbody hchild hpart.follows.starts,
        (admitsPart_choice_iff hsees.consistent).2 hpart.follows.admits,
        by simpa [Beginning.yield] using hpart.follows.tokens⟩, ?_, hpart.todo_ne⟩
      rw [hpart.trace_eq, Beginning.linearize]
      simp
  · exact .inr ⟨_, stops_nothing key todo hsees⟩

private theorem begins_repetition {bounds : Bounds} {child : RuleKey}
    (hn : ∀ k < n, Readable m items k) (hr : m.rules.get? key = some r)
    (hbody : r.body = .repetition bounds child)
    (hpath : m.Path items n ⟨m.planned todo key, depth, trace⟩ ds c)
    (hsees : Sees trace depth seen) : Begins m items n key todo depth trace seen ds c ∨
      ∃ b, m.Stops items key todo depth trace seen c b := by
  rcases hpath.stays_or_moves with rfl | ⟨k, d, es, c₁, hk, hmove, rfl, hrest⟩
  · exact .inr ⟨_, stops_nothing key todo hsees⟩
  rw [planned, moves_repetition hr hbody, List.mem_singleton] at hmove
  cases hmove
  have hleast := leastPasses_eq hr hbody
  have hstart : bounds.admits (max bounds.min 0) = true := by
    rw [Nat.max_zero]
    exact bounds.admits_min
  have hwhole {parts : List Derivation}
      (hparts : Passes m items bounds child 0
        (.enter (m.use key bounds.min) (m.depthInside key depth) .empty :: trace)
        (m.seenInside key seen) parts) :
      m.Follows items trace seen (.repetition key parts) := by
    have hmin := hparts.min_le
    have hmax := hparts.admits_length
    rw [Nat.zero_add] at hmin hmax
    exact ⟨.repetition hr hbody hparts.rules hmin hmax hparts.follow.fits,
      (admits_repetition_iff hsees.consistent).2 hparts.follow.admits,
      by simpa [Derivation.yield] using hparts.follow.tokens⟩
  rcases leadsOut hn hr hbody hstart hk hrest hsees.enter with
    ⟨parts, j, fs, hj, hparts, rfl, hlast⟩ | hstays
  · rw [Nat.zero_add] at hlast
    refine .inl ⟨.repetition key parts, j, fs, by omega, rfl, hwhole hparts, ?_, ?_⟩
    · rw [Derivation.decisions, hleast, Nat.sub_zero]
      rfl
    · simpa [Derivation.linearize, hleast] using hlast
  · cases hstays with
    | between done hdone htrace htodo =>
      refine .inr ⟨_, stops_unclosed (hwhole hdone) rfl ?_ htodo⟩
      rw [htrace]
      simp [Derivation.linearize, dropLast_enter_leave, hleast]
    | inside done part hrules hnext hdone hpart =>
      rw [Nat.zero_add] at hnext hpart
      obtain rfl : part.rule = child := hpart.rule_eq
      refine .inr ⟨.repetition key done part, rfl, ?_, ?_, hpart.todo_ne⟩
      · have hstarts : m.Starts (.repetition key done part) :=
          .repetition hr hbody hrules hnext hdone.fits hpart.follows.starts
        exact (followsPart_iff_upTo _ _ hstarts hdone.fits hpart.follows.starts rfl
          (admitsPart_repetition_iff hsees.consistent) (matchedCount_enter ..)
          (Derivation.matchedCount_linearizeTimes ..)).2 ⟨hdone, hpart.follows⟩
      · rw [hpart.trace_eq, Beginning.linearize]
        simp [hleast]

end

private theorem readable (n : Nat) : Readable m items n := by
  induction n using Nat.strongRecOn with
  | ind n ih =>
    intro todo key depth trace seen ds c hpath hsees
    rcases hr : m.rules.get? key with _ | r
    · rcases hpath.stays_or_moves with rfl | ⟨k, d, es, c₁, hk, hmove, rfl, hrest⟩
      · exact .inr ⟨_, stops_nothing key todo hsees⟩
      · rw [planned, moves_unknown hr] at hmove
        cases hmove
    · cases hbody : r.body with
      | token kind unification kept => exact begins_token hr hbody hpath hsees
      | concatenation children => exact begins_concatenation ih hr hbody hpath hsees
      | choice children => exact begins_choice ih hr hbody hpath hsees
      | repetition bounds child => exact begins_repetition ih hr hbody hpath hsees

/-- Every path that starts with the plan of a rule begins with a derivation of it, or ends inside its
use. -/
theorem Path.derivation_or_stops {n : Nat} {key : RuleKey} {ds : List Bool} {c : Config}
    (h : m.Path items n ⟨m.planned todo key, depth, trace⟩ ds c) (hsees : Sees trace depth seen) :
    (∃ d k es, d.rule = key ∧ m.Follows items trace seen d ∧ ds = d.decisions m ++ es ∧
      m.Path items k ⟨todo, depth, (d.linearize m depth todo).reverse ++ trace⟩ es c) ∨
      ∃ b, m.Stops items key todo depth trace seen c b := by
  rcases readable n h hsees with ⟨d, k, es, -, hd⟩ | hstops
  · exact .inl ⟨d, k, es, hd⟩
  · exact .inr hstops

/-- Every path to the end that starts with the plan of a rule begins with a derivation of it. -/
theorem Path.exists_derivation {n : Nat} {key : RuleKey} {ds : List Bool} {c : Config}
    (h : m.Path items n ⟨m.planned todo key, depth, trace⟩ ds c) (hc : c.todo = .empty)
    (hsees : Sees trace depth seen) :
    ∃ d k es, d.rule = key ∧ m.Follows items trace seen d ∧ ds = d.decisions m ++ es ∧
      m.Path items k ⟨todo, depth, (d.linearize m depth todo).reverse ++ trace⟩ es c := by
  rcases h.derivation_or_stops hsees with hd | ⟨b, hb⟩
  · exact hd
  · exact absurd hc hb.todo_ne

end Machine

end Descent
