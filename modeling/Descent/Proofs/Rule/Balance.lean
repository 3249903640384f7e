import Descent.Proofs.Rule.Compiled
import Descent.Proofs.Rule.Course
import Descent.Proofs.Token.Ending

/-!
# Bodies that are let through

A body that compiles need not be one of the grammar of bodies: a group that does not go through is
no part, and what was read of it stays read.  But each such group leaves a parenthesis open, so a
body that compiles and has as many closing as opening parentheses is of the grammar.

Main results:

- `exists_signs`: the signs of a body come to one ending, or to an error.
- `Compilation.says_of_course`: what the signs say that compiling goes through.
- `Grammar.reads_iff_balanced`: among the bodies that compile, those with as many closing as opening
  parentheses are just those of the grammar of bodies.
-/

namespace Descent

/-! ## The signs of a body -/

/-- The kinds of tokens that stand for signs. -/
def signKinds : List String :=
  (bodyLexemes.map Prod.fst).filter (· != skipName)

private theorem mem_signKinds_of_bodyLexicon :
    (bodyLexicon.spaces.entries.all fun e =>
      e.2.all fun l => l.name == skipName || signKinds.contains l.name) = true := by
  decide +kernel

/-- A lexeme that is not for skipping stands for a sign. -/
theorem mem_signKinds {space : String} {l : Lexeme}
    (hl : l ∈ (bodyLexicon.lexemes? space).getD []) (hkept : (l.name != skipName) = true) :
    l.name ∈ signKinds := by
  rcases hget : bodyLexicon.lexemes? space with _ | ls
  · rw [hget] at hl
    cases hl
  · rw [hget] at hl
    have hentry := OrderedMap.mem_entries_of_get? hget
    have hall := List.all_eq_true.1
      (List.all_eq_true.1 mem_signKinds_of_bodyLexicon _ hentry) l hl
    simpa [bne_iff_ne.1 hkept] using hall

theorem Sign.ofToken_ne_ending {t : Token} (h : t.kind ∈ signKinds) :
    Sign.ofToken t ≠ .ending := by
  have hkinds : signKinds = ["or", "zero_or_one", "one_or_more", "zero_or_more", "n_to_m",
      "zero_to_m", "n_or_more", "exactly_n", "skipped", "kept", "named", "node", "capturing_",
      "_capturing"] := by
    decide
  rw [hkinds] at h
  unfold Sign.ofToken
  simp only [List.mem_cons, List.not_mem_nil, or_false] at h
  rcases h with h | h | h | h | h | h | h | h | h | h | h | h | h | h <;> simp [h]

/-- The signs of a body: the last one is the ending or an error, and no other is the ending. -/
theorem exists_signs (body : String) :
    ∃ (ws : List WrittenSign) (last : Except LexError WrittenSign),
      signsOf body = ws.map Except.ok ++ [last] ∧ (∀ w ∈ ws, w.sign ≠ .ending) ∧
        ∀ w, last = .ok w → w.sign = .ending := by
  rcases bodyLexicon.exists_items (Text.octets body.toList) with ⟨ts, last, hends⟩
  refine ⟨ts.map fun t => ⟨.ofToken t, t.value⟩, last.map fun t => ⟨.ofToken t, t.value⟩,
    ?_, ?_, ?_⟩
  · rw [signsOf, hends.items_eq, List.map_append, List.map_map, List.map_map]
    rfl
  · intro w hw
    rcases List.mem_map.1 hw with ⟨t, ht, rfl⟩
    rcases hends.cuts t ht with ⟨⟨s, l, n, -, hl, -, rfl⟩, hkeep⟩
    exact Sign.ofToken_ne_ending (mem_signKinds hl hkeep)
  · intro w hw
    rcases hends.isLast with rfl | ⟨e, rfl⟩
    · cases hw
      rfl
    · cases hw

/-- As many parentheses close as open. -/
def Balanced (ss : List Sign) : Prop :=
  ss.count .closing = ss.count .opening

theorem Phrase.balanced {p : BodyPart} (a : Phrase p) : Balanced a.signs := by
  have hbounds (bounds : Option Bounds) : Balanced (boundSigns bounds) := by
    cases bounds <;> rfl
  have hnode (node : Option String) : Balanced (nodeSigns node) := by
    cases node <;> rfl
  unfold Balanced at hbounds hnode ⊢
  induction a with
  | lastBranch _ ih | lastPart _ ih => exact ih
  | branch _ _ iha ihb => simp [signs, iha, ihb]
  | part _ _ iha ihb => simp [signs, iha, ihb]
  | item _ bounds node ih => simp [signs, ih, hbounds bounds, hnode node]
  | group _ ih => simp [signs, ih]
  | token kind index kept => rfl
  | call name => rfl

theorem Reads.balanced {kinds names : List String} {p : BodyPart} {ss : List Sign} {e : Expression}
    (h : Reads kinds names p ss e) : Balanced ss := by
  rcases h.exists_phrase with ⟨a, rfl, -, -⟩
  exact a.balanced

/-! ## What follows a part -/

theorem Reads.after {kinds names : List String} {e : Expression} (bounds : Option Bounds)
    (node : Option String) {ss : List Sign}
    (h : Reads kinds names .simple ss e) :
    ∃ e, Reads kinds names .repetition (ss ++ (boundSigns bounds ++ nodeSigns node)) e := by
  cases bounds with
  | none => exact ⟨_, .once node h⟩
  | some bounds => exact ⟨_, .repeated bounds node h⟩

/-- What follows a part has no parentheses. -/
theorem count_after (bounds : Option Bounds) (node : Option String) :
    (boundSigns bounds ++ nodeSigns node).count .closing = 0 ∧
      (boundSigns bounds ++ nodeSigns node).count .opening = 0 := by
  cases bounds <;> cases node <;> exact ⟨rfl, rfl⟩

namespace Compilation

variable {s : BodyScope} {c c₁ c₂ : Compilation} {pending pending₁ : Pending} {key : RuleKey}
  {key? : Option RuleKey} {ss ts : List Sign}

/-! ## Signs that are read -/

/-- The signs that are read from one state to another; the ending is not read. -/
def Consumes (c c₁ : Compilation) (ss : List Sign) : Prop :=
  ∃ ws : List WrittenSign, c.cursor.remaining = ws.map Except.ok ++ c₁.cursor.remaining ∧
    ws.map WrittenSign.sign = ss ∧ .ending ∉ ss

theorem Consumes.refl (c : Compilation) : Consumes c c [] :=
  ⟨[], rfl, rfl, List.not_mem_nil⟩

theorem Consumes.trans (h : Consumes c c₁ ss) (h₁ : Consumes c₁ c₂ ts) :
    Consumes c c₂ (ss ++ ts) := by
  rcases h with ⟨ws, hws, rfl, hend⟩
  rcases h₁ with ⟨vs, hvs, rfl, hend₁⟩
  refine ⟨ws ++ vs, ?_, List.map_append, ?_⟩
  · rw [hws, hvs, List.map_append, List.append_assoc]
  · rw [List.mem_append, not_or]
    exact ⟨hend, hend₁⟩

/-- Only the cursor decides what is read. -/
theorem Consumes.of_cursor (h : Consumes c c₁ ss) (hcursor : c₂.cursor = c₁.cursor) :
    Consumes c c₂ ss := by
  rcases h with ⟨ws, hws, hsigns⟩
  exact ⟨ws, by rw [hws, hcursor], hsigns⟩

theorem consumes_advance {w : WrittenSign} (hw : c.current s = .ok w) (hsign : w.sign ≠ .ending) :
    Consumes c c.advance [w.sign] := by
  refine ⟨[w], ?_, rfl, ?_⟩
  · unfold Compilation.current Lookahead.current at hw
    rcases hremaining : c.cursor.remaining with _ | ⟨item, rest⟩
    · rw [hremaining] at hw
      cases hw
      exact absurd rfl hsign
    · rw [hremaining] at hw
      cases item with
      | error e => cases hw
      | ok w' =>
        cases hw
        simp [advance, Lookahead.advance, hremaining]
  · rw [List.mem_singleton]
    exact Ne.symm hsign

theorem cursor_sequence (c : Compilation) (keys : List RuleKey) (pending : Pending) :
    (c.sequence keys pending).2.cursor = c.cursor := by
  unfold sequence
  split
  · rfl
  · rfl

theorem cursor_alternatives (c : Compilation) (keys : List RuleKey) :
    (c.alternatives keys).2.cursor = c.cursor := by
  unfold alternatives
  split
  · rfl
  · rfl

/-! ## What follows a part -/

/-- What follows a part and goes through is a mark of repetition and the name of a node, each of
which may be missing. -/
theorem consumes_afterPart {child : RuleKey}
    (h : c.afterPart s child pending = .ok (key?, pending₁, c₁)) :
    ∃ (bounds : Option Bounds) (node : Option String),
      Consumes c c₁ (boundSigns bounds ++ nodeSigns node) := by
  rcases exists_of_afterPart h with ⟨numbers, c₂, c₃, key, hquantifier, hname, hrepeat, -⟩
  obtain ⟨node, hnode⟩ : ∃ node, Consumes c₂ c₃ (nodeSigns node) := by
    rcases nodeMark_cases hname with ⟨-, rfl⟩ | ⟨w, id, hw, hsign, -, rfl⟩
    · exact ⟨none, .refl _⟩
    · have hread := consumes_advance hw (by simp [hsign])
      rw [hsign] at hread
      exact ⟨some id, hread⟩
  rcases quantifier_cases hquantifier with ⟨rfl, rfl⟩ | ⟨w, numbers, hw, hsign, rfl, rfl⟩
  · cases hrepeat
    exact ⟨none, node, hnode⟩
  · have hread := consumes_advance hw (by simp [hsign])
    rw [hsign] at hread
    rcases repeatPart_cases hrepeat with ⟨hnone, -⟩ | ⟨bounds, hnumbers, hpart⟩
    · cases hnone
    · cases hnumbers
      cases hpart
      exact ⟨some bounds, node, hread.trans (hnode.of_cursor rfl)⟩

/-! ## What the signs say -/

/-- What the signs say that a task has read.  A part that is missing has left a parenthesis open, if
it has read anything at all. -/
def Reading (s : BodyScope) : Task → Option RuleKey → List Sign → Prop
  | .simple _, none, ss => ss = [] ∨ ss.count .closing < ss.count .opening
  | .simple _, some _, ss => Balanced ss → ∃ e, Reads s.kinds s.names .simple ss e
  | .concatenation done _, some _, ss =>
    Balanced ss → done ≠ [] ∧ ss = [] ∨ ∃ e, Reads s.kinds s.names .concatenation ss e
  | .choice _ _, some _, ss => Balanced ss → ∃ e, Reads s.kinds s.names .choice ss e
  | .concatenation _ _, none, _ | .choice _ _, none, _ => True

/-- Signs that a task has read, with no more closing than opening parentheses. -/
structure Says (s : BodyScope) (task : Task) (c : Compilation) (key? : Option RuleKey)
    (c₁ : Compilation) (ss : List Sign) : Prop where
  read : Consumes c c₁ ss
  closing_le : ss.count .closing ≤ ss.count .opening
  reading : Reading s task key? ss

namespace Says

variable {child : RuleKey} {done : List RuleKey} {pending₂ branchId : Pending} {c₃ : Compilation}
  {w w₁ : WrittenSign}

theorem idle (task : Task) (c : Compilation) : Says s task c none c [] where
  read := .refl c
  closing_le := Nat.le_refl _
  reading := by
    cases task with
    | simple pending => exact .inl rfl
    | concatenation done pending => trivial
    | choice done pending => trivial

theorem token {ref : Option (String × Option Nat)} {kept : Bool} (hw : c.current s = .ok w)
    (hsign : w.sign = .token ref kept) (hkey : c.reference s ref kept w.written = .ok (key, c₁)) :
    Says s (.simple pending) c (some key) c₁.advance [w.sign] := by
  rcases exists_of_reference hkey with ⟨kind, index, rfl, hkind, hpart⟩
  cases hpart
  refine ⟨(consumes_advance hw (by simp [hsign])).of_cursor rfl, by simp [hsign], fun _ => ?_⟩
  rw [hsign]
  exact ⟨_, .token index kept hkind⟩

theorem call {name : String} (hw : c.current s = .ok w) (hsign : w.sign = .call name)
    (hkey : c.call s name = .ok (key, c₁)) : Says s (.simple pending) c (some key) c₁ [w.sign] := by
  rcases call_cases hkey with ⟨hname, hpart⟩
  have hcursor : c₁.cursor = c.advance.cursor := by
    rcases hpart with hpart | hpart
    · cases hpart
      rfl
    · cases hpart
      rfl
  refine ⟨(consumes_advance hw (by simp [hsign])).of_cursor hcursor, by simp [hsign], fun _ => ?_⟩
  rw [hsign]
  exact ⟨_, .call hname⟩

/-- Where a parenthesis that opens is not closed, the part is missing. -/
theorem unclosed (hw : c.current s = .ok w) (hopening : w.sign = .opening)
    (h : Says s (.choice [] pending) c.advance key? c₁ ss) :
    Says s (.simple pending₁) c none c₁ ([w.sign] ++ ss) := by
  have hle := h.closing_le
  refine ⟨(consumes_advance hw (by simp [hopening])).trans h.read, ?_, .inr ?_⟩
  · simp [hopening]
    omega
  · simp [hopening]
    omega

theorem group (hw : c.current s = .ok w) (hopening : w.sign = .opening)
    (h : Says s (.choice [] pending) c.advance (some key) c₁ ss) (hw₁ : c₁.current s = .ok w₁)
    (hclosing : w₁.sign = .closing) :
    Says s (.simple pending₁) c (some key) c₁.advance ([w.sign] ++ (ss ++ [w₁.sign])) := by
  refine ⟨?_, ?_, fun hbalanced => ?_⟩
  · exact (consumes_advance hw (by simp [hopening])).trans
      (h.read.trans (consumes_advance hw₁ (by simp [hclosing])))
  · have hle := h.closing_le
    simp [hopening, hclosing]
    omega
  · have hinner : Balanced ss := by
      simpa [Balanced, hopening, hclosing] using hbalanced
    rcases h.reading hinner with ⟨e, he⟩
    rw [hopening, hclosing]
    exact ⟨e, .group he⟩

theorem part (h : Says s (.simple pending) c (some child) c₁ ss)
    (hafter : c₁.afterPart s child pending₁ = .ok (some key, pending₂, c₂))
    (hrest : Says s (.concatenation (key :: done) pending₂) c₂ key? c₃ ts) :
    ∃ us, Says s (.concatenation done pending) c key? c₃ us := by
  rcases consumes_afterPart hafter with ⟨bounds, node, hmark⟩
  have hsigns := count_after bounds node
  have hle := h.closing_le
  have hle₁ := hrest.closing_le
  refine ⟨(ss ++ (boundSigns bounds ++ nodeSigns node)) ++ ts, (h.read.trans hmark).trans hrest.read,
    ?_, ?_⟩
  · simp only [List.count_append] at hsigns ⊢
    omega
  · cases key? with
    | none => trivial
    | some key' =>
      intro hbalanced
      simp only [Balanced, List.count_append] at hsigns hbalanced
      rcases h.reading (by unfold Balanced; omega) with ⟨a, ha⟩
      rcases ha.after bounds node with ⟨a', ha'⟩
      rcases hrest.reading (by unfold Balanced; omega) with ⟨-, rfl⟩ | ⟨b, hb⟩
      · rw [List.append_nil]
        exact .inr ⟨a', .lastPart ha'⟩
      · exact .inr ⟨_, .part ha' hb⟩

/-- Where no part follows, the parts that are done are all. -/
theorem parts (h : Says s (.simple pending) c none c₁ ss) (hdone : done ≠ [])
    (hcursor : c₂.cursor = c₁.cursor) : Says s (.concatenation done pending) c (some key) c₂ ss := by
  refine ⟨h.read.of_cursor hcursor, h.closing_le, fun hbalanced => .inl ⟨hdone, ?_⟩⟩
  rcases h.reading with hnil | hlt
  · exact hnil
  · exact absurd hbalanced (Nat.ne_of_lt hlt)

theorem branch (h : Says s (.concatenation [] pending) c (some key) c₁ ss)
    (hcursor : c₂.cursor = c₁.cursor) (hw : c₂.current s = .ok w) (hbar : w.sign = .bar)
    (hrest : Says s (.choice (key :: done) pending) c₂.advance key? c₃ ts) :
    Says s (.choice done pending) c key? c₃ (ss ++ ([w.sign] ++ ts)) := by
  have hle := h.closing_le
  have hle₁ := hrest.closing_le
  have hread := consumes_advance hw (by simp [hbar])
  refine ⟨(h.read.of_cursor hcursor).trans (hread.trans hrest.read), ?_, ?_⟩
  · simp [hbar]
    omega
  · cases key? with
    | none => trivial
    | some key' =>
      intro hbalanced
      simp only [Balanced, List.count_append, hbar] at hbalanced
      simp at hbalanced
      rcases h.reading (by unfold Balanced; omega) with ⟨hdone, -⟩ | ⟨a, ha⟩
      · exact absurd rfl hdone
      · rcases hrest.reading (by unfold Balanced; omega) with ⟨b, hb⟩
        rw [hbar]
        exact ⟨_, .branch ha hb⟩

theorem branches {key' : RuleKey} (h : Says s (.concatenation [] pending) c (some key) c₁ ss)
    (hcursor : c₂.cursor = c₁.cursor) : Says s (.choice done pending) c (some key') c₂ ss := by
  refine ⟨h.read.of_cursor hcursor, h.closing_le, fun hbalanced => ?_⟩
  rcases h.reading hbalanced with ⟨hdone, -⟩ | ⟨e, he⟩
  · exact absurd rfl hdone
  · exact ⟨e, .lastBranch he⟩

end Says

/-- Compiling reads no more closing than opening parentheses, and where it reads as many, what the
grammar of bodies reads. -/
theorem says_of_course {task : Task} (h : Course s task c key? pending c₁) :
    ∃ ss, Says s task c key? c₁ ss := by
  induction h with
  | idle task c => exact ⟨_, .idle task c⟩
  | other => exact ⟨_, .idle _ _⟩
  | token hw hsign hkey => exact ⟨_, .token hw hsign hkey⟩
  | call hw hsign hkey => exact ⟨_, .call hw hsign hkey⟩
  | emptyGroup hw hopening _ ih | openGroup hw hopening _ _ _ ih =>
    rcases ih with ⟨ss, hinside⟩
    exact ⟨_, hinside.unclosed hw hopening⟩
  | group hw hopening _ hw₁ hclosing ih =>
    rcases ih with ⟨ss, hinside⟩
    exact ⟨_, hinside.group hw hopening hw₁ hclosing⟩
  | part _ hafter _ ih ihrest =>
    rcases ih with ⟨ss, hpart⟩
    rcases ihrest with ⟨ts, hrest⟩
    exact hpart.part hafter hrest
  | noPart _ ih | noBranch _ ih =>
    rcases ih with ⟨ss, hnone⟩
    exact ⟨ss, hnone.read, hnone.closing_le, trivial⟩
  | parts _ hdone ih =>
    rcases ih with ⟨ss, hnone⟩
    exact ⟨ss, hnone.parts hdone (cursor_sequence _ _ _)⟩
  | branch _ hw hbar _ ih ihrest =>
    rcases ih with ⟨ss, hbranch⟩
    rcases ihrest with ⟨ts, hrest⟩
    exact ⟨_, hbranch.branch (cursor_nameWaiting _ _ _) hw hbar hrest⟩
  | branches _ _ _ ih =>
    rcases ih with ⟨ss, hbranch⟩
    exact ⟨ss, hbranch.branches ((cursor_alternatives _ _).trans (cursor_nameWaiting _ _ _))⟩

/-! ## Bodies that compile -/

/-- Where everything was read of a body up to an ending, only the ending is left. -/
theorem remaining_of_expectEnd {body : String} {ws : List WrittenSign}
    (hread : signsOf body = ws.map Except.ok ++ c.cursor.remaining)
    (hnone : .ending ∉ ws.map WrittenSign.sign) (hend : c.expectEnd s = .ok ()) :
    ∃ w, c.cursor.remaining = [.ok w] ∧ w.sign = .ending := by
  obtain ⟨w, hw, hsign⟩ : ∃ w, c.current s = .ok w ∧ w.sign = .ending := by
    unfold expectEnd at hend
    split at hend
    · cases hend
    · rename_i w hw
      split at hend
      · rename_i hsign
        exact ⟨w, hw, hsign⟩
      · cases hend
  rcases exists_signs body with ⟨vs, last, hsigns, hvs, hlast⟩
  have hlastRead : c.cursor.remaining = [last] → ∃ w, c.cursor.remaining = [.ok w] ∧
      w.sign = .ending := by
    intro hremaining
    cases last with
    | error e => simp [Compilation.current, Lookahead.current, hremaining] at hw
    | ok v => exact ⟨v, hremaining, hlast v rfl⟩
  rcases List.append_eq_append_iff.1 (hread.symm.trans hsigns) with
    ⟨as, hvs', hremaining⟩ | ⟨bs, hws, hrest⟩
  · cases as with
    | nil => exact hlastRead hremaining
    | cons item as =>
      -- a sign that is still to be read before the last one is no ending
      have hitem : item ∈ vs.map Except.ok := by
        rw [hvs']
        exact List.mem_append_right _ List.mem_cons_self
      rcases List.mem_map.1 hitem with ⟨v, hv, rfl⟩
      have hcurrent : v = w := by
        simpa [Compilation.current, Lookahead.current, hremaining] using hw
      exact absurd (hcurrent ▸ hsign) (hvs v hv)
  · cases bs with
    | nil => exact hlastRead hrest.symm
    | cons item bs =>
      -- the last sign was not read, for an ending is never read
      have hitem : last ∈ ws.map (Except.ok (ε := LexError)) := by
        have hhead : last = item := by simpa using congrArg List.head? hrest
        rw [hws, hhead]
        exact List.mem_append_right _ List.mem_cons_self
      rcases List.mem_map.1 hitem with ⟨v, hv, rfl⟩
      exact absurd (List.mem_map.2 ⟨v, hv, hlast v rfl⟩) hnone

/-- A body that compiles is one of the grammar of bodies if as many parentheses close as open. -/
theorem exists_reading_of_declareBody {rules rules' : RuleTable} {counter counter' : Nat}
    {name body : String} (h : declareBody s rules counter name body = .ok (rules', counter')) :
    ∃ (ss : List Sign) (ws : List WrittenSign), signsOf body = ws.map Except.ok ∧
      ws.map WrittenSign.sign = ss ++ [.ending] ∧
      (Balanced ss → ∃ e, Reads s.kinds s.names .choice ss e) := by
  rcases exists_of_declareBody h with ⟨top, pending, c, hchoice, hend, -, -⟩
  rcases says_of_course (course_of_choice hchoice) with ⟨ss, ⟨ws, hread, rfl, hnone⟩, -, hreads⟩
  rcases remaining_of_expectEnd hread hnone hend with ⟨w, hremaining, hsign⟩
  refine ⟨ws.map WrittenSign.sign, ws ++ [w], ?_, ?_, hreads⟩
  · rw [List.map_append, List.map_singleton, ← hremaining]
    exact hread
  · rw [List.map_append, List.map_singleton, hsign]

/-- Every body of a grammar whose rules compile is compiled by itself. -/
theorem exists_declareBody_of_mem {kinds names : List String} {rules rules' : RuleTable}
    {counter : Nat} {bodies : List (String × String)}
    (h : declareBodies kinds names rules counter bodies = .ok rules') {b : String × String}
    (hb : b ∈ bodies) :
    ∃ before next after after', declareBody ⟨kinds, names, bareRuleName b.1⟩ before next b.1 b.2 =
      .ok (after, after') := by
  obtain ⟨_, hall⟩ := invariant_of_declareBodies
    (fun front _ _ => ∀ b ∈ front, ∃ before next after after',
      declareBody ⟨kinds, names, bareRuleName b.1⟩ before next b.1 b.2 = .ok (after, after'))
    (fun _ hbefore hbody => List.forall_mem_append.2
      ⟨hbefore, List.forall_mem_singleton.2 ⟨_, _, _, _, hbody⟩⟩)
    (fun b hb => absurd hb List.not_mem_nil) h
  exact hall b hb

end Compilation

/-- How often a sign stands in a body. -/
def signCount (body : String) (sign : Sign) : Nat :=
  (signsOf body).countP fun item => (item.map WrittenSign.sign).toOption == some sign

theorem signCount_eq {body : String} {ws : List WrittenSign}
    (h : signsOf body = ws.map Except.ok) (sign : Sign) :
    signCount body sign = (ws.map WrittenSign.sign).count sign := by
  rw [signCount, h, List.countP_map, List.count, List.countP_map]
  congr 1

/-- A body has as many closing as opening parentheses. -/
def BalancedBody (body : String) : Prop :=
  signCount body .closing = signCount body .opening

instance (body : String) : Decidable (BalancedBody body) :=
  inferInstanceAs (Decidable (_ = _))

/-- The ending of a body changes no balance. -/
theorem balancedBody_iff {body : String} {ws : List WrittenSign} {ss : List Sign}
    (h : signsOf body = ws.map Except.ok) (hws : ws.map WrittenSign.sign = ss ++ [.ending]) :
    BalancedBody body ↔ Balanced ss := by
  simp [BalancedBody, signCount_eq h, hws, Balanced]

theorem ReadsBody.balanced {kinds names : List String} {body : String} {e : Expression}
    (h : ReadsBody kinds names body e) : BalancedBody body := by
  rcases h with ⟨ss, ws, hsigns, hws, hreads⟩
  exact (balancedBody_iff hsigns hws).2 hreads.balanced

namespace Grammar

/-- Among the bodies of a grammar whose rules compile, those of the grammar of bodies are just those
with as many closing as opening parentheses. -/
theorem reads_iff_balanced {g : Grammar} {rules : RuleTable} (hrules : g.rules = .ok rules)
    {b : String × String} (hb : b ∈ g.bodies.entries) :
    (∃ e, ReadsBody g.kinds g.ruleNames b.2 e) ↔ BalancedBody b.2 := by
  constructor
  · rintro ⟨e, he⟩
    exact he.balanced
  · intro hbalanced
    have hcompiled : Compilation.declareBodies g.kinds g.ruleNames .empty 0 g.bodies.entries =
        .ok rules := by
      unfold Grammar.rules at hrules
      split at hrules
      · cases hrules
      · exact hrules
    rcases Compilation.exists_declareBody_of_mem hcompiled hb with ⟨_, _, _, _, hbody⟩
    rcases Compilation.exists_reading_of_declareBody hbody with ⟨ss, ws, hsigns, hws, hreads⟩
    rcases hreads ((balancedBody_iff hsigns hws).1 hbalanced) with ⟨e, he⟩
    exact ⟨e, ss, ws, hsigns, hws, he⟩

/-- A grammar of one rule over two tokens. -/
def ofBody (body : String) : Grammar :=
  .ofParts ⟨[("default", ⟨[("a", "a"), ("b", "b")]⟩)]⟩ ⟨[("r", body)]⟩ .empty

private theorem exists_rules {g : Grammar} (h : g.rules.toOption.isSome = true) :
    ∃ rules, g.rules = .ok rules := by
  rcases hrules : g.rules with e | rules
  · rw [hrules] at h
    cases h
  · exact ⟨rules, rfl⟩

/-- All parentheses of this body are closed, and it is one of the grammar of bodies. -/
theorem reads_iff_balanced_closed :
    ∃ rules, (ofBody "<a> (<b> | (<a>)+)").rules = .ok rules ∧
      ("r", "<a> (<b> | (<a>)+)") ∈ (ofBody "<a> (<b> | (<a>)+)").bodies.entries ∧
      ∃ e, ReadsBody (ofBody "<a> (<b> | (<a>)+)").kinds (ofBody "<a> (<b> | (<a>)+)").ruleNames
        "<a> (<b> | (<a>)+)" e := by
  obtain ⟨rules, hrules⟩ := exists_rules (g := ofBody "<a> (<b> | (<a>)+)") (by decide +kernel)
  have hb : ("r", "<a> (<b> | (<a>)+)") ∈ (ofBody "<a> (<b> | (<a>)+)").bodies.entries :=
    List.mem_singleton_self _
  exact ⟨rules, hrules, hb, (reads_iff_balanced hrules hb).2 (by decide +kernel)⟩

/-- A group that is never closed is let through without a word, though no reading of the grammar of
bodies has it. -/
theorem rules_of_open_group :
    (∃ rules, (ofBody "<a> (<b>").rules = .ok rules) ∧
      ¬∃ e, ReadsBody (ofBody "<a> (<b>").kinds (ofBody "<a> (<b>").ruleNames "<a> (<b>" e := by
  refine ⟨exists_rules (by decide +kernel), ?_⟩
  rintro ⟨e, he⟩
  have hbalanced := he.balanced
  revert hbalanced
  decide +kernel

end Grammar

end Descent
