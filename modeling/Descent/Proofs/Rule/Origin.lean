import Descent.Proofs.Rule.Closed
import Descent.Proofs.Rule.Invariant

/-!
# Where parts are written

The parts of a declared body get numbers of their own when the body is compiled, and no rule of another
body refers to them.  So the number of a part tells which declaration the part is written in.

Main results:

- `RuleTable.ComesFrom` says of every rule which declaration it is compiled from.
- `Compilation.makes_of_course`: compiling a body makes rules that come from it.
- `Grammar.exists_home_of_rules`: all rules of a grammar come from its declarations.
-/

namespace Descent

/-- A body that matches a token matches one that is written in a text. -/
def RuleBody.WrittenIn (text : String) : RuleBody → Prop
  | .token kind index kept =>
    ∃ w, .ok w ∈ signsOf text ∧ w.sign = .token (some (kind, index)) kept
  | _ => True

/-- A key is that of a declared rule, or of a part that is written in a declaration. -/
def RuleKey.IsUsedIn (home : Nat → String × String) (d : String × String) (key : RuleKey) : Prop :=
  ∀ n, key = .part n → home n = d

/-- A key is that of the rule that is declared, or of a part that is written in the declaration. -/
def RuleKey.IsOf (home : Nat → String × String) (d : String × String) : RuleKey → Prop
  | .named name => bareRuleName d.1 = name
  | .part n => home n = d

/-- A rule is compiled from a declaration: its token is written there, and so are its parts. -/
structure Rule.IsFrom (home : Nat → String × String) (d : String × String) (r : Rule) : Prop where
  written : r.body.WrittenIn d.2
  parts : ∀ child ∈ r.children, child.IsUsedIn home d

variable {declarations : List (String × String)} {home home' : Nat → String × String}
  {d : String × String}

theorem RuleKey.isUsedIn_named (name : String) : (RuleKey.named name).IsUsedIn home d := by
  intro n hn
  cases hn

namespace RuleTable

variable {rules : RuleTable} {names : List String} {counter : Nat}

/-- Every rule is compiled from a declaration: one of its name, or the one that the part is written in. -/
def ComesFrom (declarations : List (String × String)) (home : Nat → String × String)
    (rules : RuleTable) : Prop :=
  rules.All fun key r => ∃ d ∈ declarations, key.IsOf home d ∧ r.IsFrom home d

/-- Only the parts that there are matter. -/
theorem ComesFrom.congr (h : rules.ComesFrom declarations home) (hintact : Intact names rules counter [])
    (hsame : ∀ n < counter, home' n = home n) : rules.ComesFrom declarations home' := by
  rintro ⟨key, r⟩ he
  rcases h _ he with ⟨d, hd, hkey, hfrom⟩
  refine ⟨d, hd, ?_, hfrom.written, fun child hchild n hn => ?_⟩
  · cases key with
    | named name => exact hkey
    | part n =>
      have hthere : rules.get? (.part n) ≠ none := OrderedMap.mem_keys_iff.1 (List.mem_map_of_mem he)
      exact (hsame n (hintact.below n hthere)).trans hkey
  · have hmem : .part n ∈ rules.references ++ [] :=
      List.mem_append_left _ (List.mem_flatMap.2 ⟨_, he, hn ▸ hchild⟩)
    exact (hsame n (hintact.below n (hintact.known n hmem))).trans (hfrom.parts child hchild n hn)

end RuleTable

namespace Compilation

variable {s : BodyScope} {c c₁ : Compilation} {key : RuleKey} {key? : Option RuleKey}
  {pending pending₁ : Pending}

/-- Compiling a declaration: the numbers to come are those of its parts, and the signs still to be read
are written in it. -/
structure Makes (declarations : List (String × String)) (home : Nat → String × String)
    (d : String × String) (c : Compilation) : Prop where
  rules : c.rules.ComesFrom declarations home
  numbers : ∀ n, c.counter ≤ n → home n = d
  signs : ∀ w, .ok w ∈ c.cursor.remaining → .ok w ∈ signsOf d.2

theorem Makes.advance (h : c.Makes declarations home d) : c.advance.Makes declarations home d :=
  ⟨h.rules, h.numbers, fun w hw => h.signs w (mem_remaining_of_advance hw)⟩

theorem Makes.nameWaiting (h : c.Makes declarations home d) (key : RuleKey) (pending : Pending) :
    (c.nameWaiting key pending).Makes declarations home d := by
  cases pending with
  | none => exact h
  | some id =>
    unfold Compilation.nameWaiting Compilation.nameNode
    dsimp only
    split
    · rename_i hr
      rcases h.rules.get? hr with ⟨d', hd', hkey, hfrom⟩
      exact ⟨h.rules.insert ⟨d', hd', hkey, hfrom.written, hfrom.parts⟩, h.numbers, h.signs⟩
    · exact h

section

variable (hd : d ∈ declarations)

include hd

theorem Makes.addPart (h : c.Makes declarations home d) {body : RuleBody}
    (hc : (key, c₁) = c.addPart body) (hbody : body.WrittenIn d.2)
    (hchildren : ∀ child ∈ (Rule.ofBody (.part c.counter) body).children, child.IsUsedIn home d) :
    c₁.Makes declarations home d ∧ key.IsUsedIn home d := by
  cases hc
  have hhome : home c.counter = d := h.numbers _ (Nat.le_refl _)
  refine ⟨⟨h.rules.insert ⟨d, hd, hhome, hbody, hchildren⟩, fun n hn => ?_, h.signs⟩, fun n hn => ?_⟩
  · exact h.numbers n (Nat.le_of_succ_le hn)
  · cases hn
    exact hhome

theorem Makes.call (h : c.Makes declarations home d) {name : String}
    (hc : c.call s name = .ok (key, c₁)) : c₁.Makes declarations home d ∧ key.IsUsedIn home d := by
  rcases call_cases hc with ⟨-, hnew | hsame⟩
  · refine h.advance.addPart hd hnew trivial fun child hchild => ?_
    rw [List.mem_singleton.1 hchild]
    exact RuleKey.isUsedIn_named name
  · cases hsame
    exact ⟨h.advance, RuleKey.isUsedIn_named name⟩

theorem Makes.afterPart (h : c.Makes declarations home d) {child : RuleKey}
    (hchild : child.IsUsedIn home d) (hc : c.afterPart s child pending = .ok (key?, pending₁, c₁)) :
    c₁.Makes declarations home d ∧ ∀ key ∈ key?, key.IsUsedIn home d := by
  rcases exists_of_afterPart hc with ⟨numbers, c₂, c₃, key, hquantifier, hname, hrepeat, rfl⟩
  have h₂ : c₂.Makes declarations home d := by
    rcases quantifier_cases hquantifier with ⟨-, rfl⟩ | ⟨_, _, -, -, -, rfl⟩
    · exact h
    · exact h.advance
  have h₃ : c₃.Makes declarations home d := by
    rcases nodeMark_cases hname with ⟨-, rfl⟩ | ⟨_, _, -, -, -, rfl⟩
    · exact h₂
    · exact h₂.advance
  obtain ⟨h₁, hkey⟩ : c₁.Makes declarations home d ∧ key.IsUsedIn home d := by
    rcases repeatPart_cases hrepeat with ⟨-, hsame⟩ | ⟨bounds, -, hnew⟩
    · cases hsame
      exact ⟨h₃, hchild⟩
    · exact h₃.addPart hd hnew trivial fun _ hk => List.mem_singleton.1 hk ▸ hchild
  exact ⟨h₁, fun k hk => Option.some.inj hk ▸ hkey⟩

theorem Makes.sequence (h : c.Makes declarations home d) {keys : List RuleKey}
    (hkeys : ∀ key ∈ keys, key.IsUsedIn home d) (pending : Pending) :
    (c.sequence keys pending).2.Makes declarations home d ∧
      (c.sequence keys pending).1.IsUsedIn home d := by
  unfold Compilation.sequence
  split
  · exact ⟨h, hkeys _ (List.mem_singleton_self _)⟩
  · exact h.addPart hd rfl trivial hkeys

theorem Makes.alternatives (h : c.Makes declarations home d) {keys : List RuleKey}
    (hkeys : ∀ key ∈ keys, key.IsUsedIn home d) :
    (c.alternatives keys).2.Makes declarations home d ∧ (c.alternatives keys).1.IsUsedIn home d := by
  unfold Compilation.alternatives
  split
  · exact ⟨h, hkeys _ (List.mem_singleton_self _)⟩
  · exact h.addPart hd rfl trivial hkeys

/-- Compiling a body makes rules that come from it. -/
theorem makes_of_course {task : Task} (h : Course s task c key? pending c₁)
    (hc : c.Makes declarations home d) (hdone : ∀ key ∈ task.done, key.IsUsedIn home d) :
    c₁.Makes declarations home d ∧ ∀ key ∈ key?, key.IsUsedIn home d := by
  have hnone : ∀ key ∈ (none : Option RuleKey), key.IsUsedIn home d := fun key hkey => by cases hkey
  have hnil : ∀ key ∈ ([] : List RuleKey), key.IsUsedIn home d :=
    fun key hkey => absurd hkey List.not_mem_nil
  have hcons {key : RuleKey} {done : List RuleKey} (hkey : key.IsUsedIn home d)
      (hdone : ∀ key ∈ done, key.IsUsedIn home d) : ∀ k ∈ key :: done, k.IsUsedIn home d :=
    List.forall_mem_cons.2 ⟨hkey, hdone⟩
  have hsome {c : Compilation} {key : RuleKey} (h : c.Makes declarations home d ∧ key.IsUsedIn home d) :
      c.Makes declarations home d ∧ ∀ k ∈ some key, k.IsUsedIn home d :=
    ⟨h.1, fun k hk => Option.some.inj hk ▸ h.2⟩
  have hreverse {done : List RuleKey} (hdone : ∀ key ∈ done, key.IsUsedIn home d) :
      ∀ key ∈ done.reverse, key.IsUsedIn home d := fun key hkey => hdone key (List.mem_reverse.1 hkey)
  induction h with
  | idle task c => exact ⟨hc, hnone⟩
  | other hw hopening => exact ⟨hc, hnone⟩
  | @token pending c c₁ w key ref kept hw hsign hkey =>
    rcases exists_of_reference hkey with ⟨kind, index, rfl, -, hnew⟩
    have hmem : .ok w ∈ signsOf d.2 := hc.signs w (mem_remaining_of_current hw (by simp [hsign]))
    have hmade := hc.addPart hd hnew ⟨w, hmem, hsign⟩ hnil
    exact hsome ⟨hmade.1.advance, hmade.2⟩
  | call hw hsign hkey => exact hsome (hc.call hd hkey)
  | emptyGroup hw hopening hinside ih => exact ih hc.advance hnil
  | openGroup hw hopening hinside hw₁ hclosing ih => exact ⟨(ih hc.advance hnil).1, hnone⟩
  | group hw hopening hinside hw₁ hclosing ih =>
    rcases ih hc.advance hnil with ⟨h₁, hkey⟩
    exact ⟨h₁.advance, hkey⟩
  | part hpart hafter hrest ih ihrest =>
    rcases ih hc hnil with ⟨h₁, hchild⟩
    rcases h₁.afterPart hd (hchild _ rfl) hafter with ⟨h₂, hkey⟩
    exact ihrest h₂ (hcons (hkey _ rfl) hdone)
  | noPart hpart ih => exact ih hc hnil
  | parts hpart hnonempty ih => exact hsome ((ih hc hnil).1.sequence hd (hreverse hdone) _)
  | noBranch hbranch ih => exact ⟨(ih hc hnil).1, hnone⟩
  | branch hbranch hw hbar hrest ih ihrest =>
    rcases ih hc hnil with ⟨h₁, hkey⟩
    exact ihrest (h₁.nameWaiting _ _).advance (hcons (hkey _ rfl) hdone)
  | branches hbranch hw hbar ih =>
    rcases ih hc hnil with ⟨h₁, hkey⟩
    exact hsome ((h₁.nameWaiting _ _).alternatives hd (hreverse (hcons (hkey _ rfl) hdone)))

/-! ## Declared rules -/

variable {rules rules' : RuleTable} {counter counter' : Nat}

theorem comesFrom_of_declare {top : RuleKey} (h : rules.ComesFrom declarations home)
    (htop : top.IsUsedIn home d) (hrules : declare s rules top d.1 d.2 = .ok rules') :
    rules'.ComesFrom declarations home := by
  rcases declare_cases hrules with ⟨name, rfl, rfl⟩ | ⟨n, r, rfl, hr, rfl⟩
  · refine h.insert ⟨d, hd, rfl, trivial, fun child hchild => ?_⟩
    rw [List.mem_singleton.1 hchild]
    exact htop
  · rcases h.get? hr with ⟨d', -, hhome, hfrom⟩
    obtain rfl : d = d' := (htop n rfl).symm.trans hhome
    exact (h.erase _).insert ⟨d, hd, rfl, hfrom.written, hfrom.parts⟩

theorem comesFrom_of_declareBody (h : rules.ComesFrom declarations home)
    (hnumbers : ∀ n, counter ≤ n → home n = d)
    (hrules : declareBody s rules counter d.1 d.2 = .ok (rules', counter')) :
    rules'.ComesFrom declarations home := by
  rcases exists_of_declareBody hrules with ⟨top, pending, c, hchoice, -, hdeclare, -⟩
  have hstart : Makes declarations home d ⟨rules, counter, .ofList (signsOf d.2)⟩ :=
    ⟨h, hnumbers, fun _ => id⟩
  have hmade := makes_of_course hd (course_of_choice hchoice) hstart
    fun key hkey => absurd hkey List.not_mem_nil
  exact comesFrom_of_declare hd hmade.1.rules (hmade.2 top rfl) hdeclare

omit hd in
theorem exists_home_of_declareBodies {kinds names : List String} {bodies : List (String × String)}
    (hbodies : ∀ b ∈ bodies, b ∈ declarations) (h : rules.ComesFrom declarations home)
    (hintact : RuleTable.Intact names rules counter [])
    (hrules : declareBodies kinds names rules counter bodies = .ok rules') :
    ∃ home', rules'.ComesFrom declarations home' := by
  obtain ⟨_, -, hfrom⟩ := invariant_of_declareBodies
    (fun _ rules counter =>
      RuleTable.Intact names rules counter [] ∧ ∃ home, rules.ComesFrom declarations home)
    (fun {_ b rules _ counter _} hb hbefore hbody => by
      rcases hbefore with ⟨hintact, home, hfrom⟩
      -- The numbers from here on are given to the parts of this body.
      have hnumbered : rules.ComesFrom declarations fun n => if n < counter then home n else b :=
        hfrom.congr hintact fun n hn => if_pos hn
      exact ⟨(adds_of_declareBody hintact hbody).intact, _, comesFrom_of_declareBody (hbodies _ hb)
        hnumbered (fun n hn => if_neg (Nat.not_lt.2 hn)) hbody⟩)
    ⟨hintact, home, h⟩ hrules
  exact hfrom

end

end Compilation

/-- All rules of a grammar come from its declarations. -/
theorem Grammar.exists_home_of_rules {g : Grammar} {rules : RuleTable} (h : g.rules = .ok rules) :
    ∃ home, rules.ComesFrom g.bodies.entries home := by
  have hnone : RuleTable.ComesFrom g.bodies.entries (fun _ => ("", "")) .empty :=
    fun e he => absurd he List.not_mem_nil
  exact Compilation.exists_home_of_declareBodies (fun _ => id) hnone RuleTable.intact_empty
    (declareBodies_of_rules h)

end Descent
