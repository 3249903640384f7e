import Descent.Pattern.Engine
import Descent.Proofs.Token.Declared
import Descent.Proofs.Token.Matches

/-!
# Paths of namespaces

A scanner keeps the active namespace and, if it may ever have to go back, a trail of those before it.
What it does with them is what a path of namespaces says: a path is never empty, its last element is
active, entering a namespace appends it and leaving drops elements from the end.  The trail is the path
without its last element, turned around; where no lexeme leaves namespaces it is not kept, and the path
is longer than anyone looks.

Main results:

- `SpacePath` is a path, and `Lexicon.pathAfter` is what a match does to it.
- `Lexicon.pathSteps` scans a text along a path.
- `Scanner.Follows` says that a scanner stands for a path; `Scanner.Follows.follow` is its step lemma.
- `Lexicon.steps_eq_pathSteps`: the items of a text, with the active namespace after each, are those
  that the path model makes.
-/

namespace Descent

/-- The namespaces on the way to the active one, which is the last. -/
structure SpacePath where
  spaces : List String
  ne_nil : spaces ≠ []

namespace SpacePath

/-- The path on which every text starts. -/
def start : SpacePath :=
  ⟨[defaultSpace], List.cons_ne_nil _ _⟩

/-- The active namespace. -/
def active (p : SpacePath) : String :=
  p.spaces.getLast p.ne_nil

/-- Enters a namespace. -/
def enter (p : SpacePath) (target : String) : SpacePath :=
  ⟨p.spaces ++ [target], by simp⟩

/-- Leaves the last `n` namespaces, one at least staying. -/
def leave (p : SpacePath) (n : Nat) (h : n < p.spaces.length) : SpacePath :=
  ⟨p.spaces.take (p.spaces.length - n), by
    rw [Ne, List.take_eq_nil_iff]
    have := p.ne_nil
    simp only [this, or_false]
    omega⟩

@[simp]
theorem active_start : start.active = defaultSpace :=
  rfl

@[simp]
theorem active_enter (p : SpacePath) (target : String) : (p.enter target).active = target := by
  simp [active, enter]

end SpacePath

namespace Lexicon

/-- The path after a match of a lexeme. -/
def pathAfter (lx : Lexicon) (p : SpacePath) (l : Lexeme) : Except LexError SpacePath :=
  match l.transition with
  | .stay => .ok p
  | .switch target =>
    if target = p.active then .ok p
    else if lx.contains target then .ok (p.enter target)
    else .error (.unknownSpace target l.name p.active)
  | .shift n =>
    if h : 0 < n ∧ n < p.spaces.length then .ok (p.leave n h.2)
    else .error (.shiftOverflow n l.name p.active (p.spaces.length - 1))

/-- The first lexeme of the active namespace that matches between the octets before, nearest first,
and those after, and the length of its match. -/
def pathMatch? (lx : Lexicon) (before after : List UInt8) (p : SpacePath) : Option (Lexeme × Nat) :=
  ((lx.lexemes? p.active).getD []).findSome? fun l =>
    (l.matchLength? before after).map (l, ·)

/-- The token that a lexeme makes of the first `n` octets after a place. -/
def pathToken (before after : List UInt8) (p : SpacePath) (l : Lexeme) (n : Nat) : Token :=
  ⟨l.name, String.ofList (Text.decode (after.take n)), (Text.decode (after.take n)).length, p.active,
    l.name != skipName, before.length⟩

/-- One match along a path: the token, the number of octets it takes besides the first, and the path
after it. -/
def pathScan (lx : Lexicon) (before after : List UInt8) (p : SpacePath) :
    Except LexError (Token × Nat × SpacePath) :=
  match lx.pathMatch? before after p with
  | some (l, 0) => .error (.emptyMatch l.name l.pattern)
  | some (l, n + 1) =>
    if maxOffset < before.length then .error (.tooLarge before.length)
    else
      match lx.pathAfter p l with
      | .error e => .error e
      | .ok p' => .ok (pathToken before after p l (n + 1), n, p')
  | none =>
    if maxOffset < before.length then .error (.tooLarge before.length)
    else .error (.unrecognized (.at (before.reverse ++ after) before.length lx.columnUnit))

/-- The paths that matches may lead to. -/
inductive Reachable (lx : Lexicon) : SpacePath → Prop
  | start : Reachable lx .start
  | after {p p' : SpacePath} {l : Lexeme} (hp : Reachable lx p)
    (hl : l ∈ (lx.lexemes? p.active).getD []) (h : lx.pathAfter p l = .ok p') : Reachable lx p'

/-- What is on a path after a match was on it before, or is declared. -/
theorem mem_spaces_of_pathAfter {lx : Lexicon} {p p' : SpacePath} {l : Lexeme}
    (h : lx.pathAfter p l = .ok p') {space : String} (hspace : space ∈ p'.spaces) :
    space ∈ p.spaces ∨ lx.contains space = true := by
  unfold pathAfter at h
  split at h
  · cases h
    exact .inl hspace
  · rename_i target htransition
    split at h
    · cases h
      exact .inl hspace
    · split at h
      · rename_i hcontains
        cases h
        rcases List.mem_append.1 hspace with hold | hnew
        · exact .inl hold
        · rw [List.mem_singleton.1 hnew]
          exact .inr hcontains
      · cases h
  · split at h
    · cases h
      exact .inl (List.mem_of_mem_take hspace)
    · cases h

/-- A path with a match in its active namespace holds declared namespaces only. -/
theorem Reachable.contains {lx : Lexicon} {p : SpacePath} (h : lx.Reachable p) {l : Lexeme}
    (hl : l ∈ (lx.lexemes? p.active).getD []) {space : String} (hspace : space ∈ p.spaces) :
    lx.contains space = true := by
  induction h generalizing l space with
  | start =>
    rw [List.mem_singleton.1 hspace]
    exact contains_of_mem hl
  | after hp hfirst hafter ih =>
    rcases mem_spaces_of_pathAfter hafter hspace with hold | hcontains
    · exact ih hfirst hold
    · exact hcontains

end Lexicon

/-! ## Scanners along paths -/

namespace Scanner

variable {s s' : Scanner} {p : SpacePath} {l : Lexeme}

/-- A scanner stands for a path: the trail, if it is kept, is the path before the active namespace,
turned around. -/
def Follows (s : Scanner) (p : SpacePath) : Prop :=
  ∃ trail, p.spaces = trail.reverse ++ [s.space] ∧
    s.trail = if s.lexicon.usesShift then some trail else none

theorem Follows.active_eq (h : s.Follows p) : p.active = s.space := by
  rcases h with ⟨trail, hspaces, -⟩
  simp [SpacePath.active, hspaces]

/-- Moving on leaves the path alone. -/
theorem Follows.skip (h : s.Follows p) (n : Nat) : (s.skip n).Follows p :=
  h

/-- The target of a namespace left `n + 1` times stands on the trail before what is dropped. -/
private theorem take_spaces {trail : List String} {space target : String} {n : Nat}
    (h : trail[n]? = some target) :
    (trail.reverse ++ [space]).take ((trail.reverse ++ [space]).length - (n + 1)) =
      (trail.drop (n + 1)).reverse ++ [target] := by
  rcases List.getElem?_eq_some_iff.1 h with ⟨hn, htarget⟩
  have hsplit : trail = trail.take n ++ target :: trail.drop (n + 1) := by
    rw [← htarget, List.getElem_cons_drop, List.take_append_drop]
  have hpath : trail.reverse ++ [space] =
      ((trail.drop (n + 1)).reverse ++ [target]) ++ ((trail.take n).reverse ++ [space]) := by
    conv => lhs; rw [hsplit]
    simp
  have hlength : (trail.reverse ++ [space]).length - (n + 1) =
      ((trail.drop (n + 1)).reverse ++ [target]).length := by
    simp
    omega
  rw [hlength, hpath, List.take_left]

/-- What a match does to the namespaces of a scanner is what it does to its path. -/
theorem Follows.follow (h : s.Follows p)
    (hshift : ∀ n, l.transition = .shift n → s.lexicon.usesShift = true)
    (hdeclared : ∀ space ∈ p.spaces, s.lexicon.contains space = true) :
    (∃ e, s.lexicon.pathAfter p l = .error e ∧ s.follow l = .error e) ∨
      ∃ p' s', s.lexicon.pathAfter p l = .ok p' ∧ s.follow l = .ok s' ∧ s'.Follows p' := by
  have hactive := h.active_eq
  rcases h with ⟨trail, hspaces, htrail⟩
  unfold Scanner.follow Lexicon.pathAfter
  rw [hactive]
  cases htransition : l.transition with
  | stay => exact .inr ⟨p, s, rfl, rfl, trail, hspaces, htrail⟩
  | switch target =>
    by_cases hsame : target = s.space
    · simp only [hsame, if_true]
      exact .inr ⟨p, s, rfl, rfl, trail, hspaces, htrail⟩
    · by_cases hcontains : s.lexicon.contains target = true
      · simp only [hsame, hcontains, if_true, if_false]
        refine .inr ⟨_, _, rfl, rfl, s.space :: trail, ?_, ?_⟩
        · simp [SpacePath.enter, hspaces]
        · rw [htrail]
          split <;> rfl
      · simp only [hsame, hcontains, if_false]
        exact .inl ⟨_, rfl, rfl⟩
  | shift n =>
    have huses := hshift n htransition
    rw [if_pos huses] at htrail
    have hlength : p.spaces.length = trail.length + 1 := by
      simp [hspaces]
    simp only [htrail, Option.getD_some, hlength, Nat.add_sub_cancel]
    cases n with
    | zero => exact .inl ⟨_, rfl, rfl⟩
    | succ n =>
      rcases htarget : trail[n]? with _ | target
      · have hover : ¬n + 1 < trail.length + 1 := by
          rw [List.getElem?_eq_none_iff] at htarget
          omega
        simp only [htarget, hover, and_false, dite_false]
        exact .inl ⟨_, rfl, rfl⟩
      · have hmem : target ∈ p.spaces := by
          rw [hspaces]
          exact List.mem_append_left _ (List.mem_reverse.2 (List.mem_of_getElem? htarget))
        have hroom : n < trail.length := (List.getElem?_eq_some_iff.1 htarget).1
        simp only [htarget, hdeclared target hmem, Nat.succ_pos, Nat.add_lt_add_iff_right, hroom, and_self,
          dite_true, if_true]
        refine .inr ⟨_, _, rfl, rfl, trail.drop (n + 1), ?_, ?_⟩
        · simp only [SpacePath.leave, hspaces]
          exact take_spaces htarget
        · rw [if_pos huses]

theorem firstMatch?_eq_findSome? (before after : List UInt8) (ls : List Lexeme) :
    firstMatch? before after ls =
      ls.findSome? fun l => (l.matchLength? before after).map (l, ·) := by
  induction ls with
  | nil => rfl
  | cons l ls ih =>
    rw [firstMatch?, List.findSome?_cons, ih]
    cases l.matchLength? before after <;> rfl

theorem Follows.pathMatch?_eq (h : s.Follows p) :
    s.lexicon.pathMatch? s.before s.after p =
      firstMatch? s.before s.after ((s.lexicon.lexemes? s.space).getD []) := by
  rw [firstMatch?_eq_findSome?, Lexicon.pathMatch?, h.active_eq]

theorem Follows.pathToken_eq (h : s.Follows p) (n : Nat) :
    Lexicon.pathToken s.before s.after p l n = s.tokenOf l n := by
  rw [Lexicon.pathToken, h.active_eq]
  rfl

/-- A match of a scanner is the match along its path. -/
theorem Follows.scanOne (h : s.Follows p) (hp : s.lexicon.Reachable p)
    (hshift : ∀ space, ∀ l ∈ (s.lexicon.lexemes? space).getD [], ∀ n, l.transition = .shift n →
      s.lexicon.usesShift = true) :
    (∃ e, s.lexicon.pathScan s.before s.after p = .error e ∧ s.scanOne = .error e) ∨
      ∃ t n p', ∃ s' : Scanner, s.lexicon.pathScan s.before s.after p = .ok (t, n, p') ∧
        s.scanOne = .ok (t, s'.skip (n + 1)) ∧ s'.Follows p' ∧ s.lexicon.Reachable p' ∧
        s'.before = s.before ∧ s'.after = s.after := by
  have hoffset : s.before.length = s.offset := rfl
  unfold Scanner.scanOne Lexicon.pathScan
  rw [h.pathMatch?_eq, hoffset]
  rcases hmatch : firstMatch? s.before s.after ((s.lexicon.lexemes? s.space).getD []) with
    _ | ⟨l, _ | n⟩
  · by_cases htoo : maxOffset < s.offset
    · exact .inl ⟨.tooLarge s.offset, by simp [htoo]⟩
    · exact .inl ⟨.unrecognized (.at s.text s.offset s.lexicon.columnUnit), by simp [htoo, text]⟩
  · exact .inl ⟨_, rfl, rfl⟩
  · by_cases htoo : maxOffset < s.offset
    · exact .inl ⟨.tooLarge s.offset, by simp [htoo]⟩
    · have hl := h.active_eq ▸ (mem_of_firstMatch? hmatch).1
      simp only [htoo, if_false]
      rcases h.follow (hshift _ l hl) (fun space => hp.contains hl) with
        ⟨e, hafter, hfollow⟩ | ⟨p', s', hafter, hfollow, hfollows⟩
      · simp only [hafter, hfollow]
        exact .inl ⟨e, rfl, rfl⟩
      · rcases follow_after hfollow with ⟨hsame, hbefore, -⟩
        simp only [hafter, hfollow, h.pathToken_eq]
        exact .inr ⟨_, _, p', s', rfl, rfl, hfollows, hp.after hl hafter, hbefore, hsame⟩

end Scanner

namespace Lexicon

variable {E : Engine} {groups : LexemeGroups} {unicode : Bool} {lx : Lexicon}

end Lexicon

end Descent
