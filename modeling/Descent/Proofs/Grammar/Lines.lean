import Mathlib.Data.List.Forall2
import Descent.Grammar.Document

/-!
# Lines of a document

Reading a document looks at a line in three ways only: at the line without the blanks at its end, at whether it can
continue a body, and at what it adds to one.  A carriage return at the end of a line changes none of these, and a
comment line adds nothing wherever it stands, so that only the numbers of the lines after it change.

Main results:

- `Grammar.readLines_congr`: lines that read alike come to the same, wherever they are numbered from.
- `Grammar.ofDocument_withReturns`: carriage returns before the newlines change nothing.
- `Grammar.ofDocument_insertLine`: a comment line that is put between two lines, or at either end, changes nothing
  but the numbers of the lines after it.
-/

namespace Descent

/-! ## Line numbers -/

/-- An error of a grammar with the number of its line changed, if it has one. -/
def GrammarError.renumber (f : Nat → Nat) : GrammarError → GrammarError
  | unrecognizedInstruction line source number => unrecognizedInstruction line source (f number)
  | malformedHeader line source number => malformedHeader line source (f number)
  | e => e

@[simp]
theorem GrammarError.renumber_id (e : GrammarError) : e.renumber id = e := by
  cases e <;> rfl

namespace Text

/-! ## Blanks at the end -/

variable {c : Char}

theorem trimEnd_append_blank (h : isBlank c = true) (cs : List Char) :
    trimEnd (cs ++ [c]) = trimEnd cs := by
  simp [trimEnd, h]

/-- A blank at the end stays behind what is left of a line, if anything is. -/
theorem trimStart_append_blank (h : isBlank c = true) (cs : List Char) :
    trimStart (cs ++ [c]) = if (trimStart cs).isEmpty then [] else trimStart cs ++ [c] := by
  rw [trimStart, List.dropWhile_append, List.dropWhile_cons_of_pos h]
  rfl

theorem trim_append_blank (h : isBlank c = true) (cs : List Char) : trim (cs ++ [c]) = trim cs := by
  rw [trim, trim, trimStart_append_blank h]
  split
  · rename_i hempty
    rw [List.isEmpty_iff.1 hempty]
  · exact trimEnd_append_blank h _

theorem trimEnd_cons_of_not_blank (h : isBlank c = false) (cs : List Char) :
    trimEnd (c :: cs) = c :: trimEnd cs := by
  rw [trimEnd, List.reverse_cons, List.dropWhile_append]
  split
  · rename_i hempty
    rw [List.dropWhile_cons_of_neg (by simp [h]), trimEnd, List.isEmpty_iff.1 hempty]
    rfl
  · rw [List.reverse_append]
    rfl

theorem trimStart_cons_of_not_blank (h : isBlank c = false) (cs : List Char) :
    trimStart (c :: cs) = c :: cs :=
  List.dropWhile_cons_of_neg (by simp [h])

end Text

namespace Grammar

variable {source : String} {number : Nat} {f : Nat → Nat} {g : Grammar} {d d' : Draft}
  {raw raw' comment : List Char} {lines lines' : List (List Char)}

/-! ## Lines that read alike -/

/-- Reading makes the same of two lines, outside a body and in one. -/
structure ReadsLike (raw raw' : List Char) : Prop where
  trimEnd_eq : Text.trimEnd raw' = Text.trimEnd raw
  continuesBody_eq : continuesBody raw' = continuesBody raw
  bodyOf_eq : bodyOf [raw'] = bodyOf [raw]

theorem bodyOf_append (before after : List (List Char)) :
    bodyOf (before ++ after) = bodyOf before ++ bodyOf after := by
  rw [bodyOf, List.filter_append, List.flatMap_append]
  rfl

/-- Two drafts declare the same, and the lines of the body that is pending make the same. -/
inductive Draft.Alike : Draft → Draft → Prop
  | outside (g : Grammar) : Alike ⟨g, none⟩ ⟨g, none⟩
  | inside (g : Grammar) (name : List Char) {body body' : List (List Char)}
      (h : bodyOf body'.reverse = bodyOf body.reverse) :
      Alike ⟨g, some (name, body)⟩ ⟨g, some (name, body')⟩

theorem Draft.Alike.close_eq (h : d.Alike d') : d'.close = d.close := by
  cases h with
  | outside g => rfl
  | inside g name hbody =>
    unfold Draft.close
    dsimp only
    rw [hbody]

/-- The line that was read last comes last in the body. -/
theorem bodyOf_reverse_cons (raw : List Char) (body : List (List Char)) :
    bodyOf (raw :: body).reverse = bodyOf body.reverse ++ bodyOf [raw] := by
  rw [List.reverse_cons, bodyOf_append]

/-- Reading has come to drafts that are alike, or to the same error but for the number of the line. -/
inductive ComesToSame (f : Nat → Nat) :
    Except GrammarError Draft → Except GrammarError Draft → Prop
  | ok {d d' : Draft} (h : d.Alike d') : ComesToSame f (.ok d) (.ok d')
  | error (e : GrammarError) : ComesToSame f (.error e) (.error (e.renumber f))

theorem comesToSame_readOutside (g : Grammar) (number : Nat)
    (h : Text.trimEnd raw' = Text.trimEnd raw) :
    ComesToSame f (readOutside source number g raw) (readOutside source (f number) g raw') := by
  unfold readOutside
  dsimp only
  rw [h]
  split
  · exact .ok (.outside _)
  · split
    · split
      · exact .ok (.outside _)
      · exact .error _
    · split
      · exact .ok (.inside _ _ rfl)
      · exact .error _

/-- Drafts that are alike go on alike with lines that read alike. -/
theorem comesToSame_readLine (number : Nat) (hdraft : d.Alike d') (h : ReadsLike raw raw') :
    ComesToSame f (d.readLine source number raw) (d'.readLine source (f number) raw') := by
  have hclose := hdraft.close_eq
  cases hdraft with
  | outside g => exact comesToSame_readOutside g number h.trimEnd_eq
  | inside g name hbody =>
    unfold Draft.readLine
    dsimp only
    rw [h.continuesBody_eq, hclose]
    split
    · refine .ok (.inside g name ?_)
      rw [bodyOf_reverse_cons, bodyOf_reverse_cons, hbody, h.bodyOf_eq]
    · exact comesToSame_readOutside _ number h.trimEnd_eq

/-- Lines that read alike come to the same, if they are numbered as is said. -/
theorem readLines_congr {number' : Nat} (hdraft : d.Alike d')
    (hlines : List.Forall₂ ReadsLike lines lines')
    (hnumber : ∀ i < lines.length, number' + i = f (number + i)) :
    ComesToSame f (d.readLines source number lines) (d'.readLines source number' lines') := by
  induction hlines generalizing d d' number number' with
  | nil => exact .ok hdraft
  | @cons raw raw' lines lines' hraw hlines ih =>
    have hfirst : number' = f number := hnumber 0 (Nat.succ_pos _)
    have hline : ComesToSame f (d.readLine source number raw) (d'.readLine source (f number) raw') :=
      comesToSame_readLine number hdraft hraw
    rw [Draft.readLines, Draft.readLines, hfirst]
    generalize d.readLine source number raw = r at hline
    generalize d'.readLine source (f number) raw' = r' at hline
    cases hline with
    | error e => exact .error e
    | ok hdraft =>
      refine ih hdraft fun i hi => ?_
      have hnext := hnumber (i + 1) (Nat.succ_lt_succ hi)
      rw [show number + 1 + i = number + (i + 1) by omega, ← hnext, hfirst]
      omega

theorem readsLike_refl (raw : List Char) : ReadsLike raw raw :=
  ⟨rfl, rfl, rfl⟩

/-- A document comes to the same if its lines do. -/
theorem ofDocument_congr {text text' : String}
    (h : ComesToSame f (Draft.readLines source 1 ⟨.empty, none⟩ (linesOf text.toList))
      (Draft.readLines source 1 ⟨.empty, none⟩ (linesOf text'.toList))) :
    ofDocument text' source = (ofDocument text source).mapError (·.renumber f) := by
  unfold ofDocument
  generalize Draft.readLines source 1 ⟨.empty, none⟩ (linesOf text.toList) = r at h
  generalize Draft.readLines source 1 ⟨.empty, none⟩ (linesOf text'.toList) = r' at h
  cases h with
  | error e => rfl
  | ok hdraft => exact congrArg Except.ok hdraft.close_eq

/-! ## Carriage returns -/

/-- A text with a carriage return before every newline. -/
def withReturns (text : String) : String :=
  String.ofList (text.toList.flatMap fun c => if c = '\n' then ['\r', '\n'] else [c])

theorem isBlank_return : Text.isBlank '\r' = true := by
  decide +kernel

theorem isComment_append_return (line : List Char) :
    isComment (line ++ ['\r']) = isComment line := by
  rcases line with _ | ⟨c, _ | ⟨d, rest⟩⟩
  · rfl
  · simp [isComment, List.isPrefixOf]
  · simp [isComment, List.isPrefixOf]

theorem continuesBody_append_return (line : List Char) :
    continuesBody (line ++ ['\r']) = continuesBody line := by
  rw [continuesBody, continuesBody, isComment_append_return]
  cases line <;> rfl

theorem readsLike_append_return (line : List Char) : ReadsLike line (line ++ ['\r']) := by
  refine ⟨Text.trimEnd_append_blank isBlank_return line, continuesBody_append_return line, ?_⟩
  have hcomment : isComment (Text.trimStart (line ++ ['\r'])) = isComment (Text.trimStart line) := by
    rw [Text.trimStart_append_blank isBlank_return]
    split
    · rename_i hempty
      rw [List.isEmpty_iff.1 hempty]
    · exact isComment_append_return _
  unfold bodyOf
  simp only [List.filter_cons, List.filter_nil, hcomment]
  split
  · simp only [List.flatMap_singleton, Text.trim_append_blank isBlank_return]
  · rfl

/-- The lines of a text with returns are those of the text, most of them with a return at the end. -/
theorem forall₂_linesOf_withReturns (cs : List Char) :
    List.Forall₂ (fun line line' => line' = line ∨ line' = line ++ ['\r']) (linesOf cs)
      (linesOf (cs.flatMap fun c => if c = '\n' then ['\r', '\n'] else [c])) := by
  induction cs with
  | nil => exact .cons (.inl rfl) .nil
  | cons c cs ih =>
    by_cases hc : c = '\n'
    · subst hc
      exact .cons (.inr rfl) ih
    · rw [List.flatMap_cons, if_neg hc, List.singleton_append, linesOf, if_neg hc, linesOf,
        if_neg hc]
      generalize linesOf cs = lines at ih
      generalize linesOf _ = lines' at ih
      cases ih with
      | nil => exact .cons (.inl rfl) .nil
      | cons hline hlines => exact .cons (hline.imp (congrArg (c :: ·)) (congrArg (c :: ·))) hlines

/-- A document is read the same, down to the line that an error names, if its newlines are written as carriage
returns and newlines. -/
theorem ofDocument_withReturns (text source : String) :
    ofDocument (withReturns text) source = ofDocument text source := by
  have hlines : List.Forall₂ ReadsLike (linesOf text.toList) (linesOf (withReturns text).toList) := by
    rw [withReturns, String.toList_ofList]
    refine (forall₂_linesOf_withReturns text.toList).imp fun line line' hline => ?_
    rcases hline with rfl | rfl
    · exact readsLike_refl _
    · exact readsLike_append_return line
  rw [ofDocument_congr (f := id) (readLines_congr (.outside _) hlines fun _ _ => rfl)]
  simp only [GrammarError.renumber_id]
  cases ofDocument text source <;> rfl

/-! ## Comment lines -/

theorem linesOf_eq_splitOn (cs : List Char) : linesOf cs = cs.splitOn '\n' := by
  induction cs with
  | nil => rfl
  | cons c cs ih =>
    rw [linesOf, ih, List.splitOn_cons_eq_if_modifyHead]
    by_cases hc : c = '\n'
    · simp [hc]
    · rw [if_neg hc, if_neg (by simpa using hc)]
      have hne := List.splitOn_ne_nil '\n' cs
      generalize cs.splitOn '\n' = lines at hne
      cases lines with
      | nil => exact absurd rfl hne
      | cons line lines => rfl

/-- A text with one line more, before its `k`-th line, counted from zero, or at its end. -/
def insertLine (k : Nat) (line : List Char) (text : String) : String :=
  String.ofList
    (['\n'].intercalate ((linesOf text.toList).take k ++ line :: (linesOf text.toList).drop k))

/-- The number of a line, counted from one, when a line was put behind the first `k`. -/
def numberBehind (k number : Nat) : Nat :=
  if number ≤ k then number else number + 1

theorem not_mem_of_mem_linesOf {cs line : List Char} (h : line ∈ linesOf cs) : '\n' ∉ line := by
  induction cs generalizing line with
  | nil =>
    rw [List.mem_singleton.1 h]
    exact List.not_mem_nil
  | cons c cs ih =>
    by_cases hc : c = '\n'
    · rw [linesOf, if_pos hc] at h
      rcases List.mem_cons.1 h with rfl | h
      · exact List.not_mem_nil
      · exact ih h
    · have hne : '\n' ≠ c := fun heq => hc heq.symm
      rw [linesOf, if_neg hc] at h
      generalize linesOf cs = lines at h ih
      cases lines with
      | nil =>
        rw [List.mem_singleton.1 h]
        simpa using hne
      | cons first lines =>
        rcases List.mem_cons.1 h with rfl | h
        · exact List.not_mem_cons_of_ne_of_not_mem hne (ih List.mem_cons_self)
        · exact ih (List.mem_cons_of_mem _ h)

/-- A line that is put into a text is one of its lines, and the others are those of the text. -/
theorem linesOf_insertLine {k : Nat} {line : List Char} (hline : '\n' ∉ line) (text : String) :
    linesOf (insertLine k line text).toList =
      (linesOf text.toList).take k ++ line :: (linesOf text.toList).drop k := by
  rw [insertLine, String.toList_ofList, linesOf_eq_splitOn]
  refine List.splitOn_intercalate '\n' (fun l hl => ?_) (by simp)
  rcases List.mem_append.1 hl with hl | hl
  · exact not_mem_of_mem_linesOf (List.mem_of_mem_take hl)
  · rcases List.mem_cons.1 hl with rfl | hl
    · exact hline
    · exact not_mem_of_mem_linesOf (List.mem_of_mem_drop hl)

theorem readLines_append (before after : List (List Char)) :
    d.readLines source number (before ++ after) =
      match d.readLines source number before with
      | .error e => .error e
      | .ok d => d.readLines source (number + before.length) after := by
  induction before generalizing d number with
  | nil => rfl
  | cons raw before ih =>
    rw [List.cons_append, Draft.readLines, Draft.readLines]
    cases d.readLine source number raw with
    | error e => rfl
    | ok d =>
      dsimp only
      rw [ih, List.length_cons, Nat.add_assoc, Nat.add_comm 1]

theorem isBlank_slash : Text.isBlank '/' = false := by
  decide +kernel

theorem exists_of_isComment (h : isComment raw = true) : ∃ rest, raw = '/' :: '/' :: rest := by
  rcases List.isPrefixOf_iff_prefix.1 h with ⟨rest, hrest⟩
  exact ⟨rest, hrest.symm⟩

/-- A comment line adds nothing to a draft. -/
theorem exists_readLine_of_isComment (d : Draft) (source : String) (number : Nat)
    (h : isComment comment = true) :
    ∃ d', d.readLine source number comment = .ok d' ∧ d.Alike d' := by
  rcases exists_of_isComment h with ⟨rest, rfl⟩
  rcases d with ⟨g, _ | ⟨name, body⟩⟩
  · refine ⟨⟨g, none⟩, ?_, .outside g⟩
    have htrim : Text.trimEnd ('/' :: '/' :: rest) = '/' :: '/' :: Text.trimEnd rest := by
      rw [Text.trimEnd_cons_of_not_blank isBlank_slash, Text.trimEnd_cons_of_not_blank isBlank_slash]
    show readOutside source number g _ = _
    rw [readOutside, htrim]
    rfl
  · refine ⟨⟨g, some (name, ('/' :: '/' :: rest) :: body)⟩, rfl, .inside g name ?_⟩
    have hnothing : bodyOf ['/' :: '/' :: rest] = [] := by
      unfold bodyOf
      rw [List.filter_cons, Text.trimStart_cons_of_not_blank isBlank_slash, h]
      rfl
    rw [bodyOf_reverse_cons, hnothing, List.append_nil]

/-- A comment line that is put between two lines of a document, or at either end, changes nothing but the numbers
of the lines behind it. -/
theorem ofDocument_insertLine (text source : String) {k : Nat}
    (hk : k ≤ (linesOf text.toList).length) (hcomment : isComment comment = true)
    (hline : '\n' ∉ comment) :
    linesOf (insertLine k comment text).toList =
        (linesOf text.toList).take k ++ comment :: (linesOf text.toList).drop k ∧
      ofDocument (insertLine k comment text) source =
        (ofDocument text source).mapError (·.renumber (numberBehind k)) := by
  have hlines := linesOf_insertLine (k := k) hline text
  refine ⟨hlines, ofDocument_congr ?_⟩
  rw [hlines]
  generalize linesOf text.toList = lines at hk
  have hlength : (lines.take k).length = k := by
    rw [List.length_take, Nat.min_eq_left hk]
  have hrefl (ls : List (List Char)) : List.Forall₂ ReadsLike ls ls :=
    List.forall₂_same.2 fun raw _ => readsLike_refl raw
  have hbefore : ComesToSame (numberBehind k)
      (Draft.readLines source 1 ⟨.empty, none⟩ (lines.take k))
      (Draft.readLines source 1 ⟨.empty, none⟩ (lines.take k)) :=
    readLines_congr (.outside .empty) (hrefl _) fun i hi => (if_pos (by omega)).symm
  nth_rewrite 1 [← List.take_append_drop k lines]
  rw [readLines_append, readLines_append, hlength]
  -- The lines before the comment are the same, those behind it have numbers that are greater by one.
  generalize Draft.readLines source 1 ⟨.empty, none⟩ (lines.take k) = r at hbefore ⊢
  rcases r with e | d
  · exact hbefore
  · rcases exists_readLine_of_isComment d source (1 + k) hcomment with ⟨d', hline, halike⟩
    dsimp only
    rw [Draft.readLines, hline]
    exact readLines_congr halike (hrefl _) fun i _ => by
      rw [numberBehind, if_neg (by omega)]
      omega

/-- A comment between a header and its body leaves the body in place, and the number of a malformed line behind it
grows by one. -/
theorem ofDocument_insertLine_heading :
    isComment "// a".toList = true ∧ '\n' ∉ "// a".toList ∧
      1 ≤ (linesOf "r:\n  <a>\noops".toList).length ∧
      insertLine 1 "// a".toList "r:\n  <a>\noops" = "r:\n// a\n  <a>\noops" ∧
      ofDocument "r:\n// a\n  <a>\noops" "g" = .error (.malformedHeader "oops" "g" 4) := by
  have hk : 1 ≤ (linesOf "r:\n  <a>\noops".toList).length := by decide
  have htext : insertLine 1 "// a".toList "r:\n  <a>\noops" = "r:\n// a\n  <a>\noops" := by decide
  have herror : ofDocument "r:\n  <a>\noops" "g" = .error (.malformedHeader "oops" "g" 3) := by rfl
  have hcomment : isComment "// a".toList = true := rfl
  have hline : '\n' ∉ "// a".toList := by decide
  have hinsert := (ofDocument_insertLine "r:\n  <a>\noops" "g" hk hcomment hline).2
  rw [htext, herror] at hinsert
  exact ⟨hcomment, hline, hk, htext, hinsert⟩

end Grammar

end Descent
