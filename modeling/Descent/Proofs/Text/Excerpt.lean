import Descent.Proofs.Text.Position

/-!
# Carets

The excerpt at an offset shows the line that the offset is in and a caret below it.  The line is shown
without the carriage return that may end it, but the caret counts every character before the offset.  So
the caret is under the character at the offset wherever that is shown, and right behind what is shown at
a terminator or at the end, except behind a carriage return that ends the line: there it is one place
further right.

Main results:

- `LineIndex.lineOctets_count`: a line is what stands between two newlines, without a carriage return.
- `LineIndex.lineText_eq` and `LineIndex.excerpt_eq`: the line and the excerpt at a cut between characters.
- `LineIndex.caret_of_excerpt`: what the caret of an excerpt stands under.
- `LineIndex.caret_behind_return`: behind a carriage return the caret is too far right.
-/

namespace Descent.Text

/-! ## Lines as they are shown -/

/-- The part of a line before a cut. -/
def seenOf (before : List Char) : List Char :=
  before.rtakeWhile (· != '\n')

/-- The part of a line behind a cut, without its newline. -/
def restOf (after : List Char) : List Char :=
  after.takeWhile (· != '\n')

/-- A line without the carriage return that may end it. -/
def withoutReturn (line : List Char) : List Char :=
  if line.getLast? = some '\r' then line.dropLast else line

/-- The line at a cut, as it is shown. -/
def shownAt (before after : List Char) : List Char :=
  withoutReturn (seenOf before ++ restOf after)

theorem newline_not_mem_seenOf (before : List Char) : '\n' ∉ seenOf before := by
  intro hmem
  simpa using List.mem_rtakeWhile_imp hmem

theorem newline_not_mem_restOf (after : List Char) : '\n' ∉ restOf after := by
  intro hmem
  simpa using List.mem_takeWhile_imp hmem

theorem isPrefix_withoutReturn (line : List Char) : withoutReturn line <+: line := by
  unfold withoutReturn
  split
  · exact List.dropLast_prefix line
  · exact List.prefix_rfl

theorem length_withoutReturn (line : List Char) :
    (withoutReturn line).length = line.length - if line.getLast? = some '\r' then 1 else 0 := by
  unfold withoutReturn
  split
  · exact List.length_dropLast
  · rfl

theorem newline_not_mem_shownAt (before after : List Char) : '\n' ∉ shownAt before after := by
  intro hmem
  rcases List.mem_append.1 ((isPrefix_withoutReturn _).subset hmem) with hseen | hrest
  · exact newline_not_mem_seenOf before hseen
  · exact newline_not_mem_restOf after hrest

/-- Removing a carriage return from the octets of a line removes it from the line. -/
theorem stripReturn_octets (line : List Char) :
    LineIndex.stripReturn (octets line) = octets (withoutReturn line) := by
  have hiff : (octets line).getLast? = some carriageReturn ↔ line.getLast? = some '\r' :=
    getLast?_octets_iff (by decide)
  unfold LineIndex.stripReturn withoutReturn
  by_cases hreturn : line.getLast? = some '\r'
  · rw [if_pos hreturn, if_pos (hiff.2 hreturn)]
    obtain ⟨init, rfl⟩ := List.getLast?_eq_some_iff.1 hreturn
    have hchar : octets ['\r'] = [carriageReturn] := by decide
    rw [octets_append, hchar, List.dropLast_concat, List.dropLast_concat]
  · rw [if_neg hreturn, if_neg (mt hiff.1 hreturn)]

/-! ## What is shown at the cut -/

/-- The character behind the cut is shown unless it is a terminator or there is none. -/
theorem lt_length_shownAt_iff (before after : List Char) :
    (seenOf before).length < (shownAt before after).length ↔
      restOf after ≠ [] ∧ restOf after ≠ ['\r'] := by
  rw [shownAt, length_withoutReturn, List.getLast?_append, List.length_append]
  rcases restOf after with _ | ⟨c, _ | ⟨d, rest⟩⟩
  · simp
  · by_cases hc : c = '\r' <;> simp [hc]
  · simp only [List.length_cons, ne_eq, reduceCtorEq, not_false_eq_true, List.cons.injEq, and_false,
      and_self, iff_true]
    split <;> omega

/-- The character shown in the place of the caret is the one behind the cut. -/
theorem exists_head?_of_lt {before after : List Char}
    (h : (seenOf before).length < (shownAt before after).length) :
    ∃ c, after.head? = some c ∧ (shownAt before after)[(seenOf before).length]? = some c := by
  rcases isPrefix_withoutReturn (seenOf before ++ restOf after) with ⟨stripped, hstripped⟩
  have hshown : (shownAt before after)[(seenOf before).length]? = (restOf after)[0]? := by
    have hline : (shownAt before after ++ stripped)[(seenOf before).length]? =
        (shownAt before after)[(seenOf before).length]? := List.getElem?_append_left h
    rw [shownAt, hstripped, List.getElem?_append_right (Nat.le_refl _), Nat.sub_self] at hline
    exact hline.symm
  have hsome := List.getElem?_eq_getElem h
  refine ⟨_, ?_, hsome⟩
  rw [hshown, ← List.head?_eq_getElem?, restOf, List.head?_takeWhile,
    Option.filter_eq_some_iff] at hsome
  exact hsome.1

/-- In the place of a carriage return that is not shown the caret is right behind what is shown. -/
theorem length_seenOf_of_return {before after : List Char} (h : restOf after = ['\r']) :
    (seenOf before).length = (shownAt before after).length := by
  rw [shownAt, h, length_withoutReturn, List.getLast?_concat, if_pos rfl, List.length_append]
  simp

/-- In the place of a newline, or at the end, the caret is right behind what is shown if this is all that
stands before it in the line, and one place further if that ends with a carriage return. -/
theorem length_seenOf_of_end {before after : List Char} (h : restOf after = []) :
    (seenOf before).length = (shownAt before after).length +
      if (seenOf before).getLast? = some '\r' then 1 else 0 := by
  rw [shownAt, h, List.append_nil, length_withoutReturn]
  split
  · rename_i hreturn
    have hpos := List.length_pos_of_mem (List.mem_of_getLast? hreturn)
    omega
  · rfl

namespace LineIndex

/-! ## Lines of an index -/

/-- A line is what stands between two newlines, without the carriage return that may end it. -/
theorem lineOctets_count {front line rest : List UInt8} (hfront : EndsLine front)
    (hline : newline ∉ line) (hrest : rest = [] ∨ rest.head? = some newline) :
    (ofOctets (front ++ (line ++ rest))).lineOctets (front.count newline) = stripReturn line := by
  have hslice : slice (front ++ (line ++ rest)) front.length (front.length + line.length) = line := by
    rw [slice, ← List.append_assoc, ← List.length_append, List.take_left, List.drop_left]
  have hnext : (ofOctets (front ++ (line ++ rest))).starts[front.count newline + 1]? =
      (startsAfter (front.length + line.length) rest)[0]? := by
    unfold ofOctets
    dsimp only
    rw [List.getElem?_cons_succ, startsAfter_append, startsAfter_append,
      startsAfter_of_not_mem _ hline, List.nil_append,
      List.getElem?_append_right (Nat.le_of_eq (length_startsAfter 0 front)), length_startsAfter,
      Nat.sub_self, Nat.zero_add]
  unfold lineOctets
  rw [starts_count hfront, hnext]
  dsimp only
  rcases rest with _ | ⟨b, rest⟩
  · rw [show (ofOctets (front ++ (line ++ []))).text.length = front.length + line.length by
      simp [ofOctets]]
    exact congrArg stripReturn hslice
  · obtain rfl : b = newline := by
      rcases hrest with hnil | hhead
      · cases hnil
      · exact Option.some.inj hhead
    exact congrArg stripReturn hslice

/-- A cut between two characters leaves whole lines and the part of the line before it. -/
theorem cutsAt_octets (before after : List Char) :
    CutsAt (octets (before ++ after)) (octets before).length
      (octets (before.rdropWhile (· != '\n'))) (octets (seenOf before)) := by
  refine ⟨?_, ?_, ?_⟩
  · rw [octets_append, List.take_left, ← octets_append, seenOf, List.rdropWhile_append_rtakeWhile]
  · rcases getLast?_rdropWhile '\n' before with hnil | hlast
    · rw [hnil]
      exact .inl rfl
    · exact .inr ((getLast?_octets_iff (by decide)).2 hlast)
  · exact fun hmem => newline_not_mem_seenOf before (mem_of_mem_octets hmem (by decide))

theorem ofString_ofList (cs : List Char) : ofString (String.ofList cs) = ofOctets (octets cs) := by
  rw [ofString, String.toList_ofList]

/-- The line shown at a cut between two characters. -/
theorem lineText_eq (before after : List Char) :
    (ofOctets (octets (before ++ after))).lineText
      ((octets (before.rdropWhile (· != '\n'))).count newline) = String.ofList (shownAt before after) := by
  have hcut := cutsAt_octets before after
  have hunbroken : newline ∉ octets (seenOf before ++ restOf after) := by
    intro hmem
    have hchar := mem_of_mem_octets hmem (by decide)
    rcases List.mem_append.1 hchar with hseen | hrest
    · exact newline_not_mem_seenOf before hseen
    · exact newline_not_mem_restOf after hrest
  have hends : octets (after.dropWhile (· != '\n')) = [] ∨
      (octets (after.dropWhile (· != '\n'))).head? = some newline := by
    have hhead := List.head?_dropWhile_not (· != '\n') after
    rcases hlater : after.dropWhile (· != '\n') with _ | ⟨c, later⟩
    · exact .inl rfl
    · obtain rfl : c = '\n' := by simpa [hlater] using hhead
      exact .inr rfl
  have hoctets : octets (before ++ after) = octets (before.rdropWhile (· != '\n')) ++
      (octets (seenOf before ++ restOf after) ++ octets (after.dropWhile (· != '\n'))) := by
    rw [← octets_append, ← octets_append, List.append_assoc, restOf, List.takeWhile_append_dropWhile,
      ← List.append_assoc, seenOf, List.rdropWhile_append_rtakeWhile]
  rw [lineText, hoctets, lineOctets_count hcut.endsLine hunbroken hends, stripReturn_octets,
    decode_octets, shownAt]

/-- The excerpt at a cut between two characters. -/
theorem excerpt_eq (before after : List Char) :
    (ofOctets (octets (before ++ after))).excerpt (octets before).length =
      String.ofList (shownAt before after ++
        '\n' :: (List.replicate (seenOf before).length ' ' ++ ['↑'])) := by
  have hcut := cutsAt_octets before after
  unfold excerpt
  dsimp only
  rw [hcut.lineOf_eq, hcut.startOf_eq, hcut.charsBetween_eq, decode_octets, lineText_eq,
    ← String.toList_inj]
  simp

/-- The character behind a cut between two characters; there is none at the end. -/
theorem charAt_eq (before after : List Char) :
    (ofOctets (octets (before ++ after))).charAt (octets before).length =
      String.ofList (after.take 1) := by
  have hclamp : (ofOctets (octets (before ++ after))).clamp (octets before).length =
      (octets before).length :=
    Nat.min_eq_left (by rw [ofOctets, octets_append, List.length_append]; omega)
  have hdrop : (ofOctets (octets (before ++ after))).text.drop (octets before).length =
      octets after := by
    rw [ofOctets, octets_append, List.drop_left]
  rw [charAt, hclamp, hdrop]
  rcases after with _ | ⟨c, after⟩
  · rfl
  · have hwhole : (String.utf8EncodeChar c).take 4 = String.utf8EncodeChar c :=
      List.take_of_length_le (String.length_utf8EncodeChar c ▸ Char.utf8Size_le_four c)
    have hfirst := decode_octets_append [c] ((octets after).take (4 - c.utf8Size))
    rw [octets_cons, octets_nil, List.append_nil] at hfirst
    rw [octets_cons, List.take_append, String.length_utf8EncodeChar, hwhole, hfirst]
    rfl

/-! ## Carets -/

/-- The excerpt at a cut between two characters shows the line there, without newline, and a caret.  The
character behind the cut is shown unless it ends the line or there is none, and then it is the one above the
caret and the character of the cut.  At a carriage return that ends the line the caret stands right behind
what is shown.  It does so at a newline and at the end as well, unless the line before the cut ends with a
carriage return, and then it stands one place further right. -/
theorem caret_of_excerpt (before after : List Char) :
    (ofString (String.ofList (before ++ after))).excerpt (octets before).length =
        String.ofList (shownAt before after ++
          '\n' :: (List.replicate (seenOf before).length ' ' ++ ['↑'])) ∧
      (ofString (String.ofList (before ++ after))).lineText
          ((ofString (String.ofList (before ++ after))).position (octets before).length .chars).line =
        String.ofList (shownAt before after) ∧
      '\n' ∉ shownAt before after ∧
      (ofString (String.ofList (before ++ after))).charAt (octets before).length =
        String.ofList (after.take 1) ∧
      ((seenOf before).length < (shownAt before after).length ↔
        restOf after ≠ [] ∧ restOf after ≠ ['\r']) ∧
      ((seenOf before).length < (shownAt before after).length →
        ∃ c, (shownAt before after)[(seenOf before).length]? = some c ∧
          (ofString (String.ofList (before ++ after))).charAt (octets before).length =
            String.ofList [c]) ∧
      (restOf after = ['\r'] → (seenOf before).length = (shownAt before after).length) ∧
      (restOf after = [] → (seenOf before).length = (shownAt before after).length +
        if (seenOf before).getLast? = some '\r' then 1 else 0) := by
  rw [ofString_ofList]
  refine ⟨excerpt_eq before after, ?_, newline_not_mem_shownAt before after, charAt_eq before after,
    lt_length_shownAt_iff before after, fun hlt => ?_, length_seenOf_of_return, length_seenOf_of_end⟩
  · rw [(cutsAt_octets before after).position_chars]
    exact lineText_eq before after
  · rcases exists_head?_of_lt hlt with ⟨c, hhead, hshown⟩
    refine ⟨c, hshown, ?_⟩
    obtain ⟨later, rfl⟩ := List.head?_eq_some_iff.1 hhead
    exact charAt_eq before (c :: later)

/-- The caret under a character that is shown, at the carriage return of a line, and at its newline. -/
theorem caret_of_excerpt_return :
    (∃ c, (shownAt ['a'] ['b', '\r', '\n', 'c'])[(seenOf ['a']).length]? = some c ∧
      (ofString (String.ofList (['a'] ++ ['b', '\r', '\n', 'c']))).charAt (octets ['a']).length =
        String.ofList [c]) ∧
    (seenOf ['a', 'b']).length = (shownAt ['a', 'b'] ['\r', '\n', 'c']).length ∧
    (seenOf ['a', 'b', '\r']).length = (shownAt ['a', 'b', '\r'] ['\n', 'c']).length + 1 := by
  rcases caret_of_excerpt ['a'] ['b', '\r', '\n', 'c'] with ⟨-, -, -, -, -, hshown, -, -⟩
  rcases caret_of_excerpt ['a', 'b'] ['\r', '\n', 'c'] with ⟨-, -, -, -, -, -, hreturn, -⟩
  rcases caret_of_excerpt ['a', 'b', '\r'] ['\n', 'c'] with ⟨-, -, -, -, -, -, -, hend⟩
  exact ⟨hshown (by decide), hreturn (by decide), hend (by decide)⟩

/-- At the newline behind a carriage return the line is shown without both, and the caret stands not right
behind it but one place further right. -/
theorem caret_behind_return :
    (ofString "a\r\nb").charAt 2 = "\n" ∧
      (ofString "a\r\nb").position 2 .chars = ⟨0, 2⟩ ∧ (ofString "a\r\nb").lineText 0 = "a" ∧
      (ofString "a\r\nb").excerpt 2 = "a\n  ↑" ∧ (ofString "a\r\nb").excerpt 2 ≠ "a\n ↑" := by
  decide +kernel

end LineIndex

end Descent.Text
