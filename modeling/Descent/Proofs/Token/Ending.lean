import Descent.Proofs.Token.Items

/-!
# The end of a text

The items of a text are tokens that were cut off and kept, and then one last item: the ending at the
length of the text, or an error.

Main results:

- `Scanner.cuts_or_ends`: the next item is a token that was cut off, or the last one.
- `Lexicon.exists_items`: the items of a text come to one last item.
- `Lexicon.tokenize_eq_ok_iff`: the tokens of a text are its items if none is an error.
-/

namespace Descent

/-- The last item of a text: its ending, or an error. -/
def IsLast (text : List UInt8) (item : Except LexError Token) : Prop :=
  item = .ok (.ending text.length) ∨ ∃ e, item = .error e

namespace Scanner

variable {s s' : Scanner} {t : Token} {fuel : Nat} {item : Except LexError Token}

/-- A scanner that came from another one by a match: it is further on in the same text. -/
structure Later (s s' : Scanner) : Prop where
  lexicon : s'.lexicon = s.lexicon
  text : s'.text = s.text
  finished : s'.finished = s.finished
  length_lt : s'.after.length < s.after.length

theorem Later.trans {s'' : Scanner} (h : Later s s') (h' : Later s' s'') : Later s s'' :=
  ⟨h'.lexicon.trans h.lexicon, h'.text.trans h.text, h'.finished.trans h.finished,
    Nat.lt_trans h'.length_lt h.length_lt⟩

theorem follow_finished {l : Lexeme} (h : s.follow l = .ok s') : s'.finished = s.finished := by
  unfold follow at h
  dsimp only at h
  repeat' split at h
  all_goals cases h
  all_goals rfl

theorem later_of_scanOne (hs : s.after ≠ []) (h : s.scanOne = .ok (t, s')) : Later s s' := by
  have hlength := after_length_lt hs h
  rcases exists_match_of_scanOne h with ⟨l, n, s'', -, -, hfollow, rfl, rfl⟩
  rcases follow_after hfollow with ⟨hafter, hbefore, hlexicon⟩
  have hfinished := follow_finished hfollow
  refine ⟨hlexicon, ?_, hfinished, hlength⟩
  rw [text_skip, text, text, hafter, hbefore]

theorem isLast_endingItem (hs : s.after = []) : IsLast s.text s.endingItem := by
  have hoffset : s.offset = s.text.length := by simp [offset, text, hs]
  unfold endingItem
  split
  · exact .inr ⟨_, rfl⟩
  · rw [hoffset]
    exact .inl rfl

/-- The next item is a token that was cut off and kept, or the last one. -/
theorem cuts_or_ends (hfuel : s.after.length < fuel) (h : s.nextKept fuel = (item, s')) :
    (∃ t, item = .ok t ∧ s.lexicon.Cuts t ∧ t.keep = true ∧ Later s s') ∨
      IsLast s.text item ∧ s'.finished = true := by
  induction fuel generalizing s with
  | zero => exact absurd hfuel (Nat.not_lt_zero _)
  | succ fuel ih =>
    unfold nextKept at h
    split at h
    · rename_i hempty
      cases h
      exact .inr ⟨isLast_endingItem (List.isEmpty_iff.1 hempty), rfl⟩
    · rename_i hempty
      split at h
      · cases h
        exact .inr ⟨.inr ⟨_, rfl⟩, rfl⟩
      · rename_i t s'' hscan
        have hlater := later_of_scanOne (fun hs => hempty (List.isEmpty_iff.2 hs)) hscan
        split at h
        · rename_i hkeep
          cases h
          exact .inl ⟨t, rfl, (cuts_of_scanOne hscan).1, hkeep, hlater⟩
        · have hlt : s''.after.length < fuel := by
            have := hlater.length_lt
            omega
          rcases ih hlt h with ⟨u, hu, hcut, hkeep, hrest⟩ | hlast
          · exact .inl ⟨u, hu, hlater.lexicon ▸ hcut, hkeep, hlater.trans hrest⟩
          · exact .inr (hlater.text ▸ hlast)

end Scanner

namespace Lexicon

variable {lx : Lexicon} {text : List UInt8}

/-- Some tokens and then the last item of a text. -/
structure Ends (lx : Lexicon) (text : List UInt8) (items : List (Except LexError Token))
    (ts : List Token) (last : Except LexError Token) : Prop where
  items_eq : items = ts.map Except.ok ++ [last]
  cuts : ∀ t ∈ ts, lx.Cuts t ∧ t.keep = true
  isLast : IsLast text last

theorem exists_items_from {fuel : Nat} {s : Scanner} (hs : s.finished = false)
    (hfuel : s.after.length + 2 ≤ fuel) :
    ∃ ts last, s.lexicon.Ends s.text ((stepsFrom fuel s).map (·.item)) ts last := by
  induction fuel generalizing s with
  | zero => omega
  | succ fuel ih =>
    rcases hkept : s.nextKept (s.after.length + 1) with ⟨item, s'⟩
    have hnext : s.next? = some (item, s') := by
      simp [Scanner.next?, hs, hkept]
    have hsteps : (stepsFrom (fuel + 1) s).map (·.item) =
        item :: (stepsFrom fuel s').map (·.item) := by
      simp [stepsFrom, hnext]
    rw [hsteps]
    rcases Scanner.cuts_or_ends (Nat.lt_succ_self _) hkept with
      ⟨t, rfl, hcut, hkeep, hlater⟩ | ⟨hlast, hfinished⟩
    · have hlt := hlater.length_lt
      rcases ih (hlater.finished.trans hs) (by omega) with ⟨ts, last, hrest⟩
      refine ⟨t :: ts, last, ?_, ?_, hlater.text ▸ hrest.isLast⟩
      · rw [hrest.items_eq, List.map_cons, List.cons_append]
      · intro u hu
        rcases List.mem_cons.1 hu with rfl | hu
        · exact ⟨hcut, hkeep⟩
        · exact hlater.lexicon ▸ hrest.cuts u hu
    · have hnone : (stepsFrom fuel s').map (·.item) = [] := by
        cases fuel with
        | zero => rfl
        | succ fuel => simp [stepsFrom, Scanner.next?, hfinished]
      rw [hnone]
      exact ⟨[], item, rfl, fun t ht => absurd ht List.not_mem_nil, hlast⟩

/-- The items of a text are tokens that were cut off and kept, and one last item. -/
theorem exists_items (lx : Lexicon) (text : List UInt8) :
    ∃ ts last, lx.Ends text (lx.items text) ts last := by
  have h := exists_items_from (s := .start lx text) rfl (Nat.le_refl _)
  rw [Scanner.text_start] at h
  exact h

theorem collect_map_ok (ts : List Token) : collect (ts.map Except.ok) = .ok ts := by
  induction ts with
  | nil => rfl
  | cons t ts ih => rw [List.map_cons, collect, ih]

theorem items_of_collect {items : List (Except LexError Token)} {ts : List Token}
    (h : collect items = .ok ts) : items = ts.map Except.ok := by
  induction items generalizing ts with
  | nil =>
    cases h
    rfl
  | cons item items ih =>
    cases item with
    | error e => cases h
    | ok t =>
      unfold collect at h
      split at h
      · cases h
      · rename_i us hus
        cases h
        rw [ih hus, List.map_cons]

/-- The tokens of a text are its items if none is an error. -/
theorem tokenize_eq_ok_iff {ts : List Token} :
    lx.tokenize text = .ok ts ↔ lx.items text = ts.map Except.ok := by
  constructor
  · exact items_of_collect
  · intro h
    rw [tokenize, h, collect_map_ok]

end Lexicon

end Descent
