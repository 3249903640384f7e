/-!
# Maps in insertion order

A map whose entries keep the order in which their keys first came: a new value for a known key
takes the old one's place, and erasing closes the gap.

Main results:

- `get?_insert_self` and `get?_insert_of_ne` say what an insertion changes, and `get?_erase_of_ne`
  what erasing does not.
- `keys_insert_of_contains` and `keys_insert_of_not_contains` say where its key stands.
- `nodup_keys_insert` and `nodup_keys_erase`: keys that come once go on doing so.
- `Extends.get?`: where the entries of a map come first in another one, values stay under their keys.
-/

namespace Descent

/-- Entries with distinct keys, oldest key first. -/
structure OrderedMap (κ : Type) (α : Type) where
  entries : List (κ × α)
  deriving Repr

namespace OrderedMap

variable {κ α : Type} [DecidableEq κ]

/-- The map without entries. -/
def empty : OrderedMap κ α :=
  ⟨[]⟩

/-- The value under a key. -/
def get? (m : OrderedMap κ α) (k : κ) : Option α :=
  (m.entries.find? (·.1 = k)).map (·.2)

/-- Whether a key has a value. -/
def contains (m : OrderedMap κ α) (k : κ) : Bool :=
  m.entries.any (·.1 = k)

/-- Replaces the value of a known key in some entries, or adds a new key at their end. -/
def insertEntry (k : κ) (v : α) : List (κ × α) → List (κ × α)
  | [] => [(k, v)]
  | e :: rest => if e.1 = k then (k, v) :: rest else e :: insertEntry k v rest

/-- Sets the value of a key; a known key keeps its place. -/
def insert (m : OrderedMap κ α) (k : κ) (v : α) : OrderedMap κ α :=
  ⟨insertEntry k v m.entries⟩

/-- Removes a key; later ones move up. -/
def erase (m : OrderedMap κ α) (k : κ) : OrderedMap κ α :=
  ⟨m.entries.eraseP (·.1 = k)⟩

/-- The keys, oldest first. -/
def keys (m : OrderedMap κ α) : List κ :=
  m.entries.map (·.1)

/-- The values, in the order of their keys. -/
def values (m : OrderedMap κ α) : List α :=
  m.entries.map (·.2)

/-- The number of keys. -/
def size (m : OrderedMap κ α) : Nat :=
  m.entries.length

/-- Whether there is no key. -/
def isEmpty (m : OrderedMap κ α) : Bool :=
  m.entries.isEmpty

@[simp]
theorem get?_empty (k : κ) : (empty : OrderedMap κ α).get? k = none :=
  rfl

@[simp]
theorem contains_empty (k : κ) : (empty : OrderedMap κ α).contains k = false :=
  rfl

/-- A value under a key is in the entry of the key. -/
theorem mem_entries_of_get? {m : OrderedMap κ α} {k : κ} {v : α} (h : m.get? k = some v) :
    (k, v) ∈ m.entries := by
  obtain ⟨e, he, rfl⟩ := Option.map_eq_some_iff.1 h
  have hkey := List.find?_some he
  simp only [decide_eq_true_eq] at hkey
  rw [← hkey]
  exact List.mem_of_find?_eq_some he

/-- The keys are those with a value. -/
theorem mem_keys_iff {m : OrderedMap κ α} {k : κ} : k ∈ m.keys ↔ m.get? k ≠ none := by
  constructor
  · intro h hnone
    rcases List.mem_map.1 h with ⟨e, he, rfl⟩
    rw [get?, Option.map_eq_none_iff, List.find?_eq_none] at hnone
    exact hnone e he (by simp)
  · intro h
    rcases Option.ne_none_iff_exists'.1 h with ⟨v, hv⟩
    exact List.mem_map_of_mem (mem_entries_of_get? hv)

theorem contains_iff_mem_keys {m : OrderedMap κ α} {k : κ} : m.contains k = true ↔ k ∈ m.keys := by
  simp [contains, keys]

private theorem find?_insertEntry_self (k : κ) (v : α) (es : List (κ × α)) :
    (insertEntry k v es).find? (·.1 = k) = some (k, v) := by
  induction es with
  | nil => simp [insertEntry]
  | cons e rest ih => by_cases h : e.1 = k <;> simp [insertEntry, h, ih]

private theorem find?_insertEntry_of_ne {k j : κ} (v : α) (h : k ≠ j) (es : List (κ × α)) :
    (insertEntry k v es).find? (·.1 = j) = es.find? (·.1 = j) := by
  induction es with
  | nil => simp [insertEntry, h]
  | cons e rest ih =>
    by_cases hk : e.1 = k
    · simp [insertEntry, hk, h]
    · simp only [insertEntry, if_neg hk, List.find?_cons, ih]

@[simp]
theorem get?_insert_self (m : OrderedMap κ α) (k : κ) (v : α) :
    (m.insert k v).get? k = some v := by
  simp [get?, insert, find?_insertEntry_self]

theorem get?_insert_of_ne (m : OrderedMap κ α) {k j : κ} (v : α) (h : k ≠ j) :
    (m.insert k v).get? j = m.get? j := by
  simp [get?, insert, find?_insertEntry_of_ne v h]

private theorem find?_eraseP_of_ne {k j : κ} (h : k ≠ j) (es : List (κ × α)) :
    (es.eraseP (·.1 = k)).find? (·.1 = j) = es.find? (·.1 = j) := by
  induction es with
  | nil => rfl
  | cons e rest ih =>
    by_cases hk : e.1 = k
    · simp [hk, h]
    · simp only [List.eraseP_cons, hk, decide_false, cond_false, List.find?_cons, ih]

/-- Erasing a key changes nothing under the others. -/
theorem get?_erase_of_ne (m : OrderedMap κ α) {k j : κ} (h : k ≠ j) :
    (m.erase k).get? j = m.get? j := by
  simp only [get?, erase, find?_eraseP_of_ne h]

/-- An entry after an insertion is the new one or an old one. -/
theorem mem_entries_insert {m : OrderedMap κ α} {k : κ} {v : α} {e : κ × α}
    (h : e ∈ (m.insert k v).entries) : e = (k, v) ∨ e ∈ m.entries := by
  obtain ⟨entries⟩ := m
  change e ∈ insertEntry k v entries at h
  induction entries with
  | nil => exact .inl (List.mem_singleton.1 h)
  | cons first rest ih =>
    unfold insertEntry at h
    split at h
    · rcases List.mem_cons.1 h with rfl | h
      · exact .inl rfl
      · exact .inr (List.mem_cons_of_mem _ h)
    · rcases List.mem_cons.1 h with rfl | h
      · exact .inr List.mem_cons_self
      · exact (ih h).imp_right (List.mem_cons_of_mem _)

private theorem keys_insertEntry (k : κ) (v : α) (es : List (κ × α)) :
    (insertEntry k v es).map (·.1) =
      if es.any (·.1 = k) then es.map (·.1) else es.map (·.1) ++ [k] := by
  induction es with
  | nil => simp [insertEntry]
  | cons e rest ih =>
    by_cases h : e.1 = k
    · simp [insertEntry, h]
    · simp only [insertEntry, h, if_false, List.map_cons, ih, List.any_cons, decide_false,
        Bool.false_or]
      split <;> simp

/-- A known key keeps its place. -/
theorem keys_insert_of_contains (m : OrderedMap κ α) {k : κ} (v : α) (h : m.contains k) :
    (m.insert k v).keys = m.keys := by
  unfold contains at h
  simp [keys, insert, keys_insertEntry, h]

/-- A new key goes last. -/
theorem keys_insert_of_not_contains (m : OrderedMap κ α) {k : κ} (v : α)
    (h : m.contains k = false) : (m.insert k v).keys = m.keys ++ [k] := by
  unfold contains at h
  simp [keys, insert, keys_insertEntry, h]

/-- Entries under other keys stay in front. -/
theorem insertEntry_append_of_not_mem {k : κ} {front : List (κ × α)} (h : k ∉ front.map (·.1)) (v : α)
    (back : List (κ × α)) : insertEntry k v (front ++ back) = front ++ insertEntry k v back := by
  induction front with
  | nil => rfl
  | cons e front ih =>
    rw [List.map_cons, List.mem_cons, not_or] at h
    rw [List.cons_append, insertEntry, if_neg (Ne.symm h.1), ih h.2, List.cons_append]

/-- The entry of a new key goes last. -/
theorem entries_insert_of_not_mem (m : OrderedMap κ α) {k : κ} (v : α) (h : k ∉ m.keys) :
    (m.insert k v).entries = m.entries ++ [(k, v)] := by
  have happend := insertEntry_append_of_not_mem h v []
  rw [List.append_nil] at happend
  exact happend

/-! ## Keys that come once -/

theorem nodup_keys_insert {m : OrderedMap κ α} (h : m.keys.Nodup) (k : κ) (v : α) :
    (m.insert k v).keys.Nodup := by
  by_cases hk : m.contains k = true
  · rw [keys_insert_of_contains m v hk]
    exact h
  · have hnew : k ∉ m.keys := fun hmem => hk (contains_iff_mem_keys.2 hmem)
    rw [keys_insert_of_not_contains m v (Bool.not_eq_true _ ▸ hk)]
    refine List.nodup_append.2 ⟨h, by simp, fun a ha b hb => ?_⟩
    rintro rfl
    exact hnew (List.mem_singleton.1 hb ▸ ha)

theorem nodup_keys_erase {m : OrderedMap κ α} (h : m.keys.Nodup) (k : κ) : (m.erase k).keys.Nodup :=
  (List.Sublist.map _ List.eraseP_sublist).nodup h

/-! ## Maps that go on -/

/-- The entries of a map come first in another one. -/
def Extends (m m' : OrderedMap κ α) : Prop :=
  m.entries <+: m'.entries

variable {m m' : OrderedMap κ α} {k : κ}

omit [DecidableEq κ] in
theorem Extends.refl (m : OrderedMap κ α) : m.Extends m :=
  List.prefix_rfl

theorem Extends.insert (h : m.Extends m') (hk : k ∉ m.keys) (v : α) : m.Extends (m'.insert k v) := by
  rcases h with ⟨back, hback⟩
  refine ⟨insertEntry k v back, ?_⟩
  rw [← insertEntry_append_of_not_mem hk, hback]
  rfl

theorem Extends.erase (h : m.Extends m') (hk : k ∉ m.keys) : m.Extends (m'.erase k) := by
  rcases h with ⟨back, hback⟩
  have hother : ∀ e ∈ m.entries, ¬decide (e.1 = k) = true := by
    intro e he hsame
    exact hk (of_decide_eq_true hsame ▸ List.mem_map_of_mem he)
  refine ⟨back.eraseP (·.1 = k), ?_⟩
  rw [← List.eraseP_append_right back hother, hback]
  rfl

/-- Values stay under their keys. -/
theorem Extends.get? (h : m.Extends m') (hk : m.get? k ≠ none) : m'.get? k = m.get? k := by
  rcases h with ⟨back, hback⟩
  rcases Option.ne_none_iff_exists'.1 hk with ⟨v, hv⟩
  obtain ⟨e, he, rfl⟩ := Option.map_eq_some_iff.1 hv
  rw [OrderedMap.get?, ← hback, List.find?_append, he, hv]
  rfl

end OrderedMap

end Descent
