import ManifestTypes.Proofs.Keyed.Gathering

/-!
# Changes at a key

A change of the value below one key, seen from the values below all keys: what two changes come
to, which ones change nothing, and what else can be done before or after them.
-/

namespace ManifestTypes.Keyed

variable {κ α β : Type} [BEq κ] [LawfulBEq κ] {pairs : Keyed κ α} {key : κ}

/-! ## In place -/

/-- Without a repeated key there is nothing behind the first value of a key. -/
theorem modify_eq_map [DecidableEq κ] (h : (keys pairs).Nodup) (key : κ) (change : α → α) :
    modify pairs key change = pairs.map fun p => (p.1, if p.1 = key then change p.2 else p.2) := by
  induction pairs with
  | nil => rfl
  | cons p rest ih =>
      obtain ⟨k, v⟩ := p
      simp only [keys, List.map_cons, List.nodup_cons] at h
      by_cases hk : k = key
      · subst hk
        have hrest : ∀ q ∈ rest, (q.1, if q.1 = k then change q.2 else q.2) = q := by
          intro q hq
          have hne : q.1 ≠ k := fun heq => h.1 (heq ▸ List.mem_map_of_mem hq)
          rw [if_neg hne]
        simp [modify, List.map_congr_left hrest]
      · simp [modify, hk, ih h.2]

omit [LawfulBEq κ] in
theorem modify_modify (pairs : Keyed κ α) (key : κ) (first second : α → α) :
    modify (modify pairs key first) key second = modify pairs key (second ∘ first) := by
  induction pairs with
  | nil => rfl
  | cons p rest ih =>
      by_cases hk : p.1 == key
      · simp [modify, hk]
      · simp [modify, hk, ih]

theorem modify_congr {first second : α → α} (h : ∀ v, get? pairs key = some v → first v = second v) :
    modify pairs key first = modify pairs key second := by
  induction pairs with
  | nil => rfl
  | cons p rest ih =>
      obtain ⟨k, v⟩ := p
      simp only [get?_cons] at h
      by_cases hk : (k == key) = true
      · simp only [hk, if_true] at h
        simp [modify, hk, h v rfl]
      · simp only [hk] at h
        simp [modify, hk, ih h]

omit [LawfulBEq κ] in
theorem modify_id (pairs : Keyed κ α) (key : κ) : modify pairs key id = pairs := by
  induction pairs with
  | nil => rfl
  | cons p rest ih =>
      by_cases hk : p.1 == key
      · simp [modify, hk]
      · simp [modify, hk, ih]

/-- Putting back what is there changes nothing. -/
theorem modify_self {value : α} (h : get? pairs key = some value) :
    modify pairs key (fun _ => value) = pairs := by
  have hsame : ∀ v, get? pairs key = some v → value = id v := by
    intro v hv
    rw [h, Option.some.injEq] at hv
    exact hv
  rw [modify_congr hsame, modify_id]

/-- A change of all values can be made before or after the change of one. -/
theorem map_modify {f : κ → α → β} {change : α → α} {change' : β → β}
    (h : ∀ v, f key (change v) = change' (f key v)) (pairs : Keyed κ α) :
    (modify pairs key change).map (fun p => (p.1, f p.1 p.2)) =
      modify (pairs.map fun p => (p.1, f p.1 p.2)) key change' := by
  induction pairs with
  | nil => rfl
  | cons p rest ih =>
      obtain ⟨k, v⟩ := p
      by_cases hk : k = key
      · subst hk
        simp [modify, h]
      · simp [modify, hk, ih]

/-! ## Insertion -/

theorem map_insert (f : κ → α → β) (pairs : Keyed κ α) (key : κ) (value : α) :
    (insert pairs key value).map (fun p => (p.1, f p.1 p.2)) =
      insert (pairs.map fun p => (p.1, f p.1 p.2)) key (f key value) := by
  induction pairs with
  | nil => rfl
  | cons p rest ih =>
      obtain ⟨k, v⟩ := p
      by_cases hk : k = key
      · subst hk
        simp [insert]
      · simp [insert, hk, ih]

/-- Inserting what is there changes nothing. -/
theorem insert_of_get? {value : α} (h : get? pairs key = some value) :
    insert pairs key value = pairs := by
  induction pairs with
  | nil => cases h
  | cons p rest ih =>
      obtain ⟨k, v⟩ := p
      rw [get?_cons] at h
      by_cases hk : (k == key) = true
      · rw [if_pos hk, Option.some.injEq] at h
        simp [insert, hk, h]
      · rw [if_neg hk] at h
        simp [insert, hk, ih h]

/-- Nothing is seen of an insertion by what does not look at the key. -/
theorem filter_insert (keep : κ → Bool) (h : keep key = false) (pairs : Keyed κ α) (value : α) :
    (insert pairs key value).filter (fun p => keep p.1) = pairs.filter fun p => keep p.1 := by
  induction pairs with
  | nil => simp [insert, h]
  | cons p rest ih =>
      obtain ⟨k, v⟩ := p
      by_cases hk : k = key
      · subst hk
        simp [insert, h]
      · simp [insert, hk, List.filter_cons, ih]

end ManifestTypes.Keyed
