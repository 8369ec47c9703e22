/-!
# Keyed lists

Lists of pairs that are used as mappings which remember their order. A key keeps the place where
it was first inserted and the value that was inserted last.
-/

namespace ManifestTypes

/-- Pairs of a key and a value, in order. -/
abbrev Keyed (κ α : Type) := List (κ × α)

namespace Keyed

variable {κ α β : Type}

def keys (pairs : Keyed κ α) : List κ :=
  pairs.map Prod.fst

section Equality

variable [BEq κ]

def get? (pairs : Keyed κ α) (key : κ) : Option α :=
  (pairs.find? fun p => p.1 == key).map Prod.snd

/-- Replaces the value of the key in its place, or adds the pair at the end. The key that was
there stays. -/
def insert : Keyed κ α → κ → α → Keyed κ α
  | [], key, value => [(key, value)]
  | (k, v) :: rest, key, value =>
    if k == key then (k, value) :: rest else (k, v) :: insert rest key value

def ofList (pairs : List (κ × α)) : Keyed κ α :=
  pairs.foldl (fun acc p => insert acc p.1 p.2) []

/-- Puts in the place of the key what `change` makes of its value, or adds the key at the end. -/
def upsert : Keyed κ α → κ → (Option α → α) → Keyed κ α
  | [], key, change => [(key, change none)]
  | (k, v) :: rest, key, change =>
    if k == key then (k, change (some v)) :: rest else (k, v) :: upsert rest key change

def modify : Keyed κ α → κ → (α → α) → Keyed κ α
  | [], _, _ => []
  | (k, v) :: rest, key, change =>
    if k == key then (k, change v) :: rest else (k, v) :: modify rest key change

end Equality

section Laws

variable [BEq κ] [LawfulBEq κ]

theorem get?_cons (k : κ) (v : α) (rest : Keyed κ α) (key : κ) :
    get? ((k, v) :: rest) key = if k == key then some v else get? rest key := by
  simp only [get?, List.find?_cons]
  split <;> simp_all

theorem mem_keys_insert {pairs : Keyed κ α} {key : κ} {value : α} {k : κ} :
    k ∈ keys (insert pairs key value) ↔ k = key ∨ k ∈ keys pairs := by
  induction pairs with
  | nil => simp [insert, keys]
  | cons p rest ih =>
    obtain ⟨k', v⟩ := p
    simp only [keys] at ih ⊢
    by_cases h : k' = key
    · subst h; simp [insert]
    · simp only [insert, beq_iff_eq, h, if_false, List.map_cons, List.mem_cons, ih]
      grind

/-- Inserting repeats no key. -/
theorem nodup_keys_insert {pairs : Keyed κ α} (h : (keys pairs).Nodup) (key : κ) (value : α) :
    (keys (insert pairs key value)).Nodup := by
  induction pairs with
  | nil => simp [insert, keys]
  | cons p rest ih =>
    obtain ⟨k', v⟩ := p
    simp only [keys, List.map_cons, List.nodup_cons] at h
    by_cases hk : k' = key
    · subst hk
      simpa only [insert, beq_self_eq_true, if_true, keys, List.map_cons, List.nodup_cons]
    · simp only [insert, beq_iff_eq, hk, if_false, keys, List.map_cons, List.nodup_cons]
      refine ⟨fun hmem => ?_, ih h.2⟩
      rcases mem_keys_insert.mp hmem with heq | hrest
      · exact hk heq
      · exact h.1 hrest

/-- The value inserted last is the one that is found. -/
theorem get?_insert (pairs : Keyed κ α) (key : κ) (value : α) (k : κ) :
    get? (insert pairs key value) k = if key == k then some value else get? pairs k := by
  induction pairs with
  | nil => simp [insert, get?_cons]
  | cons p rest ih =>
    obtain ⟨k', v⟩ := p
    by_cases hk : k' = key
    · subst hk
      simp only [insert, beq_self_eq_true, if_true, get?_cons]
      split <;> rfl
    · simp only [insert, beq_iff_eq, hk, if_false, get?_cons, ih]
      grind

end Laws

end Keyed

end ManifestTypes
