import ManifestTypes.Value.OfNode

/-!
# Values without repeated keys

An object is a list of members. Whatever a document is taken as has no object in which a key
stands twice; `distinct_ofNode` says so.
-/

namespace ManifestTypes

/-- Inserting pairs one after the other repeats no key. -/
theorem Keyed.nodup_keys_ofList {κ α : Type} [BEq κ] [LawfulBEq κ] (pairs : List (κ × α)) :
    (keys (ofList pairs)).Nodup := by
  suffices h : ∀ acc : Keyed κ α, (keys acc).Nodup →
      (keys (pairs.foldl (fun acc p => insert acc p.1 p.2) acc)).Nodup by
    exact h [] List.nodup_nil
  induction pairs with
  | nil => exact fun acc hacc => hacc
  | cons p rest ih => exact fun acc hacc => ih _ (nodup_keys_insert hacc p.1 p.2)

namespace Value

mutual

/-- No object has a key twice. -/
def Distinct : Value → Prop
  | .list elements => DistinctAll elements
  | .object members => (Keyed.keys members).Nodup ∧ DistinctEach members
  | _ => True

def DistinctAll : List Value → Prop
  | [] => True
  | v :: rest => Distinct v ∧ DistinctAll rest

def DistinctEach : List (String × Value) → Prop
  | [] => True
  | (_, v) :: rest => Distinct v ∧ DistinctEach rest

end

theorem distinctAll_iff {elements : List Value} :
    DistinctAll elements ↔ ∀ v ∈ elements, v.Distinct := by
  induction elements with
  | nil => simp [DistinctAll]
  | cons v rest ih => simp [DistinctAll, ih]

theorem distinctEach_iff {members : List (String × Value)} :
    DistinctEach members ↔ ∀ m ∈ members, m.2.Distinct := by
  induction members with
  | nil => simp [DistinctEach]
  | cons m rest ih => simp [DistinctEach, ih]

theorem distinctEach_insert {members : Keyed String Value} {v : Value}
    (h : DistinctEach members) (key : String) (hv : v.Distinct) :
    DistinctEach (members.insert key v) := by
  induction members with
  | nil => exact ⟨hv, h⟩
  | cons m rest ih =>
    obtain ⟨k, w⟩ := m
    rw [Keyed.insert]
    split
    · exact ⟨hv, h.2⟩
    · exact ⟨h.1, ih h.2⟩

theorem distinct_ofPairs {pairs : List (String × Value)} (h : DistinctEach pairs) :
    (ofPairs pairs).Distinct := by
  refine ⟨Keyed.nodup_keys_ofList pairs, ?_⟩
  suffices hfold : ∀ acc : Keyed String Value, DistinctEach acc →
      DistinctEach (pairs.foldl (fun acc p => Keyed.insert acc p.1 p.2) acc) by
    exact hfold [] trivial
  induction pairs with
  | nil => exact fun acc hacc => hacc
  | cons p rest ih => exact fun acc hacc => ih h.2 _ (distinctEach_insert hacc p.1 h.1)

theorem distinct_ofInteger? {n : Int} {v : Value} (h : ofInteger? n = some v) : v.Distinct := by
  unfold ofInteger? at h
  split at h
  · cases h
    trivial
  · cases h

mutual

theorem distinct_ofNode : ∀ {node : Node} {v : Value}, ofNode node = .ok v → v.Distinct
  | .null, _, h => by cases h; trivial
  | .boolean _, _, h => by cases h; trivial
  | .number (.integer n), v, h => by
    rw [ofNode] at h
    split at h
    · next w hw =>
      cases h
      exact distinct_ofInteger? hw
    · cases h
  | .number (.decimal _), _, h => by cases h; trivial
  | .string _, _, h => by cases h; trivial
  | .sequence elements, v, h => by
    rw [ofNode] at h
    cases hvalues : ofNodes elements with
    | error e => rw [hvalues] at h; cases h
    | ok values =>
      rw [hvalues] at h
      cases h
      exact distinctAll_ofNodes hvalues
  | .mapping entries, v, h => by
    rw [ofNode] at h
    cases hpairs : ofEntries entries with
    | error e => rw [hpairs] at h; cases h
    | ok pairs =>
      rw [hpairs] at h
      cases h
      exact distinct_ofPairs (distinctEach_ofEntries hpairs)
  | .tagged _ _, _, h => by
    rw [ofNode] at h
    exact distinct_ofNode h

theorem distinctAll_ofNodes : ∀ {nodes : List Node} {values : List Value},
    ofNodes nodes = .ok values → DistinctAll values
  | [], _, h => by cases h; trivial
  | node :: rest, values, h => by
    rw [ofNodes] at h
    cases hv : ofNode node with
    | error e => rw [hv] at h; cases h
    | ok v =>
      cases hrest : ofNodes rest with
      | error e => rw [hv, hrest] at h; cases h
      | ok more =>
        rw [hv, hrest] at h
        cases h
        exact ⟨distinct_ofNode hv, distinctAll_ofNodes hrest⟩

theorem distinctEach_ofEntries : ∀ {entries : List (Node × Node)} {pairs : List (String × Value)},
    ofEntries entries = .ok pairs → DistinctEach pairs
  | [], _, h => by cases h; trivial
  | (key, node) :: rest, pairs, h => by
    rw [ofEntries] at h
    split at h
    · cases h
    · cases hv : ofNode node with
      | error e => rw [hv] at h; cases h
      | ok v =>
        cases hrest : ofEntries rest with
        | error e => rw [hv, hrest] at h; cases h
        | ok more =>
          rw [hv, hrest] at h
          cases h
          exact ⟨distinct_ofNode hv, distinctEach_ofEntries hrest⟩

end

end Value

end ManifestTypes
