import ManifestTypes.Value.Distinct

/-!
# Objects and their members

What objects are made of, level by level. A value that is no object has no members.
-/

namespace ManifestTypes.Value

def IsObject (v : Value) : Prop :=
  ∃ members, v = .object members

def isObject (v : Value) : Bool :=
  v.members?.isSome

def ObjectOf (P : Value → Prop) (v : Value) : Prop :=
  ∃ members, v = .object members ∧ ∀ m ∈ members, P m.2

/-- The members of an object, and none of anything else. -/
def members (v : Value) : Keyed String Value :=
  v.members?.getD []

@[simp] theorem members_object (members : List (String × Value)) :
    (Value.object members).members = members := rfl

@[simp] theorem isObject_object (members : List (String × Value)) :
    (Value.object members).isObject = true := rfl

@[simp] theorem get?_object (members : Keyed String Value) (key : String) :
    (Value.object members).get? key = members.get? key := rfl

theorem getString?_object (members : Keyed String Value) (key : String) :
    (Value.object members).getString? key = (members.get? key).bind string? := rfl

theorem isObject_eq_true_iff {v : Value} : v.isObject = true ↔ v.IsObject := by
  cases v <;> simp [isObject, members?, IsObject]

theorem object_members {v : Value} (h : v.IsObject) : .object v.members = v := by
  obtain ⟨members, rfl⟩ := h
  rfl

theorem objectOf_iff {P : Value → Prop} {v : Value} :
    ObjectOf P v ↔ v.IsObject ∧ ∀ m ∈ v.members, P m.2 := by
  constructor
  · rintro ⟨members, rfl, h⟩
    exact ⟨⟨members, rfl⟩, h⟩
  · rintro ⟨⟨members, rfl⟩, h⟩
    exact ⟨members, rfl, h⟩

theorem distinct_members {v : Value} (h : v.Distinct) :
    (Keyed.keys v.members).Nodup ∧ ∀ m ∈ v.members, m.2.Distinct := by
  cases v with
  | object members => exact ⟨h.1, distinctEach_iff.mp h.2⟩
  | _ => exact ⟨List.nodup_nil, fun m hm => nomatch hm⟩

theorem isObject_of_getString? {v : Value} {key text : String}
    (h : v.getString? key = some text) : v.IsObject := by
  cases v with
  | object members => exact ⟨members, rfl⟩
  | _ => cases h

/-- What holds of a list or an object if it holds of all that stands in it, and of any other value,
holds of every value. -/
theorem induction {motive : Value → Prop}
    (atom : ∀ v, v.elements? = none → v.members? = none → motive v)
    (list : ∀ elements, (∀ v ∈ elements, motive v) → motive (.list elements))
    (object : ∀ members, (∀ m ∈ members, motive m.2) → motive (.object members))
    (v : Value) : motive v := by
  match v with
  | .list elements => exact list elements fun v hv => induction atom list object v
  | .object members => exact object members fun m hm => induction atom list object m.2
  | .null | .boolean _ | .integer _ | .decimal _ | .string _ => exact atom _ rfl rfl
termination_by sizeOf v
decreasing_by
  · have helement := List.sizeOf_lt_of_mem hv
    rw [Value.list.sizeOf_spec]
    omega
  · have hmember := List.sizeOf_lt_of_mem hm
    have hvalue : sizeOf m.2 < sizeOf m := by
      obtain ⟨key, v⟩ := m
      rw [Prod.mk.sizeOf_spec]
      change sizeOf v < 1 + sizeOf key + sizeOf v
      omega
    rw [Value.object.sizeOf_spec]
    omega

/-! ## Empty objects -/

def mapMembers (change : Keyed String Value → Keyed String Value) : Value → Value
  | .object members => .object (change members)
  | v => v

def isEmptyObject : Value → Bool
  | .object [] => true
  | _ => false

def withoutEmpty (members : Keyed String Value) : Keyed String Value :=
  members.filter fun m => !m.2.isEmptyObject

@[simp] theorem isEmptyObject_object (members : List (String × Value)) :
    (Value.object members).isEmptyObject = members.isEmpty := by
  cases members <;> rfl

end ManifestTypes.Value
