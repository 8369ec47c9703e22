import ManifestTypes.Manifest.Environment
import ManifestTypes.Manifest.Images
import ManifestTypes.Proofs.Attempt.Outcomes
import ManifestTypes.Proofs.Keyed.Gathering
import ManifestTypes.Proofs.Manifest.Identity

/-!
# What the passes do to members and elements

Each pass over a value goes through all elements of lists and all members of objects. What it does
to a member depends on the key: image references stand below one key, lists of variables below
another, and only lists that are members are turned into objects.
-/

namespace ManifestTypes

namespace Value

open Manifest (Fault)

/-! ## Expanding and sorting -/

def expandMember (key : String) (v : Value) : Value :=
  match imageText? key v with
  | some reference => (ImageReference.parse reference).toValue
  | none => v.expandImages

theorem expandImages_list (elements : List Value) :
    expandImages (.list elements) = .list (elements.map expandImages) := by
  suffices h : expandImagesAll elements = elements.map expandImages by rw [expandImages, h]
  induction elements with
  | nil => rfl
  | cons v rest ih => rw [expandImagesAll, ih, List.map_cons]

theorem expandImages_object (members : List (String × Value)) :
    expandImages (.object members) =
      .object (members.map fun m => (m.1, expandMember m.1 m.2)) := by
  suffices h : expandImagesEach members = members.map fun m => (m.1, expandMember m.1 m.2) by
    rw [expandImages, h]
  induction members with
  | nil => rfl
  | cons m rest ih =>
      rw [expandImagesEach, ih, List.map_cons]
      rfl

theorem sortEnv_list (elements : List Value) :
    sortEnv (.list elements) = .list (elements.map sortEnv) := by
  suffices h : sortEnvAll elements = elements.map sortEnv by rw [sortEnv, h]
  induction elements with
  | nil => rfl
  | cons v rest ih => rw [sortEnvAll, ih, List.map_cons]

theorem expandMember_of_not_string {v : Value} (h : v.string? = none) (key : String) :
    expandMember key v = v.expandImages := by
  simp [expandMember, imageText?, h]

theorem expandMember_of_ne {key : String} (h : key ≠ "image") (v : Value) :
    expandMember key v = v.expandImages := by
  simp [expandMember, imageText?, h]

theorem string?_expandImages (v : Value) : v.expandImages.string? = v.string? := by
  cases v <;> simp [expandImages, string?]

/-- An image reference is no string any more. All other strings stay. -/
theorem getString?_expandImages {key : String} (h : key ≠ "image") (v : Value) :
    v.expandImages.getString? key = v.getString? key := by
  cases v with
  | object members =>
      rw [expandImages_object]
      rw [getString?_object, getString?_object, Keyed.get?_map expandMember]
      cases Keyed.get? members key with
      | none => rfl
      | some w => simp [expandMember_of_ne h, string?_expandImages]
  | list elements =>
      rw [expandImages_list]
      rfl
  | _ => rfl

theorem name?_expandImages (v : Value) : v.expandImages.name? = v.name? :=
  getString?_expandImages (by decide) v

theorem name?_sortEnv (v : Value) : v.sortEnv.name? = v.name? :=
  (sameStrings_sortEnv v).getString? "name"

/-! ## Lists of named objects -/

/-- Elements below their names, of each name the last. -/
def byName (elements : List Value) : Keyed String Value :=
  .ofList (elements.map fun v => (v.nameKey, v))

/-- What stands below a name is one of the elements. -/
theorem mem_of_mem_byName {elements : List Value} {m : String × Value} (h : m ∈ byName elements) :
    m.2 ∈ elements := by
  obtain ⟨v, hv, rfl⟩ := List.mem_map.mp (Keyed.mem_of_mem_ofList h)
  exact hv

section Names

variable {change : Value → Value} (hname : ∀ v, (change v).name? = v.name?)
include hname

theorem isNamed_of_name? (v : Value) : (change v).isNamed = v.isNamed := by
  rw [isNamed, hname, isNamed]

theorem nameKey_of_name? (v : Value) : (change v).nameKey = v.nameKey := by
  rw [nameKey, hname, nameKey]

theorem startsNamed_map (elements : List Value) :
    startsNamed (elements.map change) = startsNamed elements := by
  cases elements with
  | nil => rfl
  | cons v rest => simp [startsNamed, isNamed_of_name? hname]

theorem all_isNamed_map (elements : List Value) :
    (elements.map change).all isNamed = elements.all isNamed := by
  simp only [List.all_map, Function.comp_def, isNamed_of_name? hname]

theorem byName_map (elements : List Value) :
    byName (elements.map change) = (byName elements).map fun m => (m.1, change m.2) := by
  rw [byName, byName, ← Keyed.ofList_map]
  simp only [List.map_map, Function.comp_def, nameKey_of_name? hname]

end Names

theorem isObject_of_isNamed {v : Value} (h : v.isNamed = true) : v.IsObject := by
  obtain ⟨name, hname⟩ := Option.isSome_iff_exists.mp h
  exact isObject_of_getString? hname

/-! ## Indexing -/

/-- The value with its lists of named objects as objects, or the first fault in it. -/
def indexed (v : Value) : Except Fault Value :=
  v.indexLists.toExcept

def indexedMember (key : String) (v : Value) : Except Fault Value :=
  (indexMember key v).toExcept

theorem indexAll_eq_map (elements : List Value) :
    indexAll elements = elements.map fun v => (v, v.indexLists) := by
  induction elements with
  | nil => rfl
  | cons v rest ih => rw [indexAll, ih, List.map_cons]

theorem indexEach_eq_map (members : List (String × Value)) :
    indexEach members = members.map fun m => (m.1, m.2, indexMember m.1 m.2) := by
  induction members with
  | nil => rfl
  | cons m rest ih => rw [indexEach, ih, List.map_cons]

theorem indexed_list (elements : List Value) :
    indexed (.list elements) = Value.list <$> elements.mapM indexed := by
  rw [indexed, indexLists, Attempt.toExcept_map, Attempt.toExcept_settle, indexAll_eq_map,
    List.mapM_map]
  rfl

theorem indexed_object (members : List (String × Value)) :
    indexed (.object members) = Value.object <$> Keyed.traverse indexedMember members := by
  rw [indexed, indexLists, Attempt.toExcept_map, Attempt.toExcept_settleKeyed, indexEach_eq_map,
    Keyed.traverse, List.mapM_map]
  rfl

theorem indexedMember_of_not_list {v : Value} (h : v.elements? = none) (key : String) :
    indexedMember key v = indexed v := by
  cases v with
  | list elements => cases h
  | object members => rw [indexedMember, indexMember, indexed, indexLists]
  | _ => rfl

theorem indexed_of_atom {v : Value} (helements : v.elements? = none)
    (hmembers : v.members? = none) : indexed v = .ok v := by
  cases v with
  | list elements => cases helements
  | object members => cases hmembers
  | _ => rfl

theorem settled_byName (elements : List Value) :
    (Attempt.settleKeyed (Keyed.ofList ((elements.map nameKey).zip (indexAll elements)))).toExcept =
      Keyed.traverse (fun _ => indexed) (byName elements) := by
  have hzip : (elements.map nameKey).zip (indexAll elements) =
      (elements.map fun v => (v.nameKey, v)).map fun m => (m.1, m.2, m.2.indexLists) := by
    rw [indexAll_eq_map, List.zip_map', List.map_map]
    rfl
  rw [hzip, Keyed.ofList_map fun v : Value => (v, v.indexLists), Attempt.toExcept_settleKeyed,
    Keyed.traverse, List.mapM_map]
  rfl

theorem indexedMember_list (key : String) (elements : List Value) :
    indexedMember key (.list elements) =
      if startsNamed elements then
        if elements.all isNamed then
          Value.object <$> Keyed.traverse (fun _ => indexed) (byName elements)
        else .error (.mixedList key)
      else indexed (.list elements) := by
  rw [indexedMember, indexMember]
  split
  · split
    · rw [Attempt.toExcept_map, settled_byName]
    · rfl
  · rw [indexed, indexLists]

theorem indexedMember_of_all_isNamed {elements : List Value} (hall : elements.all isNamed = true)
    (hne : elements ≠ []) (key : String) :
    indexedMember key (.list elements) =
      Value.object <$> Keyed.traverse (fun _ => indexed) (byName elements) := by
  obtain ⟨v, rest, rfl⟩ := List.exists_cons_of_ne_nil hne
  have hstarts : startsNamed (v :: rest) = true := List.all_eq_true.mp hall v List.mem_cons_self
  rw [indexedMember_list, if_pos hstarts, if_pos hall]

theorem string?_of_indexed {v w : Value} (h : indexed v = .ok w) : w.string? = v.string? := by
  cases v with
  | list elements =>
      rw [indexed_list] at h
      obtain ⟨elements', -, rfl⟩ := map_eq_ok_iff.mp h
      rfl
  | object members =>
      rw [indexed_object] at h
      obtain ⟨members', -, rfl⟩ := map_eq_ok_iff.mp h
      rfl
  | _ => cases h; rfl

/-- Indexing makes no string of anything else. -/
theorem string?_of_indexedMember {key : String} {v w : Value} (h : indexedMember key v = .ok w) :
    w.string? = v.string? := by
  cases v with
  | list elements =>
      rw [indexedMember_list] at h
      split at h
      · split at h
        · obtain ⟨members, -, rfl⟩ := map_eq_ok_iff.mp h
          rfl
        · cases h
      · exact string?_of_indexed h
  | _ =>
      rw [indexedMember_of_not_list rfl] at h
      exact string?_of_indexed h

end Value

end ManifestTypes
