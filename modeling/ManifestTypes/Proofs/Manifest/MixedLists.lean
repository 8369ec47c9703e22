import ManifestTypes.Proofs.Manifest.Entering
import ManifestTypes.Proofs.Manifest.Normalizing

/-!
# The first mixed list

Indexing fails at the first list that a walk comes to and in which some elements have a name and
others have none.
-/

namespace ManifestTypes

namespace Value

open Manifest (Fault faultOf?)

instance decidableIsMixedList : (v : Value) → Decidable v.IsMixedList
  | .list (first :: rest) =>
    decidable_of_iff (first.isNamed ∧ ∃ other ∈ rest, ¬ other.isNamed) <| by
      simp [IsMixedList]
  | .list [] => isFalse fun h => not_isNamedList_nil h.isNamedList
  | .null | .boolean _ | .integer _ | .decimal _ | .string _ | .object _ =>
    isFalse fun h => not_isNamedList_of_not_list rfl h.isNamedList

/-- What a mixed list is refused with. -/
def Reached.fault? (m : Reached) : Option Fault :=
  if m.value.IsMixedList then some (.mixedList m.key) else none

/-! ## One level -/

theorem findSome?_elementSteps {α : Type} (f : Value → Option α) (elements : List Value) :
    (elementSteps elements).findSome? (fun p => f p.2) = elements.findSome? f := by
  conv_rhs => rw [← map_snd_elementSteps elements, List.findSome?_map]
  rfl

/-- A value that is refused itself, or else what is entered from it. -/
theorem faultOf?_level (key? : Option String) (v : Value) :
    faultOf? (indexedAt key? v) =
      ((key?.map fun key => (⟨[], key, v⟩ : Reached)).toList.findSome? Reached.fault?).or
        ((entered key? v).findSome? fun p => faultOf? (indexedAt p.1.key? p.2)) := by
  have hhere (hnot : key?.isSome → ¬ v.IsMixedList) :
      (key?.map fun key => (⟨[], key, v⟩ : Reached)).toList.findSome? Reached.fault? = none := by
    cases key? with
    | none => rfl
    | some key => simp [Reached.fault?, hnot rfl]
  cases treatment key? v with
  | refused key hkey hmixed hentered hindexed =>
      subst hkey
      rw [hindexed]
      simp [Reached.fault?, hmixed, faultOf?]
  | converted key elements hkey hlist hnamed hall hentered hindexed =>
      have hnot : ¬ v.IsMixedList := hlist ▸ not_isMixedList_of_forall_isNamed hall
      rw [hhere fun _ => hnot, Option.none_or, hindexed, hentered, Manifest.faultOf?_map,
        Manifest.faultOf?_traverse, memberSteps, List.findSome?_map]
      refine Manifest.findSome?_congr fun m hm => ?_
      have hnamed := hall m.2 (mem_of_mem_lastOfNames hm)
      exact congrArg faultOf? (indexedAt_of_not_list (elements?_of_isNamed hnamed) (some m.1)).symm
  | list elements hlist hunnamed hentered hindexed =>
      rw [hhere fun hkey hmixed => hunnamed hkey hmixed.isNamedList, Option.none_or, hindexed,
        hentered, Manifest.faultOf?_map, Manifest.faultOf?_mapM, ← findSome?_elementSteps]
      refine Manifest.findSome?_congr fun p hp => ?_
      rw [key?_of_mem_elementSteps hp]
      rfl
  | object members hobject hentered hindexed =>
      have hunnamed : ¬ v.IsNamedList := not_isNamedList_of_not_list (by rw [hobject]; rfl)
      rw [hhere fun _ hmixed => hunnamed hmixed.isNamedList, Option.none_or, hindexed, hentered,
        Manifest.faultOf?_map, Manifest.faultOf?_traverse, memberSteps, List.findSome?_map]
      rfl
  | atom helements hmembers hentered hindexed =>
      have hunnamed : ¬ v.IsNamedList := not_isNamedList_of_not_list helements
      rw [hhere fun _ hmixed => hunnamed hmixed.isNamedList, Option.none_or, hindexed, hentered]
      rfl

/-! ## Whole walks -/

theorem faultOf?_indexedAt (key? : Option String) (v : Value) :
    faultOf? (indexedAt key? v) = (reachedAt key? v).findSome? Reached.fault? := by
  induction key?, v using reachedAt.induct with
  | case1 key? v ih =>
      rw [faultOf?_level, reachedAt_eq, List.findSome?_append, Manifest.findSome?_flatMap]
      congr 1
      refine Manifest.findSome?_congr fun p hp => ?_
      rw [ih p hp, List.findSome?_map]
      rfl

theorem fault_indexLists (v : Value) :
    v.indexLists.fault = v.reached.findSome? Reached.fault? := by
  rw [← Attempt.faultOf?_toExcept]
  exact faultOf?_indexedAt none v

theorem Reached.fault?_eq_some_iff {m : Reached} {e : Fault} :
    m.fault? = some e ↔ m.value.IsMixedList ∧ e = .mixedList m.key := by
  rw [fault?]
  split <;> simp_all [eq_comm]

theorem Reached.fault?_eq_none_iff {m : Reached} : m.fault? = none ↔ ¬ m.value.IsMixedList := by
  simp [fault?]

/-- A list that is not taken for one of named objects only fails if one of its elements does. -/
theorem faultOf?_indexedAt_unnamed (key? : Option String) {elements : List Value}
    (h : key?.isSome → ¬ IsNamedList (.list elements)) :
    faultOf? (indexedAt key? (.list elements)) = none ↔
      ∀ x ∈ elements, x.indexLists.fault = none := by
  rw [indexedAt_unnamed h, Manifest.faultOf?_map, Manifest.faultOf?_mapM,
    List.findSome?_eq_none_iff]
  simp only [indexed, Attempt.faultOf?_toExcept]

/-- Indexing fails exactly if a walk comes to a mixed list, and tells the key of the first one. A
member that is an atom never fails, and a list that does not start with a named object or that
stands in another list only fails if one of its elements does. -/
theorem fails_at_first_mixed (v : Value) :
    (v.indexLists.fault ≠ none ↔ ∃ m ∈ v.reached, m.value.IsMixedList) ∧
    (∀ e, v.indexLists.fault = some e ↔
      ∃ before m after, v.reached = before ++ m :: after ∧ m.value.IsMixedList ∧
        e = .mixedList m.key ∧ ∀ m' ∈ before, ¬ m'.value.IsMixedList) ∧
    (∀ key x, x.elements? = none → x.members? = none → (indexMember key x).fault = none) ∧
    (∀ key elements, ¬ IsNamedList (.list elements) →
      ((indexMember key (.list elements)).fault = none ↔
        ∀ x ∈ elements, x.indexLists.fault = none)) ∧
    ∀ elements, (indexLists (.list elements)).fault = none ↔
      ∀ x ∈ elements, x.indexLists.fault = none := by
  refine ⟨?fails, ?first, ?atom, ?unnamed, ?list⟩
  case fails =>
    rw [fault_indexLists, ne_eq, List.findSome?_eq_none_iff]
    simp [Reached.fault?_eq_none_iff]
  case first =>
    intro e
    rw [fault_indexLists, List.findSome?_eq_some_iff]
    simp only [Reached.fault?_eq_some_iff, Reached.fault?_eq_none_iff, and_assoc]
  case atom =>
    intro key x helements hmembers
    cases x with
    | list elements => cases helements
    | object members => cases hmembers
    | _ => rfl
  case unnamed =>
    intro key elements hunnamed
    rw [← Attempt.faultOf?_toExcept]
    exact faultOf?_indexedAt_unnamed (some key) fun _ => hunnamed
  case list =>
    intro elements
    rw [← Attempt.faultOf?_toExcept]
    exact faultOf?_indexedAt_unnamed none fun hkey => nomatch hkey

/-- The walk does not come to a mixed list in an element that another one of its name replaces. -/
example : (indexLists (.object [("volumes", .list [
    .object [("name", .string "data"), ("items", .list [.object [("name", .string "a")], .null])],
    .object [("name", .string "data")]])])).fault = none := rfl

end Value

end ManifestTypes
