import ManifestTypes.Proofs.Manifest.Passes
import ManifestTypes.Proofs.Text.Sorting
import ManifestTypes.Proofs.Value.Alike

/-!
# The passes do not depend on each other

Image references can be expanded before or after lists are indexed and before or after variables are
sorted. Sorting before indexing changes nothing but the order of members.
-/

namespace ManifestTypes.Value

open Manifest (Fault)

theorem expandImages_of_atom {v : Value} (helements : v.elements? = none)
    (hmembers : v.members? = none) : v.expandImages = v := by
  cases v with
  | list elements => cases helements
  | object members => cases hmembers
  | _ => rfl

/-- A string stays, or is an image reference. -/
theorem expandMember_string (key s : String) :
    expandMember key (.string s) = .string s ∨
      ∃ i : ImageReference, expandMember key (.string s) = i.toValue := by
  unfold expandMember
  split
  · exact .inr ⟨_, rfl⟩
  · exact .inl rfl

/-! ## Expanding and indexing -/

theorem expandMember_map {x : Except Fault Value} (h : ∀ v, x = .ok v → v.string? = none)
    (key : String) : expandMember key <$> x = expandImages <$> x := by
  cases x with
  | error e => rfl
  | ok v => exact congrArg Except.ok (expandMember_of_not_string (h v rfl) key)

/-- A member that holds an image reference, and one that does not. -/
theorem indexedMember_expandMember {key : String} {v : Value}
    (h : indexedMember key v.expandImages = expandImages <$> indexedMember key v) :
    indexedMember key (expandMember key v) = expandMember key <$> indexedMember key v := by
  cases v with
  | string s =>
      change indexedMember key (expandMember key (.string s)) =
        .ok (expandMember key (.string s))
      rcases expandMember_string key s with hstring | ⟨i, hobject⟩
      · rw [hstring]
        rfl
      · rw [hobject]
        rfl
  | _ =>
      rw [expandMember_of_not_string rfl, h,
        expandMember_map fun w hw => (string?_of_indexedMember hw).trans rfl]

/-- Named elements come to the same below their names. -/
theorem traverse_byName_expandImages {elements : List Value} (hall : elements.all isNamed = true)
    (h : ∀ v ∈ elements, indexed v.expandImages = expandImages <$> indexed v) :
    Keyed.traverse (fun _ => indexed) (byName (elements.map expandImages)) =
      (List.map fun m => (m.1, expandMember m.1 m.2)) <$>
        Keyed.traverse (fun _ => indexed) (byName elements) := by
  rw [byName_map name?_expandImages]
  refine Keyed.traverse_map_of_comm (g := fun _ => expandImages) fun m hm => ?_
  have hmem := mem_of_mem_byName hm
  obtain ⟨members, hobject⟩ := isObject_of_isNamed (List.all_eq_true.mp hall m.2 hmem)
  rw [h m.2 hmem, expandMember_map fun w hw => ?_]
  rw [string?_of_indexed hw, hobject]
  rfl

/-- Image references can be expanded before or after lists are indexed, in a value and in a
member. -/
theorem indexed_expandImages_and_member (v : Value) :
    indexed v.expandImages = expandImages <$> indexed v ∧
      ∀ key, indexedMember key v.expandImages = expandImages <$> indexedMember key v := by
  induction v using Value.induction with
  | atom v helements hmembers =>
      have hsame := expandImages_of_atom helements hmembers
      have hindexed : indexed v.expandImages = expandImages <$> indexed v := by
        rw [hsame, indexed_of_atom helements hmembers]
        exact congrArg Except.ok hsame.symm
      refine ⟨hindexed, fun key => ?_⟩
      rw [hsame] at hindexed ⊢
      rwa [indexedMember_of_not_list helements]
  | list elements ih =>
      have hlist : indexed (expandImages (.list elements)) =
          expandImages <$> indexed (.list elements) := by
        rw [expandImages_list, indexed_list, indexed_list,
          mapM_map_of_comm fun v hv => (ih v hv).1]
        cases elements.mapM indexed with
        | error e => rfl
        | ok elements' => exact congrArg Except.ok (expandImages_list elements').symm
      refine ⟨hlist, fun key => ?_⟩
      rw [expandImages_list, indexedMember_list, indexedMember_list,
        startsNamed_map name?_expandImages, all_isNamed_map name?_expandImages]
      split
      · split
        · next hall =>
            rw [traverse_byName_expandImages hall fun v hv => (ih v hv).1]
            cases Keyed.traverse (fun _ => indexed) (byName elements) with
            | error e => rfl
            | ok members => exact congrArg Except.ok (expandImages_object members).symm
        · rfl
      · rw [← expandImages_list, hlist]
  | object members ih =>
      have hobject : indexed (expandImages (.object members)) =
          expandImages <$> indexed (.object members) := by
        rw [expandImages_object, indexed_object, indexed_object, Keyed.traverse_map_of_comm
          fun m hm => indexedMember_expandMember ((ih m hm).2 m.1)]
        cases Keyed.traverse indexedMember members with
        | error e => rfl
        | ok members' => exact congrArg Except.ok (expandImages_object members').symm
      refine ⟨hobject, fun key => ?_⟩
      rw [indexedMember_of_not_list (v := .object members) rfl, ← hobject, expandImages_object,
        indexedMember_of_not_list rfl]

/-! ## Expanding and sorting -/

theorem sortEnv_of_atom {v : Value} (helements : v.elements? = none)
    (hmembers : v.members? = none) : v.sortEnv = v := by
  cases v with
  | list elements => cases helements
  | object members => cases hmembers
  | _ => rfl

theorem sortByName_list (elements : List Value) :
    sortByName (.list elements) =
      if elements.all isNamed then
        .list (elements.mergeSort fun v w => decide (v.nameKey ≤ w.nameKey))
      else .list elements := rfl

theorem sortByName_of_not_list {v : Value} (h : v.elements? = none) : v.sortByName = v := by
  cases v with
  | list elements => cases h
  | _ => rfl

theorem sortByName_expandImages (v : Value) :
    v.expandImages.sortByName = v.sortByName.expandImages := by
  cases v with
  | list elements =>
      rw [expandImages_list, sortByName_list, sortByName_list, all_isNamed_map name?_expandImages]
      split
      · rw [expandImages_list, List.map_mergeSort fun v _ w _ => ?_]
        rw [nameKey_of_name? name?_expandImages, nameKey_of_name? name?_expandImages]
      · rw [expandImages_list]
  | object members => rw [sortByName_of_not_list (v := .object members) rfl, expandImages_object,
      sortByName_of_not_list rfl]
  | _ => rfl

theorem sortMember_expandMember {v : Value} (h : v.expandImages.sortEnv = v.sortEnv.expandImages)
    (key : String) : sortMember key (expandMember key v) = expandMember key (sortMember key v) := by
  by_cases henv : key = "env"
  · have hkey : key ≠ "image" := by rw [henv]; decide
    rw [expandMember_of_ne hkey, expandMember_of_ne hkey, sortMember, sortMember, if_pos henv,
      if_pos henv, h, sortByName_expandImages]
  · rw [sortMember, sortMember, if_neg henv, if_neg henv]
    cases v with
    | string s =>
        change (expandMember key (.string s)).sortEnv = expandMember key (.string s)
        rcases expandMember_string key s with hstring | ⟨i, hobject⟩
        · rw [hstring]
          rfl
        · rw [hobject]
          rfl
    | _ => rw [expandMember_of_not_string rfl, h, expandMember_of_not_string (string?_sortEnv _)]

/-- Image references can be expanded before or after variables are sorted. -/
theorem sortEnv_expandImages (v : Value) : v.expandImages.sortEnv = v.sortEnv.expandImages := by
  induction v using Value.induction with
  | atom v helements hmembers =>
      rw [expandImages_of_atom helements hmembers, sortEnv_of_atom helements hmembers,
        expandImages_of_atom helements hmembers]
  | list elements ih =>
      rw [expandImages_list, sortEnv_list, sortEnv_list, expandImages_list, List.map_map,
        List.map_map]
      exact congrArg Value.list (List.map_congr_left ih)
  | object members ih =>
      rw [expandImages_object, sortEnv_object, sortEnv_object, expandImages_object, List.map_map,
        List.map_map]
      refine congrArg Value.object (List.map_congr_left fun m hm => ?_)
      exact congrArg (Prod.mk m.1) (sortMember_expandMember (ih m hm) m.1)

/-! ## Sorting and indexing -/

/-- The elements that are kept are the same after sorting. -/
theorem byName_mergeSort (elements : List Value) :
    (byName (elements.mergeSort fun v w => decide (v.nameKey ≤ w.nameKey))).Perm
      (byName elements) := by
  refine Keyed.ofList_perm fun key => ?_
  rw [List.filter_map, List.filter_map]
  exact congrArg _ (Text.filter_mergeSort nameKey elements key)

section Elements

variable {elements : List Value}
  (h : ∀ v ∈ elements, SameOutcome Alike (indexed v.sortEnv) (indexed v))
include h

theorem sameOutcome_indexed_list :
    SameOutcome Alike (indexed (.list (elements.map sortEnv))) (indexed (.list elements)) := by
  rw [indexed_list, indexed_list]
  have helements := SameOutcome.mapM
    (List.forall₂_map_left_iff.mpr (List.forall₂_same.mpr h))
  exact helements.map fun _ _ => alike_list

theorem sameOutcome_traverse_byName :
    SameOutcome (Keyed.Related fun _ => Alike)
      (Keyed.traverse (fun _ => indexed) (byName (elements.map sortEnv)))
      (Keyed.traverse (fun _ => indexed) (byName elements)) := by
  rw [byName_map name?_sortEnv]
  refine SameOutcome.traverse (Keyed.related_map_left (f := fun _ => sortEnv) ?_)
  exact fun m hm => h m.2 (mem_of_mem_byName hm)

/-- A list of variables, all of them with a name. -/
theorem sameOutcome_indexedMember_sorted (hall : elements.all isNamed = true) (key : String) :
    SameOutcome Alike
      (indexedMember key (sortByName (.list (elements.map sortEnv))))
      (indexedMember key (.list elements)) := by
  have hsorted : (elements.map sortEnv).all isNamed = true := by
    rwa [all_isNamed_map name?_sortEnv]
  rw [sortByName_list, if_pos hsorted]
  by_cases hempty : elements = []
  · subst hempty
    rw [List.map_nil, List.mergeSort_nil]
    exact .ok (alike_list .nil)
  · have hsortedAll : ((elements.map sortEnv).mergeSort
        fun v w => decide (v.nameKey ≤ w.nameKey)).all isNamed = true := by
      rwa [(List.mergeSort_perm _ _).all_eq]
    have hsortedNe : (elements.map sortEnv).mergeSort
        (fun v w => decide (v.nameKey ≤ w.nameKey)) ≠ [] := by
      rw [ne_eq, ← List.length_eq_zero_iff]
      simpa using hempty
    rw [indexedMember_of_all_isNamed hsortedAll hsortedNe,
      indexedMember_of_all_isNamed hall hempty]
    have hmembers := (SameOutcome.mapM_perm (byName_mergeSort (elements.map sortEnv))).trans
      (sameOutcome_traverse_byName h)
    exact hmembers.map fun _ _ ⟨_, hperm, halike⟩ => alike_object hperm halike

theorem sameOutcome_indexedMember_list (key : String) :
    SameOutcome Alike (indexedMember key (.list (elements.map sortEnv)))
      (indexedMember key (.list elements)) := by
  rw [indexedMember_list, indexedMember_list, startsNamed_map name?_sortEnv,
    all_isNamed_map name?_sortEnv]
  split
  · split
    · exact (sameOutcome_traverse_byName h).map fun _ _ => alike_object (.refl _)
    · exact .error _ _
  · exact sameOutcome_indexed_list h

end Elements

theorem sameOutcome_indexed_sortEnv_and_member (v : Value) :
    SameOutcome Alike (indexed v.sortEnv) (indexed v) ∧
      ∀ key, SameOutcome Alike (indexedMember key (sortMember key v)) (indexedMember key v) := by
  induction v using Value.induction with
  | atom v helements hmembers =>
      have hsame : SameOutcome Alike (indexed v) (indexed v) := by
        rw [indexed_of_atom helements hmembers]
        exact .ok (.of_atom helements hmembers)
      rw [sortEnv_of_atom helements hmembers]
      refine ⟨hsame, fun key => ?_⟩
      rw [sortMember, sortEnv_of_atom helements hmembers, sortByName_of_not_list helements,
        ite_self, indexedMember_of_not_list helements]
      exact hsame
  | list elements ih =>
      have helements : ∀ v ∈ elements, SameOutcome Alike (indexed v.sortEnv) (indexed v) :=
        fun v hv => (ih v hv).1
      refine ⟨by rw [sortEnv_list]; exact sameOutcome_indexed_list helements, fun key => ?_⟩
      rw [sortMember, sortEnv_list]
      split
      · by_cases hall : elements.all isNamed
        · exact sameOutcome_indexedMember_sorted helements hall key
        · rw [sortByName_list, all_isNamed_map name?_sortEnv, if_neg hall]
          exact sameOutcome_indexedMember_list helements key
      · exact sameOutcome_indexedMember_list helements key
  | object members ih =>
      have hobject : SameOutcome Alike (indexed (sortEnv (.object members)))
          (indexed (.object members)) := by
        have hmembers : SameOutcome (Keyed.Related fun _ => Alike)
            (Keyed.traverse indexedMember (members.map fun m => (m.1, sortMember m.1 m.2)))
            (Keyed.traverse indexedMember members) := by
          refine SameOutcome.traverse (Keyed.related_map_left ?_)
          exact fun m hm => (ih m hm).2 m.1
        rw [sortEnv_object, indexed_object, indexed_object]
        exact hmembers.map fun _ _ => alike_object (.refl _)
      refine ⟨hobject, fun key => ?_⟩
      have hsort : sortMember key (.object members) = sortEnv (.object members) := by
        rw [sortMember, sortEnv_object, sortByName_of_not_list rfl, ite_self]
      rw [hsort, sortEnv_object, indexedMember_of_not_list rfl, ← sortEnv_object]
      exact hobject

/-- The passes over a value can be made in any order. Expanding image references commutes with
indexing lists, also where that fails, and with sorting variables. Sorting variables first does not
decide whether indexing fails, and changes nothing but the order of members in what it comes to. -/
theorem passes_independent (v : Value) :
    v.expandImages.indexLists.toExcept = expandImages <$> v.indexLists.toExcept ∧
    v.expandImages.sortEnv = v.sortEnv.expandImages ∧
    ((∃ e, v.sortEnv.indexLists.toExcept = .error e) ↔ ∃ e, v.indexLists.toExcept = .error e) ∧
    ∀ w w', v.sortEnv.indexLists.toExcept = .ok w → v.indexLists.toExcept = .ok w' →
      w.Alike w' := by
  have hsorted : SameOutcome Alike v.sortEnv.indexLists.toExcept v.indexLists.toExcept :=
    (sameOutcome_indexed_sortEnv_and_member v).1
  refine ⟨(indexed_expandImages_and_member v).1, sortEnv_expandImages v, hsorted.fails_iff, ?_⟩
  intro w w' hw hw'
  rw [hw, hw'] at hsorted
  exact hsorted.related

end ManifestTypes.Value
