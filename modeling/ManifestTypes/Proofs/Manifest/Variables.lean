import ManifestTypes.Proofs.Manifest.Independence
import ManifestTypes.Proofs.Value.Walking

/-!
# Sorted variables

Lists of variables are sorted at every depth, also those in an element of another one. All else
stays where it is.
-/

namespace ManifestTypes.Value

/-- A list in which every element is an object with a name. -/
def IsVariableList (v : Value) : Prop :=
  ∃ elements, v = .list elements ∧ ∀ x ∈ elements, x.isNamed

mutual

/-- What sorting makes of a value: atoms stay, elements and members stay in their places, and lists
of variables are sorted as members. -/
inductive EnvSorted : Value → Value → Prop
  | atom {v : Value} (helements : v.elements? = none) (hmembers : v.members? = none) :
    EnvSorted v v
  | list {elements elements' : List Value} (h : List.Forall₂ EnvSorted elements elements') :
    EnvSorted (.list elements) (.list elements')
  | object {members members' : List (String × Value)} (h : EnvSortedEach members members') :
    EnvSorted (.object members) (.object members')

/-- Members that stand below the same keys in the same order. In a list of variables each element
is sorted itself, and then the list by the names. -/
inductive EnvSortedEach : List (String × Value) → List (String × Value) → Prop
  | nil : EnvSortedEach [] []
  | sorted {elements elements' after : List Value} {rest rest' : List (String × Value)}
    (hnamed : ∀ x ∈ elements, x.isNamed) (helements : List.Forall₂ EnvSorted elements elements')
    (hafter : Text.SortedBy nameKey elements' after) (hrest : EnvSortedEach rest rest') :
    EnvSortedEach (("env", .list elements) :: rest) (("env", .list after) :: rest')
  | other {key : String} {v w : Value} {rest rest' : List (String × Value)}
    (hother : ¬ (key = "env" ∧ v.IsVariableList)) (hvalue : EnvSorted v w)
    (hrest : EnvSortedEach rest rest') : EnvSortedEach ((key, v) :: rest) ((key, w) :: rest')

end

/-! ## One level -/

theorem isVariableList_list {elements : List Value} :
    IsVariableList (.list elements) ↔ elements.all isNamed = true := by
  simp [IsVariableList]

theorem sortByName_of_all {elements : List Value} (h : elements.all isNamed = true) :
    sortByName (.list elements) =
      .list (elements.mergeSort fun v w => decide (v.nameKey ≤ w.nameKey)) := by
  rw [sortByName_list, if_pos h]

theorem sortByName_of_not_variables {v : Value} (h : ¬ v.IsVariableList) : v.sortByName = v := by
  cases v with
  | list elements =>
      rw [isVariableList_list] at h
      rw [sortByName_list, if_neg h]
  | _ => rfl

theorem isVariableList_sortEnv (v : Value) : v.sortEnv.IsVariableList ↔ v.IsVariableList := by
  cases v with
  | list elements =>
      rw [sortEnv_list, isVariableList_list, isVariableList_list, all_isNamed_map name?_sortEnv]
  | object members =>
      rw [sortEnv_object]
      simp [IsVariableList]
  | _ => rfl

theorem sortMember_other {key : String} {v : Value} (h : ¬ (key = "env" ∧ v.IsVariableList)) :
    sortMember key v = v.sortEnv := by
  unfold sortMember
  split
  · next henv =>
      apply sortByName_of_not_variables
      rw [isVariableList_sortEnv]
      exact fun hvariables => h ⟨henv, hvariables⟩
  · rfl

theorem sortMember_variables {elements : List Value} (h : elements.all isNamed = true) :
    sortMember "env" (.list elements) =
      .list ((elements.map sortEnv).mergeSort fun v w => decide (v.nameKey ≤ w.nameKey)) := by
  rw [sortMember, if_pos rfl, sortEnv_list, sortByName_of_all]
  rwa [all_isNamed_map name?_sortEnv]

theorem envSorted_list_iff {elements : List Value} {w : Value} :
    EnvSorted (.list elements) w ↔
      ∃ elements', w = .list elements' ∧ List.Forall₂ EnvSorted elements elements' := by
  constructor
  · intro h
    cases h with
    | atom helements _ => cases helements
    | list h => exact ⟨_, rfl, h⟩
  · rintro ⟨elements', rfl, h⟩
    exact .list h

theorem envSorted_object_iff {members : List (String × Value)} {w : Value} :
    EnvSorted (.object members) w ↔
      ∃ members', w = .object members' ∧ EnvSortedEach members members' := by
  constructor
  · intro h
    cases h with
    | atom _ hmembers => cases hmembers
    | object h => exact ⟨_, rfl, h⟩
  · rintro ⟨members', rfl, h⟩
    exact .object h

/-- The elements of a list are sorted to one thing if the list is. -/
theorem forall₂_envSorted_iff {elements elements' : List Value}
    (h : ∀ w, EnvSorted (.list elements) w ↔ w = sortEnv (.list elements)) :
    List.Forall₂ EnvSorted elements elements' ↔ elements' = elements.map sortEnv := by
  have hlist := h (.list elements')
  rw [envSorted_list_iff, sortEnv_list, Value.list.injEq] at hlist
  rw [← hlist]
  constructor
  · intro helements
    exact ⟨elements', rfl, helements⟩
  · rintro ⟨_, hsame, helements⟩
    cases hsame
    exact helements

/-- Members are sorted to one thing if their values are. -/
theorem envSortedEach_iff {members members' : List (String × Value)}
    (h : ∀ m ∈ members, ∀ w, EnvSorted m.2 w ↔ w = m.2.sortEnv) :
    EnvSortedEach members members' ↔
      members' = members.map fun m => (m.1, sortMember m.1 m.2) := by
  induction members generalizing members' with
  | nil =>
      constructor
      · intro hsorted
        cases hsorted
        rfl
      · rintro rfl
        exact .nil
  | cons m rest ih =>
      obtain ⟨key, v⟩ := m
      obtain ⟨hv, hrest⟩ := List.forall_mem_cons.mp h
      constructor
      · intro hsorted
        cases hsorted with
        | sorted hnamed helements hafter hrest' =>
            rw [(ih hrest).mp hrest', List.map_cons,
              sortMember_variables (List.all_eq_true.mpr hnamed), Text.sortedBy_iff.mp hafter,
              (forall₂_envSorted_iff hv).mp helements]
        | other hother hvalue hrest' =>
            rw [(ih hrest).mp hrest', (hv _).mp hvalue, List.map_cons, sortMember_other hother]
      · rintro rfl
        by_cases hvariables : key = "env" ∧ v.IsVariableList
        · obtain ⟨rfl, elements, rfl, hnamed⟩ := hvariables
          rw [List.map_cons, sortMember_variables (List.all_eq_true.mpr hnamed)]
          exact .sorted hnamed ((forall₂_envSorted_iff hv).mpr rfl) (Text.sortedBy_iff.mpr rfl)
            ((ih hrest).mpr rfl)
        · rw [List.map_cons, sortMember_other hvariables]
          exact .other hvariables ((hv _).mpr rfl) ((ih hrest).mpr rfl)

theorem envSorted_iff {v w : Value} : EnvSorted v w ↔ w = v.sortEnv := by
  induction v using Value.induction generalizing w with
  | atom v helements hmembers =>
      rw [sortEnv_of_atom helements hmembers]
      constructor
      · intro h
        cases h with
        | atom _ _ => rfl
        | list _ => cases helements
        | object _ => cases hmembers
      · rintro rfl
        exact .atom helements hmembers
  | list elements ih =>
      simp only [envSorted_list_iff, forall₂_iff_eq_map fun x hx _ => ih x hx, sortEnv_list,
        exists_eq_right]
  | object members ih =>
      simp only [envSorted_object_iff, envSortedEach_iff fun m hm _ => ih m hm, sortEnv_object,
        exists_eq_right]

/-! ## Sorting again -/

theorem sortEnv_sortByName (v : Value) : v.sortByName.sortEnv = v.sortEnv.sortByName := by
  by_cases h : v.IsVariableList
  · obtain ⟨elements, rfl, hnamed⟩ := h
    have hall : elements.all isNamed = true := List.all_eq_true.mpr hnamed
    have hall' : (elements.map sortEnv).all isNamed = true := by
      rwa [all_isNamed_map name?_sortEnv]
    rw [sortByName_of_all hall, sortEnv_list, sortEnv_list, sortByName_of_all hall',
      List.map_mergeSort fun v _ w _ => ?_]
    rw [nameKey_of_name? name?_sortEnv, nameKey_of_name? name?_sortEnv]
  · rw [sortByName_of_not_variables h, sortByName_of_not_variables]
    rwa [isVariableList_sortEnv]

theorem sortByName_sortByName (v : Value) : v.sortByName.sortByName = v.sortByName := by
  by_cases h : v.IsVariableList
  · obtain ⟨elements, rfl, hnamed⟩ := h
    have hall : elements.all isNamed = true := List.all_eq_true.mpr hnamed
    have hall' : (elements.mergeSort fun v w => decide (v.nameKey ≤ w.nameKey)).all isNamed =
        true := by
      rwa [(List.mergeSort_perm _ _).all_eq]
    rw [sortByName_of_all hall, sortByName_of_all hall', Text.mergeSort_mergeSort]
  · rw [sortByName_of_not_variables h, sortByName_of_not_variables h]

theorem sortMember_sortMember {v : Value} (h : v.sortEnv.sortEnv = v.sortEnv) (key : String) :
    sortMember key (sortMember key v) = sortMember key v := by
  unfold sortMember
  split
  · rw [sortEnv_sortByName, h, sortByName_sortByName]
  · exact h

theorem sortEnv_sortEnv (v : Value) : v.sortEnv.sortEnv = v.sortEnv := by
  induction v using Value.induction with
  | atom v helements hmembers =>
      rw [sortEnv_of_atom helements hmembers, sortEnv_of_atom helements hmembers]
  | list elements ih =>
      rw [sortEnv_list, sortEnv_list, List.map_map]
      exact congrArg Value.list (List.map_congr_left ih)
  | object members ih =>
      rw [sortEnv_object, sortEnv_object, List.map_map]
      refine congrArg Value.object (List.map_congr_left fun m hm => ?_)
      exact congrArg (Prod.mk m.1) (sortMember_sortMember (ih m hm) m.1)

/-! ## Sorting on a walk -/

def sortHere (members : Keyed String Value) : Keyed String Value :=
  Keyed.modify members "env" sortByName

/-- A list can be sorted before what stands in it. -/
theorem sortMember_eq_ite (key : String) (v : Value) :
    sortMember key v = if key = "env" then v.sortByName.sortEnv else v.sortEnv := by
  rw [sortMember, sortEnv_sortByName]

/-- A walk sorts what stands in a list as well if the list has been sorted on the way. -/
theorem walkedAs_sortByName {v : Value}
    (helements : ∀ elements, v = .list elements → ∀ x ∈ elements, WalkedAs sortHere sortEnv x)
    (h : WalkedAs sortHere sortEnv v) : WalkedAs sortHere sortEnv v.sortByName := by
  cases v with
  | list elements =>
      rw [sortByName_list]
      split
      · intro w
        rw [sortEnv_list]
        exact walked_list_iff fun x hx => helements elements rfl x (List.mem_mergeSort.mp hx)
      · exact h
  | _ => exact h

theorem walkedAs_sortEnv {v : Value} (hdistinct : v.Distinct) : WalkedAs sortHere sortEnv v := by
  refine walkedAs_modify (fun v => sortEnv_of_atom) sortEnv_list (fun members => ?_)
    (fun v => walkedAs_sortByName) hdistinct
  simp only [sortEnv_object, sortMember_eq_ite]

/-- Sorting variables sorts the lists of variables that are members called `env`, at every depth,
and nothing else. Sorting again changes nothing. A walk that sorts the variables of each object
before it goes into the object comes to the same. -/
theorem sorts_variables (v : Value) :
    (∀ w, EnvSorted v w ↔ w = v.sortEnv) ∧ v.sortEnv.sortEnv = v.sortEnv ∧
      (v.Distinct → ∀ w, Walked sortHere v w ↔ w = v.sortEnv) :=
  ⟨fun _ => envSorted_iff, sortEnv_sortEnv v, walkedAs_sortEnv⟩

/-- A variable with variables of its own moves behind `a`, and stays before the other `b`. -/
theorem sorts_variables_nested :
    let named (name : String) : Value := .object [("name", .string name)]
    let nested (first second : Value) : Value :=
      .object [("name", .string "b"), ("env", .list [first, second])]
    let v : Value := .object
      [("env", .list [nested (named "y") (named "x"), named "a", named "b"])]
    let w : Value := .object
      [("env", .list [named "a", nested (named "x") (named "y"), named "b"])]
    v.Distinct ∧ EnvSorted v w ∧ w.sortEnv = w ∧ Walked sortHere v w := by
  intro named nested v w
  have hdistinct : v.Distinct := by
    simp [v, nested, named, Distinct, DistinctAll, DistinctEach, Keyed.keys]
  have hsorted : w = v.sortEnv := by cbv
  obtain ⟨henv, hagain, hwalked⟩ := sorts_variables v
  refine ⟨hdistinct, (henv w).mpr hsorted, ?_, (hwalked hdistinct w).mpr hsorted⟩
  rw [hsorted]
  exact hagain

end ManifestTypes.Value
