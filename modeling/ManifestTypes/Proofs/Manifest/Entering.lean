import ManifestTypes.Proofs.Manifest.Passes

/-!
# Walks through values with lists of named objects

A walk goes through a value depth first, in the order of elements and members. It enters a list of
named objects as the object that this stands for, where only the last element of each name counts,
and does not enter a list in which some elements have a name and others have none.
-/

namespace ManifestTypes.Value

/-! ## One level -/

/-- The last element of each name below it, the names in the order in which they first occur. -/
def lastOfNames (elements : List Value) : Keyed String Value :=
  (elements.map nameKey).eraseDups.filterMap fun name =>
    (elements.filter (nameKey · == name)).getLast?.map (name, ·)

/-- A list of named objects, as far as its first element tells. -/
def IsNamedList (v : Value) : Prop :=
  ∃ first rest, v = .list (first :: rest) ∧ first.isNamed

/-- A list whose first element has a name and in which another one has none. -/
def IsMixedList (v : Value) : Prop :=
  ∃ first rest, v = .list (first :: rest) ∧ first.isNamed ∧ ∃ other ∈ rest, ¬ other.isNamed

theorem not_isNamedList_of_not_list {v : Value} (h : v.elements? = none) : ¬ v.IsNamedList := by
  rintro ⟨first, rest, rfl, -⟩
  cases h

theorem not_isNamedList_nil : ¬ IsNamedList (.list []) := by
  rintro ⟨first, rest, h, -⟩
  cases h

theorem IsMixedList.isNamedList {v : Value} (h : v.IsMixedList) : v.IsNamedList := by
  obtain ⟨first, rest, hlist, hfirst, -⟩ := h
  exact ⟨first, rest, hlist, hfirst⟩

theorem not_isMixedList_of_forall_isNamed {elements : List Value}
    (hall : ∀ x ∈ elements, x.isNamed) : ¬ IsMixedList (.list elements) := by
  rintro ⟨first, rest, hlist, -, other, hother, hunnamed⟩
  cases hlist
  exact hunnamed (hall other (List.mem_cons_of_mem first hother))

/-- What has a name is an object, and so no list. -/
theorem elements?_of_isNamed {v : Value} (h : v.isNamed = true) : v.elements? = none := by
  obtain ⟨members, rfl⟩ := isObject_of_isNamed h
  rfl

inductive Step where
  | element (index : Nat)
  | member (key : String)
  deriving DecidableEq

def Step.key? : Step → Option String
  | .element _ => none
  | .member key => some key

def elementSteps (elements : List Value) : List (Step × Value) :=
  elements.zipIdx.map fun p => (.element p.2, p.1)

def memberSteps (members : Keyed String Value) : List (Step × Value) :=
  members.map fun m => (.member m.1, m.2)

/-- What is entered next from a value, which stands below the key if there is one. -/
def entered (key? : Option String) : Value → List (Step × Value)
  | .list [] => []
  | .list (first :: rest) =>
    if key?.isSome ∧ first.isNamed then
      if rest.all isNamed then memberSteps (lastOfNames (first :: rest)) else []
    else elementSteps (first :: rest)
  | .object members => memberSteps members
  | _ => []

theorem mem_of_mem_lastOfNames {elements : List Value} {m : String × Value}
    (h : m ∈ lastOfNames elements) : m.2 ∈ elements := by
  obtain ⟨name, -, hlast⟩ := List.mem_filterMap.mp h
  obtain ⟨v, hv, rfl⟩ := Option.map_eq_some_iff.mp hlast
  exact List.mem_of_mem_filter (List.mem_of_getLast? hv)

theorem map_snd_elementSteps (elements : List Value) :
    (elementSteps elements).map Prod.snd = elements := by
  rw [elementSteps, List.map_map]
  exact List.zipIdx_map_fst 0 elements

theorem mem_of_mem_elementSteps {elements : List Value} {p : Step × Value}
    (h : p ∈ elementSteps elements) : p.2 ∈ elements := by
  rw [← map_snd_elementSteps elements]
  exact List.mem_map_of_mem h

/-- No step to an element leads to a key. -/
theorem key?_of_mem_elementSteps {elements : List Value} {p : Step × Value}
    (h : p ∈ elementSteps elements) : p.1.key? = none := by
  obtain ⟨q, -, rfl⟩ := List.mem_map.mp h
  rfl

/-- What is entered from a value stands in it. -/
theorem mem_of_mem_entered {key? : Option String} {v : Value} {p : Step × Value}
    (h : p ∈ entered key? v) :
    (∃ elements, v = .list elements ∧ p.2 ∈ elements) ∨
      ∃ members, v = .object members ∧ ∃ m ∈ members, p.2 = m.2 := by
  unfold entered at h
  split at h
  · cases h
  · next first rest =>
      refine .inl ⟨first :: rest, rfl, ?_⟩
      split at h
      · split at h
        · obtain ⟨m, hm, rfl⟩ := List.mem_map.mp h
          exact mem_of_mem_lastOfNames hm
        · cases h
      · exact mem_of_mem_elementSteps h
  · next members =>
      obtain ⟨m, hm, rfl⟩ := List.mem_map.mp h
      exact .inr ⟨members, rfl, m, hm, rfl⟩
  · cases h

theorem sizeOf_lt_of_mem_entered {key? : Option String} {v : Value} {p : Step × Value}
    (h : p ∈ entered key? v) : sizeOf p.2 < sizeOf v := by
  rcases mem_of_mem_entered h with ⟨elements, rfl, hmem⟩ | ⟨members, rfl, m, hm, heq⟩
  · have helement := List.sizeOf_lt_of_mem hmem
    rw [Value.list.sizeOf_spec]
    omega
  · have hmember := List.sizeOf_lt_of_mem hm
    have hvalue : sizeOf m = 1 + sizeOf m.1 + sizeOf m.2 := Prod.mk.sizeOf_spec m.1 m.2
    rw [Value.object.sizeOf_spec, heq]
    omega

/-! ## Whole walks -/

/-- A member that a walk comes to: the steps that lead to it, the key below which it stands, and
its value. -/
structure Reached where
  path : List Step
  key : String
  value : Value

def Reached.under (step : Step) (m : Reached) : Reached :=
  { m with path := step :: m.path }

/-- All members that a walk comes to, each before those inside it. A value that stands below a key
is one of them itself. -/
def reachedAt (key? : Option String) (v : Value) : List Reached :=
  (key?.map fun key => ⟨[], key, v⟩).toList ++
    (entered key? v).attach.flatMap fun ⟨p, _⟩ => (reachedAt p.1.key? p.2).map (Reached.under p.1)
termination_by sizeOf v
decreasing_by exact sizeOf_lt_of_mem_entered ‹_›

/-- All members that a walk through the value comes to. -/
def reached (v : Value) : List Reached :=
  reachedAt none v

theorem reachedAt_eq (key? : Option String) (v : Value) :
    reachedAt key? v = (key?.map fun key => ⟨[], key, v⟩).toList ++
      (entered key? v).flatMap fun p => (reachedAt p.1.key? p.2).map (Reached.under p.1) := by
  rw [reachedAt, List.flatMap_subtype fun _ _ => rfl, List.unattach_attach]

/-! ## Indexing at one level -/

open Manifest (Fault)

def indexedAt : Option String → Value → Except Fault Value
  | some key, v => indexedMember key v
  | none, v => indexed v

theorem byName_eq_lastOfNames (elements : List Value) : byName elements = lastOfNames elements := by
  rw [byName, Keyed.ofList_map_eq_gather nameKey fun v => v, Keyed.gather_last]
  rfl

theorem startsNamed_eq_true_iff {elements : List Value} :
    startsNamed elements = true ↔ IsNamedList (.list elements) := by
  cases elements <;> simp [startsNamed, IsNamedList]

/-- What indexing does to a value before it goes on to what is entered from it. -/
inductive Treatment (key? : Option String) (v : Value) : Prop
  | refused (key : String) (hkey : key? = some key) (hmixed : v.IsMixedList)
      (hentered : entered key? v = []) (hindexed : indexedAt key? v = .error (.mixedList key))
  | converted (key : String) (elements : List Value) (hkey : key? = some key)
      (hlist : v = .list elements) (hnamed : v.IsNamedList) (hall : ∀ x ∈ elements, x.isNamed)
      (hentered : entered key? v = memberSteps (lastOfNames elements))
      (hindexed : indexedAt key? v =
        Value.object <$> Keyed.traverse (fun _ => indexed) (lastOfNames elements))
  | list (elements : List Value) (hlist : v = .list elements)
      (hunnamed : key?.isSome → ¬ v.IsNamedList) (hentered : entered key? v = elementSteps elements)
      (hindexed : indexedAt key? v = Value.list <$> elements.mapM indexed)
  | object (members : Keyed String Value) (hobject : v = .object members)
      (hentered : entered key? v = memberSteps members)
      (hindexed : indexedAt key? v = Value.object <$> Keyed.traverse indexedMember members)
  | atom (helements : v.elements? = none) (hmembers : v.members? = none)
      (hentered : entered key? v = []) (hindexed : indexedAt key? v = .ok v)

theorem indexedAt_of_not_list {v : Value} (h : v.elements? = none) (key? : Option String) :
    indexedAt key? v = indexed v := by
  cases key? with
  | none => rfl
  | some key => exact indexedMember_of_not_list h key

theorem indexedAt_unnamed {key? : Option String} {elements : List Value}
    (h : key?.isSome → ¬ IsNamedList (.list elements)) :
    indexedAt key? (.list elements) = Value.list <$> elements.mapM indexed := by
  rw [← indexed_list]
  cases key? with
  | none => rfl
  | some key =>
      have hstarts : ¬ startsNamed elements = true := startsNamed_eq_true_iff.not.mpr (h rfl)
      exact (indexedMember_list key elements).trans (if_neg hstarts)

theorem treatment_list (key? : Option String) (elements : List Value) :
    Treatment key? (.list elements) := by
  cases elements with
  | nil =>
      have hunnamed : key?.isSome → ¬ IsNamedList (.list []) := fun _ => not_isNamedList_nil
      exact .list [] rfl hunnamed rfl (indexedAt_unnamed hunnamed)
  | cons first rest =>
      by_cases hnamed : key?.isSome ∧ first.isNamed
      · obtain ⟨key, rfl⟩ := Option.isSome_iff_exists.mp hnamed.1
        have hlist : IsNamedList (.list (first :: rest)) := ⟨first, rest, rfl, hnamed.2⟩
        have hstarts : startsNamed (first :: rest) = true := startsNamed_eq_true_iff.mpr hlist
        by_cases hall : rest.all isNamed = true
        · have hboth : (first :: rest).all isNamed = true := by
            rw [List.all_cons, hnamed.2, hall, Bool.and_self]
          refine .converted key _ rfl rfl hlist (List.all_eq_true.mp hboth) ?_ ?_
          · rw [entered, if_pos hnamed, if_pos hall]
          · rw [indexedAt, indexedMember_list, if_pos hstarts, if_pos hboth, byName_eq_lastOfNames]
        · have hboth : ¬ (first :: rest).all isNamed = true := by
            rwa [List.all_cons, hnamed.2, Bool.true_and]
          refine .refused key rfl ⟨first, rest, rfl, hnamed.2, by simpa using hall⟩ ?_ ?_
          · rw [entered, if_pos hnamed, if_neg hall]
          · rw [indexedAt, indexedMember_list, if_pos hstarts, if_neg hboth]
      · have hunnamed : key?.isSome → ¬ IsNamedList (.list (first :: rest)) := by
          rintro hkey ⟨_, _, hlist, hfirst⟩
          cases hlist
          exact hnamed ⟨hkey, hfirst⟩
        refine .list _ rfl hunnamed ?_ (indexedAt_unnamed hunnamed)
        rw [entered, if_neg hnamed]

theorem treatment (key? : Option String) (v : Value) : Treatment key? v := by
  cases v with
  | list elements => exact treatment_list key? elements
  | object members =>
      refine .object members rfl rfl ?_
      rw [indexedAt_of_not_list rfl, indexed_object]
  | _ => exact .atom rfl rfl rfl (indexedAt_of_not_list rfl key?)

end ManifestTypes.Value
