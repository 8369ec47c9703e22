import ManifestTypes.Proofs.Manifest.Leaves

/-!
# What a set keeps of the resources inserted into it

A set holds every resource as often as it was inserted. Resources are put together by component and
keep their order otherwise, also if the components recur or the set was split off a record before.
-/

namespace ManifestTypes.Manifest.ResourceSet

/-- A set holds the resources of a list, grouped by component. -/
structure Grouped (s : ResourceSet) (inserted : List Resource) : Prop where
  groups : s.groups = (inserted.map Resource.component).eraseDups.map fun component =>
    (component, ofComponent inserted component)
  resources : s.resources =
    (inserted.map Resource.component).eraseDups.flatMap (ofComponent inserted)
  perm : s.resources.Perm inserted
  stable : ∀ component, ofComponent s.resources component = ofComponent inserted component
  size : s.size = inserted.length
  isEmpty_iff : s.isEmpty = true ↔ inserted = []

theorem eq_ofList_of_groups {s : ResourceSet} {inserted : List Resource}
    (h : s.groups = (inserted.map Resource.component).eraseDups.map fun component =>
      (component, ofComponent inserted component)) : s = ofList inserted :=
  congrArg ResourceSet.mk (h.trans (groups_ofList_eq inserted).symm)

theorem insert_ofList (resources : List Resource) (r : Resource) :
    (ofList resources).insert r = ofList (resources ++ [r]) := by
  rw [ofList, ofList, List.foldl_concat]

/-- The resources of a component are found in the set as they were inserted. -/
theorem ofComponent_resources_ofList (resources : List Resource) (component : String) :
    ofComponent (ofList resources).resources component = ofComponent resources component := by
  have hgroup : (ofList (ofList resources).resources).groups.get? component =
      (ofList resources).groups.get? component := by
    rw [ofList_resources_ofList]
  simp only [get?_groups_ofList] at hgroup
  split at hgroup
  · next hnone =>
      split at hgroup
      · next hnone' => rw [hnone, hnone']
      · cases hgroup
  · next hsome =>
      split at hgroup
      · cases hgroup
      · exact Option.some.inj hgroup

/-- No component is left without resources, so the set is empty only if none was inserted. -/
theorem isEmpty_ofList_iff (resources : List Resource) :
    (ofList resources).isEmpty = true ↔ resources = [] := by
  rw [isEmpty, groups_ofList_eq, List.isEmpty_iff, List.map_eq_nil_iff]
  cases resources with
  | nil => simp
  | cons r rest => simp [List.eraseDups_cons]

theorem grouped_ofList (resources : List Resource) : (ofList resources).Grouped resources where
  groups := groups_ofList_eq resources
  resources := by rw [ResourceSet.resources, groups_ofList_eq, List.flatMap_map]
  perm := resources_ofList_perm resources
  stable := ofComponent_resources_ofList resources
  size := (resources_ofList_perm resources).length_eq
  isEmpty_iff := isEmpty_ofList_iff resources

/-- One more resource goes to the end of its component. -/
theorem Grouped.insert {s : ResourceSet} {inserted : List Resource} (h : s.Grouped inserted)
    (r : Resource) : (s.insert r).Grouped (inserted ++ [r]) := by
  rw [eq_ofList_of_groups h.groups, insert_ofList]
  exact grouped_ofList _

theorem Grouped.insertAll {s : ResourceSet} {inserted : List Resource} (h : s.Grouped inserted)
    (more : List Resource) : (more.foldl ResourceSet.insert s).Grouped (inserted ++ more) := by
  induction more generalizing s inserted with
  | nil => simpa using h
  | cons r more ih => simpa using ih (h.insert r)

/-- A record that is split comes with the resources of its manifests, in their order. -/
theorem grouped_ofRecord {record : Value} {s : ResourceSet} (h : ofRecord record = .ok s) :
    s.Grouped (Manifests.ofValue record).resources := by
  obtain ⟨-, rfl⟩ := ofRecord_eq_ok_iff.mp h
  exact grouped_ofList _

/-- A set holds the resources that were inserted into it, grouped by component in a stable way. It
does so from the beginning, and behind the resources of a record that it was split off. -/
theorem grouped_inserted (inserted : List Resource) :
    (inserted.foldl insert empty).Grouped inserted ∧
    ∀ record s, ofRecord record = .ok s →
      (inserted.foldl insert s).Grouped ((Manifests.ofValue record).resources ++ inserted) :=
  ⟨(grouped_ofList []).insertAll inserted, fun _ _ h => (grouped_ofRecord h).insertAll inserted⟩

theorem grouped_inserted_recurring :
    (ofList interleaved).Grouped interleaved ∧
    ∃ s, ofRecord recordWithGaps = .ok s ∧
      (interleaved.foldl insert s).Grouped
        ((Manifests.ofValue recordWithGaps).resources ++ interleaved) ∧
      (interleaved.foldl insert s).resources.map (fun r => (r.component, r.kind, r.name)) =
        [("web", "Service", "front"), ("web", "Service", "back"),
          ("web", "PersistentVolume", "data"), ("web", "Service", "front"),
          ("web", "PersistentVolume", "data"), ("db", "Service", "store"),
          ("db", "Service", "store")] := by
  obtain ⟨hempty, hsplit⟩ := grouped_inserted interleaved
  exact ⟨hempty, _, rfl, hsplit recordWithGaps _ rfl, rfl⟩

end ManifestTypes.Manifest.ResourceSet
