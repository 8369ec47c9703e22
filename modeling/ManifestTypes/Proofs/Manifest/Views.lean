import ManifestTypes.Manifest.Schema
import ManifestTypes.Proofs.Manifest.Leaves

/-!
# The views of a set

A set is seen as a record of manifests, as the type of that record, as the union of the types in it
and as a record of what settings can be attached to. All of these have the same places: the
component, the kind and the name of each resource.
-/

namespace ManifestTypes

/-- What is left when repetitions are dropped stands in the order of the first occurrences. -/
theorem pairwise_eraseDups {α : Type} [BEq α] [LawfulBEq α] (items : List α) :
    items.eraseDups.Pairwise fun a b => items.idxOf a < items.idxOf b := by
  induction items using List.reverseRecOn with
  | nil => exact List.Pairwise.nil
  | append_singleton items last ih =>
      have hbefore : items.eraseDups.Pairwise fun a b =>
          (items ++ [last]).idxOf a < (items ++ [last]).idxOf b := by
        refine ih.imp_of_mem fun {a b} ha hb hlt => ?_
        rwa [List.idxOf_append_of_mem (List.mem_eraseDups.mp ha),
          List.idxOf_append_of_mem (List.mem_eraseDups.mp hb)]
      rw [List.eraseDups_append]
      by_cases hlast : last ∈ items
      · simpa [List.removeAll, hlast] using hbefore
      · have hnew : [last].removeAll items = [last] := by simp [List.removeAll, hlast]
        rw [hnew, List.eraseDups_cons, List.filter_nil, List.eraseDups_nil, List.pairwise_append]
        refine ⟨hbefore, List.pairwise_singleton _ _, fun a ha b hb => ?_⟩
        have hmem : a ∈ items := List.mem_eraseDups.mp ha
        rw [List.mem_singleton.mp hb, List.idxOf_append_of_mem hmem,
          List.idxOf_append_of_notMem hlast]
        exact Nat.lt_of_lt_of_le (List.idxOf_lt_length_of_mem hmem) (Nat.le_add_right _ _)

namespace Manifest

/-! ## Other manifests in the same places -/

/-- The resource with what `leaf` makes of it in the place of its manifest. -/
def Resource.withContents (leaf : Resource → Value) (r : Resource) : Resource :=
  { r with contents := leaf r }

theorem ofComponent_withContents (leaf : Resource → Value) (resources : List Resource)
    (component : String) :
    ResourceSet.ofComponent (resources.map (Resource.withContents leaf)) component =
      (ResourceSet.ofComponent resources component).map (Resource.withContents leaf) :=
  List.filter_map

theorem ofKind_withContents (leaf : Resource → Value) (resources : List Resource)
    (kind : String) :
    ResourceSet.ofKind (resources.map (Resource.withContents leaf)) kind =
      (ResourceSet.ofKind resources kind).map (Resource.withContents leaf) :=
  List.filter_map

/-- A record of anything else than the manifests is the record of other manifests. -/
theorem group_eq_record (leaf : Resource → Value) (resources : List Resource) :
    (ResourceSet.ofList resources).group leaf =
      (ResourceSet.ofList (resources.map (Resource.withContents leaf))).record := by
  have hkinds (here : List Resource) : ResourceSet.byKind leaf here =
      ResourceSet.byKind Resource.contents (here.map (Resource.withContents leaf)) := by
    rw [ResourceSet.byKind, ResourceSet.byKind, List.foldl_map]
    rfl
  simp only [ResourceSet.record, ResourceSet.group, ResourceSet.groups_ofList_eq, List.map_map,
    Function.comp_def, ofComponent_withContents, hkinds]
  rfl

/-! ## The outline of a record -/

def outline (v : Value) : List (Level × List String) :=
  (placed v).map fun m => (m.level, m.path)

/-- Which members the record has is decided by the components, kinds and names alone. -/
theorem outline_record (resources : List Resource) :
    outline (ResourceSet.ofList resources).record =
      (resources.map Resource.component).eraseDups.flatMap fun component =>
        let here := ResourceSet.ofComponent resources component
        (.component, [component]) :: (here.map Resource.kind).eraseDups.flatMap fun kind =>
          (.kind, [component, kind]) ::
            ((ResourceSet.ofKind here kind).map Resource.name).eraseDups.map
              fun name => (.resource, [component, kind, name]) := by
  simp only [outline, record_eq_toValue, Manifests.placed_toValue, manifests_ofList,
    List.flatMap_map, List.map_flatMap, List.map_cons, List.map_map, ← names_lastOfNames]
  rfl

theorem outline_group (leaf : Resource → Value) (resources : List Resource) :
    outline ((ResourceSet.ofList resources).group leaf) =
      outline (ResourceSet.ofList resources).record := by
  rw [group_eq_record, outline_record, outline_record]
  simp only [ofComponent_withContents, ofKind_withContents, List.map_map]
  rfl

theorem paths_leaves (v : Value) :
    (leaves v).map Placed.path = ((outline v).filter fun m => m.1 = .resource).map Prod.snd := by
  rw [leaves, outline, List.filter_map, List.map_map]
  rfl

theorem mem_outline_record {resources : List Resource} {component kind : String} :
    (.kind, [component, kind]) ∈ outline (ResourceSet.ofList resources).record ↔
      ∃ r ∈ resources, r.component = component ∧ r.kind = kind := by
  rw [outline_record]
  simp only [List.mem_flatMap, List.mem_cons, List.mem_map, List.mem_eraseDups]
  constructor
  · rintro ⟨_, -, h | ⟨_, ⟨r, hr, rfl⟩, h | ⟨_, -, h⟩⟩⟩
    · cases h
    · cases h
      obtain ⟨hmem, hcomponent⟩ := List.mem_filter.mp hr
      exact ⟨r, hmem, beq_iff_eq.mp hcomponent, rfl⟩
    · cases h
  · rintro ⟨r, hr, rfl, rfl⟩
    have hhere : r ∈ ResourceSet.ofComponent resources r.component :=
      List.mem_filter.mpr ⟨hr, beq_self_eq_true _⟩
    exact ⟨_, ⟨r, hr, rfl⟩, .inr ⟨_, ⟨r, hhere, rfl⟩, .inl rfl⟩⟩

/-- What stands on the last level belongs to a resource. -/
theorem exists_of_mem_leaves {resources : List Resource} {m : Placed}
    (h : m ∈ leaves (ResourceSet.ofList resources).record) :
    ∃ r ∈ resources, m.path = r.place ∧ m.value = r.contents := by
  simp only [record_eq_toValue, Manifests.leaves_toValue, manifests_ofList, List.flatMap_map,
    List.mem_flatMap, List.mem_map] at h
  obtain ⟨component, -, kind, -, _, ⟨r, hr, rfl⟩, rfl⟩ := h
  obtain ⟨hmem, rfl, rfl⟩ := ResourceSet.mem_of_mem_lastOfNames hr
  exact ⟨r, hmem, rfl, rfl⟩

/-! ## The places of all views -/

theorem mem_places_iff {resources : List Resource} {path : List String} :
    path ∈ (ResourceSet.ofList resources).resources.map Resource.place ↔
      path ∈ (leaves (ResourceSet.ofList resources).record).map Placed.path := by
  rw [mem_paths_record, List.mem_map]
  simp only [(ResourceSet.resources_ofList_perm resources).mem_iff]

theorem mem_kinds_iff {resources : List Resource} {kind : String} :
    kind ∈ (ResourceSet.ofList resources).kinds ↔
      ∃ component, (.kind, [component, kind]) ∈ outline (ResourceSet.ofList resources).record := by
  simp only [ResourceSet.kinds, List.mem_eraseDups, List.mem_map, mem_outline_record,
    (ResourceSet.resources_ofList_perm resources).mem_iff]
  constructor
  · rintro ⟨r, hr, rfl⟩
    exact ⟨r.component, r, hr, rfl, rfl⟩
  · rintro ⟨_, r, hr, -, hkind⟩
    exact ⟨r, hr, hkind⟩

theorem skeleton_of_not_mem {r : Resource} (h : r.kind ∉ workloadKinds) :
    r.skeleton = .object [] := by
  rw [Resource.skeleton, if_neg h]

/-- The views of a set that resources were inserted into have the same places. The type of the
record has one part for each resource, in the order of the set, and the places of the parts are
those of the manifests in the record. The union has one alternative for each kind in the record, in
the order of the first resources. The record of what settings can be attached to has the same
members as the record of manifests, on all three levels and in the same order, and holds an empty
object for each resource that is no workload. -/
theorem views_agree (resources : List Resource) (url : String) :
    let s := ResourceSet.ofList resources
    let operands := s.resources.map fun r =>
      "\x7b " ++ label r.component ++ " : \x7b " ++ label r.kind ++ " : \x7b " ++ label r.name
        ++ " : " ++ ("(" ++ url ++ ")." ++ r.kind ++ ".Type") ++ " \x7d \x7d \x7d"
    let alternatives := s.kinds.map fun kind =>
      label kind ++ " : " ++ ("(" ++ url ++ ")." ++ kind ++ ".Type")
    (s.recordType url = " //\\\\ ".intercalate operands ∧ operands.length = s.size ∧
      ∀ path, path ∈ s.resources.map Resource.place ↔ path ∈ (leaves s.record).map Placed.path) ∧
    (s.unionType url = "< " ++ " | ".intercalate alternatives ++ " >" ∧
      s.kinds.Nodup ∧
      (∀ kind, kind ∈ s.kinds ↔ ∃ component, (.kind, [component, kind]) ∈ outline s.record) ∧
      s.kinds.Pairwise fun kind kind' =>
        (s.resources.map Resource.kind).idxOf kind < (s.resources.map Resource.kind).idxOf kind') ∧
    outline s.components = outline s.record ∧
    (leaves s.components).map Placed.path = (leaves s.record).map Placed.path ∧
    ∀ leaf ∈ leaves s.components, ∀ component kind name, leaf.path = [component, kind, name] →
      kind ∉ ["Deployment", "StatefulSet", "DaemonSet"] → leaf.value = .object [] := by
  intro s operands alternatives
  refine ⟨⟨rfl, List.length_map .., fun _ => mem_places_iff⟩,
    ⟨rfl, Keyed.nodup_eraseDups _, fun _ => mem_kinds_iff, pairwise_eraseDups _⟩,
    outline_group _ resources, ?paths, ?leaves⟩
  case paths =>
    rw [paths_leaves, paths_leaves]
    exact congrArg _ (congrArg _ (outline_group _ resources))
  case leaves =>
    intro leaf hleaf component kind name hpath hkind
    rw [ResourceSet.components, group_eq_record] at hleaf
    obtain ⟨r, hr, hplace, hvalue⟩ := exists_of_mem_leaves hleaf
    obtain ⟨r, -, rfl⟩ := List.mem_map.mp hr
    rw [hpath] at hplace
    cases hplace
    rw [hvalue]
    exact skeleton_of_not_mem hkind

end Manifest

end ManifestTypes
