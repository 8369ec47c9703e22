import Mathlib.Data.List.Nodup
import ManifestTypes.Proofs.Manifest.Collecting

/-!
# The manifests in a record

The record of a set has room for one manifest of each component, kind and name. Which manifests it
holds, and what is found below the keys of a resource.
-/

namespace ManifestTypes

/-- What stands in nested objects below the keys. -/
def Value.lookup? (v : Value) (path : List String) : Option Value :=
  path.foldlM Value.get? v

namespace Manifest

/-- The keys below which the record has the manifest of the resource. -/
def Resource.place (r : Resource) : List String :=
  [r.component, r.kind, r.name]

/-- The manifests of a record, in its order. -/
def leaves (v : Value) : List Placed :=
  (placed v).filter fun m => m.level = .resource

namespace Manifests

theorem placed_toValue (ms : Manifests) :
    placed ms.toValue = ms.flatMap fun component =>
      ⟨.component, [component.1], .object (component.2.map fun kind => (kind.1, .object kind.2))⟩ ::
        component.2.flatMap fun kind =>
          ⟨.kind, [component.1, kind.1], .object kind.2⟩ ::
            kind.2.map (placedResource component.1 kind.1) := by
  simp only [placed, placedComponent, placedKind, toValue, Value.members_object, List.flatMap_map]

theorem leaves_toValue (ms : Manifests) :
    leaves ms.toValue = ms.flatMap fun component => component.2.flatMap fun kind =>
      kind.2.map (placedResource component.1 kind.1) := by
  have hresources : ∀ (component kind : String) (names : Keyed String Value),
      (names.map (placedResource component kind)).filter (fun m => m.level = .resource) =
        names.map (placedResource component kind) := by
    intro component kind names
    refine List.filter_eq_self.mpr fun m hm => ?_
    obtain ⟨entry, -, rfl⟩ := List.mem_map.mp hm
    rfl
  simp [leaves, placed_toValue, List.filter_flatMap, hresources]

theorem lookup?_toValue (ms : Manifests) (component kind name : String) :
    ms.toValue.lookup? [component, kind, name] =
      (ms.get? component).bind fun kinds => (kinds.get? kind).bind (Keyed.get? · name) := by
  simp only [Value.lookup?, toValue, List.foldlM_cons, List.foldlM_nil, Option.pure_def,
    Option.bind_eq_bind, Option.bind_fun_some, Value.get?_object]
  rw [Keyed.get?_map fun _ (kinds : Keyed String (Keyed String Value)) =>
    Value.object (kinds.map fun kind => (kind.1, .object kind.2))]
  cases ms.get? component with
  | none => rfl
  | some kinds =>
      simp only [Option.map_some, Option.bind_some, Value.get?_object]
      rw [Keyed.get?_map fun _ => Value.object]
      cases kinds.get? kind <;> rfl

end Manifests

/-! ## What is found below the keys of a resource -/

theorem get?_groups_ofList (resources : List Resource) (component : String) :
    (ResourceSet.ofList resources).groups.get? component =
      let here := ResourceSet.ofComponent resources component
      if here = [] then none else some here := by
  rw [ResourceSet.groups_ofList, Keyed.get?_gather,
    Keyed.accumulate_getD fun (group : List Resource) r => group ++ [r], Keyed.foldl_concat]
  rfl

theorem get?_byKind (leaf : Resource → Value) (resources : List Resource) (kind : String) :
    (ResourceSet.byKind leaf resources).get? kind =
      let here := ResourceSet.ofKind resources kind
      if here = [] then none else some (Keyed.gather Resource.name (fun _ r => leaf r) here) := by
  rw [ResourceSet.byKind_eq_gather, Keyed.get?_gather,
    Keyed.accumulate_getD fun names r => Keyed.insert names r.name (leaf r)]
  simp only [Keyed.gather, Keyed.insert_eq_upsert]
  rfl

theorem filter_place (resources : List Resource) (component kind name : String) :
    resources.filter (·.place == [component, kind, name]) =
      (ResourceSet.ofKind (ResourceSet.ofComponent resources component) kind).filter
        (·.name == name) := by
  rw [ResourceSet.ofKind, ResourceSet.ofComponent, List.filter_filter, List.filter_filter]
  refine List.filter_congr fun r _ => ?_
  rw [Bool.eq_iff_iff]
  simp only [Resource.place, beq_iff_eq, Bool.and_eq_true, List.cons.injEq, and_true]
  constructor
  · rintro ⟨hcomponent, hkind, hname⟩
    exact ⟨⟨hname, hkind⟩, hcomponent⟩
  · rintro ⟨⟨hname, hkind⟩, hcomponent⟩
    exact ⟨hcomponent, hkind, hname⟩

/-- The last resource that was inserted with the keys gives the manifest below them. -/
theorem lookup?_record (resources : List Resource) (component kind name : String) :
    (ResourceSet.ofList resources).record.lookup? [component, kind, name] =
      (resources.filter (·.place == [component, kind, name])).getLast?.map Resource.contents := by
  rw [record_eq_toValue, Manifests.lookup?_toValue, manifests,
    Keyed.get?_map fun _ => ResourceSet.byKind Resource.contents, get?_groups_ofList,
    filter_place]
  by_cases hcomponent : ResourceSet.ofComponent resources component = []
  · simp [hcomponent, ResourceSet.ofKind]
  · simp only [hcomponent, if_false, Option.map_some, Option.bind_some, get?_byKind]
    by_cases hkind : ResourceSet.ofKind (ResourceSet.ofComponent resources component) kind = []
    · simp [hkind]
    · simp only [hkind, if_false, Option.bind_some]
      rw [Keyed.get?_gather, Keyed.accumulate_last]

/-! ## Which manifests the record holds -/

theorem names_lastOfNames (resources : List Resource) :
    (ResourceSet.lastOfNames resources).map Resource.name =
      (resources.map Resource.name).eraseDups := by
  rw [ResourceSet.lastOfNames, List.map_filterMap]
  calc
    _ = (resources.map Resource.name).eraseDups.map id := by
      refine List.filterMap_eq_map_iff_forall_eq_some.mpr fun name hname => ?_
      obtain ⟨r, hr, rfl⟩ := List.mem_map.mp (List.mem_eraseDups.mp hname)
      have hmem : r ∈ resources.filter (·.name == r.name) :=
        List.mem_filter.mpr ⟨hr, beq_self_eq_true _⟩
      cases hlast : (resources.filter (·.name == r.name)).getLast? with
      | none => rw [List.getLast?_eq_none_iff.mp hlast] at hmem; cases hmem
      | some last =>
          have hsame := (List.mem_filter.mp (List.mem_of_getLast? hlast)).2
          exact congrArg some (beq_iff_eq.mp hsame)
    _ = _ := List.map_id _

/-- The places of the manifests, level by level. -/
theorem paths_record (resources : List Resource) :
    (leaves (ResourceSet.ofList resources).record).map Placed.path =
      (resources.map Resource.component).eraseDups.flatMap fun component =>
        let here := ResourceSet.ofComponent resources component
        (here.map Resource.kind).eraseDups.flatMap fun kind =>
          ((ResourceSet.ofKind here kind).map Resource.name).eraseDups.map
            fun name => [component, kind, name] := by
  simp only [record_eq_toValue, Manifests.leaves_toValue, manifests_ofList, List.flatMap_map,
    List.map_flatMap, List.map_map, ← names_lastOfNames]
  rfl

theorem mem_paths_record {resources : List Resource} {path : List String} :
    path ∈ (leaves (ResourceSet.ofList resources).record).map Placed.path ↔
      ∃ r ∈ resources, r.place = path := by
  rw [paths_record]
  simp only [List.mem_flatMap, List.mem_map, List.mem_eraseDups]
  constructor
  · rintro ⟨_, -, _, -, _, ⟨r, hr, rfl⟩, rfl⟩
    obtain ⟨hmem, rfl, rfl⟩ := ResourceSet.mem_ofKind_ofComponent.mp hr
    exact ⟨r, hmem, rfl⟩
  · rintro ⟨r, hr, rfl⟩
    have hkind : r ∈ ResourceSet.ofKind (ResourceSet.ofComponent resources r.component) r.kind :=
      ResourceSet.mem_ofKind_ofComponent.mpr ⟨hr, rfl, rfl⟩
    exact ⟨_, ⟨r, hr, rfl⟩, _, ⟨r, (List.mem_filter.mp hkind).1, rfl⟩, _, ⟨r, hkind, rfl⟩, rfl⟩

theorem nodup_flatMap {α β : Type} {f : α → List β} {items : List α} (h : items.Nodup)
    (hblocks : ∀ a ∈ items, (f a).Nodup) (hapart : ∀ a a' b, b ∈ f a → b ∈ f a' → a = a') :
    (items.flatMap f).Nodup := by
  refine List.nodup_flatMap.mpr ⟨hblocks, h.imp fun {a a'} hne => ?_⟩
  intro b hb hb'
  exact hne (hapart a a' b hb hb')

theorem nodup_paths_record (resources : List Resource) :
    ((leaves (ResourceSet.ofList resources).record).map Placed.path).Nodup := by
  rw [paths_record]
  refine nodup_flatMap (Keyed.nodup_eraseDups _) (fun component _ => ?kinds) ?components
  case kinds =>
    refine nodup_flatMap (Keyed.nodup_eraseDups _) (fun kind _ => ?names) ?kinds
    case names =>
      refine (Keyed.nodup_eraseDups _).map fun name name' h => ?_
      cases h
      rfl
    case kinds =>
      intro kind kind' path hpath hpath'
      obtain ⟨name, -, rfl⟩ := List.mem_map.mp hpath
      obtain ⟨name', -, hsame⟩ := List.mem_map.mp hpath'
      cases hsame
      rfl
  case components =>
    intro component component' path hpath hpath'
    simp only [List.mem_flatMap, List.mem_map] at hpath hpath'
    obtain ⟨kind, -, name, -, rfl⟩ := hpath
    obtain ⟨kind', -, name', -, hsame⟩ := hpath'
    cases hsame
    rfl

theorem length_paths_record (resources : List Resource) :
    ((leaves (ResourceSet.ofList resources).record).map Placed.path).length =
        (ResourceSet.ofList resources).size ↔
      (resources.map Resource.place).Nodup := by
  have hsize : (ResourceSet.ofList resources).size = (resources.map Resource.place).length := by
    rw [ResourceSet.size, (ResourceSet.resources_ofList_perm resources).length_eq, List.length_map]
  have hpaths := nodup_paths_record resources
  have hplaces : ∀ path, path ∈ (leaves (ResourceSet.ofList resources).record).map Placed.path ↔
      path ∈ resources.map Resource.place := by
    intro path
    rw [mem_paths_record, List.mem_map]
  rw [hsize]
  constructor
  · intro hlength
    have hsub := List.subperm_of_subset hpaths fun path => (hplaces path).mp
    have hperm := hsub.perm_of_length_le (Nat.le_of_eq hlength.symm)
    exact hperm.nodup_iff.mp hpaths
  · intro hnodup
    exact ((List.perm_ext_iff_of_nodup hpaths hnodup).mpr hplaces).length_eq

theorem lookup?_record_last {before after : List Resource} {r : Resource}
    (hlast : ∀ r' ∈ after, r'.place ≠ r.place) :
    (ResourceSet.ofList (before ++ r :: after)).record.lookup? r.place = some r.contents := by
  have hafter : after.filter (·.place == r.place) = [] := by
    simpa only [List.filter_eq_nil_iff, beq_iff_eq] using hlast
  have hfilter : (before ++ r :: after).filter (·.place == r.place) =
      before.filter (·.place == r.place) ++ [r] := by
    rw [List.filter_append, List.filter_cons, beq_self_eq_true, if_pos rfl, hafter]
  have hfound := lookup?_record (before ++ r :: after) r.component r.kind r.name
  rw [← Resource.place, hfilter, List.getLast?_concat] at hfound
  exact hfound

/-- A record holds one manifest for each component, kind and name that was inserted, and it is the
one that was inserted last. So it holds as many manifests as were inserted exactly if no two
resources agree in all three, and then every manifest is found below the keys of its resource. -/
theorem record_keeps_last (resources : List Resource) :
    let s := ResourceSet.ofList resources
    let paths := (leaves s.record).map Placed.path
    paths.Nodup ∧
    (∀ path, path ∈ paths ↔ ∃ r ∈ resources, r.place = path) ∧
    (∀ before r after, resources = before ++ r :: after → (∀ r' ∈ after, r'.place ≠ r.place) →
      s.record.lookup? r.place = some r.contents) ∧
    (paths.length = s.size ↔ (resources.map Resource.place).Nodup) ∧
    ((resources.map Resource.place).Nodup →
      ∀ r ∈ resources, s.record.lookup? r.place = some r.contents) := by
  intro s paths
  refine ⟨nodup_paths_record resources, fun _ => mem_paths_record, ?last,
    length_paths_record resources, ?all⟩
  case last =>
    rintro before r after rfl hlast
    exact lookup?_record_last hlast
  case all =>
    intro hnodup r hr
    obtain ⟨before, after, rfl⟩ := List.append_of_mem hr
    refine lookup?_record_last fun r' hr' hsame => ?_
    rw [List.map_append, List.map_cons] at hnodup
    have hfresh := (List.nodup_cons.mp (List.nodup_append.mp hnodup).2.1).1
    exact hfresh (hsame ▸ List.mem_map_of_mem hr')

def namespacedService (space : String) : Value :=
  .object [("apiVersion", .string "v1"), ("kind", .string "Service"),
    ("metadata", .object [("name", .string "front"), ("namespace", .string space)])]

def twoNamespaces : List Resource :=
  ["live", "test"].map fun space => ⟨"Service", "v1", "front", "web", namespacedService space⟩

/-- Of these only the second is found in the record, which is one manifest short. -/
theorem record_drops_namespace :
    (∀ r ∈ twoNamespaces, ∃ contents fallback, Resource.ofValue contents fallback = .ok r) ∧
    (leaves (ResourceSet.ofList twoNamespaces).record).length ≠
      (ResourceSet.ofList twoNamespaces).size ∧
    ¬ ∀ r ∈ twoNamespaces,
      (ResourceSet.ofList twoNamespaces).record.lookup? r.place = some r.contents := by
  refine ⟨?_, by decide, fun h => ?_⟩
  · rw [twoNamespaces, List.forall_mem_map]
    exact fun space _ => ⟨namespacedService space, "web", rfl⟩
  · have hfirst := h _ List.mem_cons_self
    have hlost : some (namespacedService "test") = some (namespacedService "live") := hfirst
    simp [namespacedService] at hlost

end Manifest

end ManifestTypes
