import ManifestTypes.Proofs.Manifest.Identity
import ManifestTypes.Proofs.Manifest.Splitting

/-!
# Collecting resources and splitting their record

A set is written as a record and read back. What comes back is the last resource of each
component, kind and name. The record holds its contents alone, and its other parts are told from
these and from their place, with which every resource that comes into a set agrees.
-/

namespace ManifestTypes.Manifest

/-! ## Resources that come about -/

namespace Resource

/-- A resource that was read from a manifest or a document, and may have been patched since, also
by a patch that came to a fault. -/
inductive Made : Resource → Prop
  | ofValue {contents : Value} {fallback : String} {r : Resource} :
      Resource.ofValue contents fallback = .ok r → Made r
  | ofNode {document : Node} {fallback : String} {r : Resource} :
      Resource.ofNode document fallback = .ok r → Made r
  | patch {r : Resource} : Made r → Made r.patch.value

/-- The contents are an object, and the version is the one that splitting takes from them. -/
structure Coherent (r : Resource) : Prop where
  isObject : r.contents.IsObject
  apiVersion : r.apiVersion = (r.contents.getString? "apiVersion").getD ""

theorem coherent_ofValue {contents : Value} {fallback : String} {r : Resource}
    (h : ofValue contents fallback = .ok r) : r.Coherent := by
  obtain ⟨rfl, -, hversion, -⟩ := ofValue_eq_ok_iff.mp h
  exact ⟨Value.isObject_of_getString? hversion, by rw [hversion, Option.getD_some]⟩

theorem coherent_patch {r : Resource} (h : r.Coherent) : r.patch.value.Coherent := by
  have hsame : r.patch.value.contents.SameStrings r.contents :=
    sameStrings_patchContents r.kind r.contents
  refine ⟨?_, ?_⟩
  · rw [← Value.isObject_eq_true_iff, hsame.isObject]
    exact Value.isObject_eq_true_iff.mpr h.isObject
  · rw [hsame.getString?]
    exact h.apiVersion

theorem coherent_of_made {r : Resource} (h : Made r) : r.Coherent := by
  induction h with
  | ofValue h => exact coherent_ofValue h
  | ofNode h =>
      obtain ⟨contents, -, h⟩ := ofNode_eq_ok_iff.mp h
      exact coherent_ofValue h
  | patch _ ih => exact coherent_patch ih

theorem coherent_resource {component kind : String} {entry : String × Value}
    (h : entry.2.IsObject) : (Manifests.resource component kind entry).Coherent :=
  ⟨h, rfl⟩

/-- A coherent resource can be told from its place and its contents. -/
theorem resource_of_coherent {r : Resource} (h : r.Coherent) :
    Manifests.resource r.component r.kind (r.name, r.contents) = r := by
  simp only [Manifests.resource, ← h.apiVersion]

end Resource

/-! ## Sets that come about -/

/-- A set, and the resources in the order in which they were inserted into it. A record that is
split comes with the resources of its manifests. -/
inductive Reached : ResourceSet → List Resource → Prop
  | empty : Reached .empty []
  | insert {s : ResourceSet} {log : List Resource} {r : Resource} :
      Reached s log → r.Made → Reached (s.insert r) (log ++ [r])
  | split {record : Value} {s : ResourceSet} :
      ResourceSet.ofRecord record = .ok s → Reached s s.resources

namespace Manifests

theorem coherent_resources {ms : Manifests} (h : ms.AllObjects) :
    ∀ r ∈ ms.resources, r.Coherent := by
  simp only [resources_eq, List.forall_mem_flatMap, List.forall_mem_map]
  exact fun component hcomponent kind hkind entry hentry =>
    Resource.coherent_resource (h component hcomponent kind hkind entry hentry)

end Manifests

/-- A set is grouped from what was inserted, and all of that is coherent. -/
theorem Reached.eq_ofList {s : ResourceSet} {log : List Resource} (h : Reached s log) :
    s = .ofList log ∧ ∀ r ∈ log, r.Coherent := by
  induction h with
  | empty => exact ⟨rfl, fun r hr => nomatch hr⟩
  | @insert s log r _ hr ih =>
      obtain ⟨rfl, hlog⟩ := ih
      refine ⟨by rw [ResourceSet.ofList, ResourceSet.ofList, List.foldl_concat], ?_⟩
      simp only [List.mem_append, List.mem_singleton, or_imp, forall_and, forall_eq]
      exact ⟨hlog, r.coherent_of_made hr⟩
  | split h =>
      obtain ⟨hlevels, rfl⟩ := ofRecord_eq_ok_iff.mp h
      refine ⟨(ResourceSet.ofList_resources_ofList _).symm, fun r hr => ?_⟩
      rw [(ResourceSet.resources_ofList_perm _).mem_iff] at hr
      exact Manifests.coherent_resources (Manifests.allObjects_ofValue hlevels) r hr

/-! ## What comes back -/

def manifests (s : ResourceSet) : Manifests :=
  s.groups.map fun group => (group.1, ResourceSet.byKind Resource.contents group.2)

theorem record_eq_toValue (s : ResourceSet) : s.record = (manifests s).toValue := by
  simp only [ResourceSet.record, ResourceSet.group, Manifests.toValue, manifests, List.map_map]
  rfl

theorem manifests_ofList (resources : List Resource) :
    manifests (.ofList resources) =
      (resources.map Resource.component).eraseDups.map fun component =>
        let here := ResourceSet.ofComponent resources component
        (component, (here.map Resource.kind).eraseDups.map fun kind =>
          (kind, (ResourceSet.lastOfNames (ResourceSet.ofKind here kind)).map fun r =>
            (r.name, r.contents))) := by
  simp only [manifests, ResourceSet.groups_ofList_eq, List.map_map, Function.comp_def,
    ResourceSet.byKind_eq]

theorem nodup_keys_manifests (resources : List Resource) :
    (Keyed.keys (manifests (.ofList resources))).Nodup := by
  rw [manifests, Keyed.keys_map]
  exact ResourceSet.nodup_keys_groups resources

theorem allObjects_manifests {resources : List Resource} (h : ∀ r ∈ resources, r.Coherent) :
    (manifests (.ofList resources)).AllObjects := by
  simp only [Manifests.AllObjects, manifests_ofList, List.forall_mem_map]
  intro component _ kind _ r hr
  obtain ⟨hmem, -, -⟩ := ResourceSet.mem_of_mem_lastOfNames hr
  exact (h r hmem).isObject

theorem resources_manifests {resources : List Resource} (h : ∀ r ∈ resources, r.Coherent) :
    (manifests (.ofList resources)).resources = ResourceSet.latest resources := by
  simp only [Manifests.resources_eq, manifests_ofList, ResourceSet.latest, List.flatMap_map,
    List.map_map]
  refine List.flatMap_congr fun component _ => List.flatMap_congr fun kind _ => ?_
  refine map_eq_self fun r hr => ?_
  obtain ⟨hmem, rfl, rfl⟩ := ResourceSet.mem_of_mem_lastOfNames hr
  exact Resource.resource_of_coherent (h r hmem)

theorem ofRecord_record_ofList {resources : List Resource} (h : ∀ r ∈ resources, r.Coherent) :
    ∃ s, ResourceSet.ofRecord (ResourceSet.ofList resources).record = .ok s ∧
      s.resources = ResourceSet.latest resources := by
  have hsplit := Manifests.ofRecord_toValue (allObjects_manifests h)
  rw [← record_eq_toValue] at hsplit
  refine ⟨_, hsplit, ?_⟩
  rw [Manifests.resources_ofList (nodup_keys_manifests resources), resources_manifests h]

/-- A set tells the last resources as well as all that was inserted into it. -/
theorem latest_resources_ofList {resources : List Resource} (h : ∀ r ∈ resources, r.Coherent) :
    ResourceSet.latest (ResourceSet.ofList resources).resources =
      ResourceSet.latest resources := by
  have hkept : ∀ r ∈ (ResourceSet.ofList resources).resources, r.Coherent := fun r hr =>
    h r ((ResourceSet.resources_ofList_perm resources).mem_iff.mp hr)
  rw [← resources_manifests h, ← resources_manifests hkept, ResourceSet.ofList_resources_ofList]

/-- A set that was made by insertions and splitting is written as a record that can be split again.
What comes back is exactly the last resource that was inserted of each component, kind and name, in
the order of the record. Where no two resources agree in all three, these are all resources. -/
theorem ofRecord_record_of_reached {s : ResourceSet} {log : List Resource} (h : Reached s log) :
    ∃ s', ResourceSet.ofRecord s.record = .ok s' ∧
      s'.resources = ResourceSet.latest log ∧
      ((s.resources.map fun r => (r.component, r.kind, r.name)).Nodup →
        s'.resources.Perm s.resources) := by
  obtain ⟨rfl, hlog⟩ := h.eq_ofList
  obtain ⟨s', hsplit, hlatest⟩ := ofRecord_record_ofList hlog
  refine ⟨s', hsplit, hlatest, fun hnodup => ?_⟩
  -- The log is in another order than the set, but both have the same last resources.
  rw [hlatest, ← latest_resources_ofList hlog]
  exact ResourceSet.latest_perm hnodup

def labelledManifest (kind name component : String) (spec : Members) : Value :=
  .object [("apiVersion", .string "v1"), ("kind", .string kind),
    ("metadata", .object [("name", .string name),
      ("labels", .object [(componentLabel, .string component)])]),
    ("spec", .object spec)]

def labelledResource (kind name component : String) (spec : Members) : Resource :=
  ⟨kind, "v1", name, component, labelledManifest kind name component spec⟩

theorem ofValue_labelledManifest (kind name component fallback : String) (spec : Members) :
    Resource.ofValue (labelledManifest kind name component spec) fallback =
      .ok (labelledResource kind name component spec) :=
  Resource.ofValue_eq_ok_iff.mpr ⟨rfl, rfl, rfl, _, rfl, rfl, rfl⟩

theorem made_labelledResource (kind name component : String) (spec : Members) :
    (labelledResource kind name component spec).Made :=
  .ofValue (ofValue_labelledManifest kind name component "" spec)

def interleaved : List Resource :=
  [labelledResource "PersistentVolume" "data" "web" [],
    labelledResource "Service" "store" "db" [],
    labelledResource "Service" "front" "web" [],
    (labelledResource "PersistentVolume" "data" "web" [("claimRef", .object [])]).patch.value]

theorem ofRecord_record_interleaved :
    Reached (.ofList interleaved) interleaved ∧
    ∃ s, ResourceSet.ofRecord (ResourceSet.ofList interleaved).record = .ok s ∧
      s.resources =
        [labelledResource "PersistentVolume" "data" "web" [("claimRef", .object
            [("apiVersion", .string "v1"), ("kind", .string "PersistentVolumeClaim")])],
          labelledResource "Service" "front" "web" [],
          labelledResource "Service" "store" "db" []] ∧
      ∃ s', ResourceSet.ofRecord s.record = .ok s' ∧ s'.resources.Perm s.resources := by
  have hreached : Reached (.ofList interleaved) interleaved :=
    .insert (.insert (.insert (.insert .empty (made_labelledResource ..))
      (made_labelledResource ..)) (made_labelledResource ..)) (.patch (made_labelledResource ..))
  obtain ⟨s, hsplit, hlatest, -⟩ := ofRecord_record_of_reached hreached
  obtain ⟨s', hagain, -, hperm⟩ := ofRecord_record_of_reached (.split hsplit)
  refine ⟨hreached, s, hsplit, hlatest.trans rfl, s', hagain, hperm ?_⟩
  rw [hlatest]
  decide

end ManifestTypes.Manifest
