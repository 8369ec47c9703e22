import ManifestTypes.Proofs.Manifest.Leaves
import ManifestTypes.Proofs.Manifest.Rereading

/-!
# Normalizing the record of a set

A pass over the record of a set goes through the levels of components, kinds and names before it
comes to the manifests. These levels are objects of objects, so no key on them makes a pass change
them, and each manifest is normalized as if it stood alone.
-/

namespace ManifestTypes

/-! ## Objects of objects -/

namespace Value

open Manifest (Fault)

/-- Where all members are objects, each is normalized by itself, whatever its key is. -/
theorem normalized_object {members : List (String × Value)} (h : ∀ m ∈ members, m.2.IsObject) :
    normalized (.object members) =
      Value.object <$> Keyed.traverse (fun _ => normalized) members := by
  have hexpand : members.map (fun m => (m.1, expandMember m.1 m.2)) =
      members.map fun m => (m.1, m.2.expandImages) := by
    refine List.map_congr_left fun m hm => ?_
    obtain ⟨inner, hobject⟩ := h m hm
    rw [hobject, expandMember_of_not_string rfl]
  have hindex : Keyed.traverse indexedMember (members.map fun m => (m.1, m.2.expandImages)) =
      (List.map fun m => (m.1, id m.2)) <$> Keyed.traverse (fun _ => normalized) members := by
    refine Keyed.traverse_map_of_comm (g := fun _ => expandImages) (h := fun _ => id) fun m hm => ?_
    obtain ⟨inner, hobject⟩ := h m hm
    rw [hobject, expandImages_object, indexedMember_of_not_list rfl, ← expandImages_object, id_map]
    rfl
  rw [normalized, expandImages_object, hexpand, indexed_object, hindex]
  simp

/-- A level of objects is passed through to the level below it. -/
theorem normalized_level {α : Type} (inner : α → Value) {step : α → Except Fault α}
    {entries : Keyed String α} (hobject : ∀ a, (inner a).IsObject)
    (hstep : ∀ p ∈ entries, (inner p.2).normalized = inner <$> step p.2) :
    normalized (.object (entries.map fun p => (p.1, inner p.2))) =
      (fun entries => .object (entries.map fun p => (p.1, inner p.2))) <$>
        Keyed.traverse (fun _ => step) entries := by
  have hmembers : ∀ m ∈ entries.map fun p => (p.1, inner p.2), m.2.IsObject := by
    intro m hm
    obtain ⟨p, -, rfl⟩ := List.mem_map.mp hm
    exact hobject p.2
  have hlevel : Keyed.traverse (fun _ => normalized) (entries.map fun p => (p.1, inner p.2)) =
      (List.map fun q => (q.1, inner q.2)) <$> Keyed.traverse (fun _ => step) entries :=
    Keyed.traverse_map_of_comm (f := fun _ => step) (g := fun _ => inner) (h := fun _ => inner)
      hstep
  rw [normalized_object hmembers, hlevel, ← comp_map]
  rfl

end Value

namespace Manifest

namespace Manifests

def traverse (f : Value → Except Fault Value) (ms : Manifests) : Except Fault Manifests :=
  Keyed.traverse (fun _ kinds => Keyed.traverse (fun _ names =>
    Keyed.traverse (fun _ => f) names) kinds) ms

theorem normalized_toValue {ms : Manifests} (h : ms.AllObjects) :
    ms.toValue.normalized = toValue <$> ms.traverse Value.normalized := by
  refine Value.normalized_level (fun kinds : Keyed String (Keyed String Value) =>
    .object (kinds.map fun kind => (kind.1, .object kind.2))) (fun _ => ⟨_, rfl⟩) ?_
  intro component hcomponent
  refine Value.normalized_level Value.object (fun _ => ⟨_, rfl⟩) ?_
  intro kind hkind
  exact Value.normalized_object (h component hcomponent kind hkind)

end Manifests

/-! ## Faults -/

namespace Manifests

/-- The first fault on the way through the manifests. -/
theorem faultOf?_traverse (f : Value → Except Fault Value) (ms : Manifests) :
    faultOf? (ms.traverse f) = (leaves ms.toValue).findSome? fun m => faultOf? (f m.value) := by
  simp only [traverse, Manifest.faultOf?_traverse, leaves_toValue, findSome?_flatMap,
    List.findSome?_map]
  rfl

/-! ## Places -/

/-- The same keys on the three levels, and related manifests below them. -/
def Pointwise (R : Value → Value → Prop) (ms ms' : Manifests) : Prop :=
  Keyed.Related (fun _ => Keyed.Related fun _ => Keyed.Related fun _ => R) ms ms'

theorem traverse_eq_ok_iff {f : Value → Except Fault Value} {ms ms' : Manifests} :
    ms.traverse f = .ok ms' ↔ Pointwise (fun v w => f v = .ok w) ms ms' := by
  simp only [traverse, Keyed.traverse_eq_ok_iff, Pointwise]

theorem placed_pointwise {R : Value → Value → Prop} {ms ms' : Manifests}
    (h : Pointwise R ms ms') :
    List.Forall₂ (fun m m' => m'.level = m.level ∧ m'.path = m.path ∧
      (m.level = .resource → R m.value m'.value)) (placed ms.toValue) (placed ms'.toValue) := by
  rw [placed_toValue, placed_toValue]
  refine List.rel_flatMap h ?_
  rintro ⟨component, kinds⟩ ⟨_, kinds'⟩ ⟨rfl, hkinds⟩
  refine .cons ⟨rfl, rfl, fun hlevel => nomatch hlevel⟩ (List.rel_flatMap hkinds ?_)
  rintro ⟨kind, names⟩ ⟨_, names'⟩ ⟨rfl, hnames⟩
  refine .cons ⟨rfl, rfl, fun hlevel => nomatch hlevel⟩ ?_
  refine List.rel_map ?_ hnames
  rintro ⟨name, v⟩ ⟨_, v'⟩ ⟨rfl, hv⟩
  exact ⟨rfl, rfl, fun _ => hv⟩

theorem resources_pointwise {R : Value → Value → Prop} {S : Resource → Resource → Prop}
    {ms ms' : Manifests} (h : Pointwise R ms ms')
    (hstep : ∀ component kind name v v', R v v' →
      S (resource component kind (name, v)) (resource component kind (name, v'))) :
    List.Forall₂ S ms.resources ms'.resources := by
  rw [resources_eq, resources_eq]
  refine List.rel_flatMap h ?_
  rintro ⟨component, kinds⟩ ⟨_, kinds'⟩ ⟨rfl, hkinds⟩
  refine List.rel_flatMap hkinds ?_
  rintro ⟨kind, names⟩ ⟨_, names'⟩ ⟨rfl, hnames⟩
  refine List.rel_map ?_ hnames
  rintro ⟨name, v⟩ ⟨_, v'⟩ ⟨rfl, hv⟩
  exact hstep component kind name v v' hv

end Manifests

/-! ## Resources -/

/-- The manifest of the resource is normalized, and nothing else of it is changed. It is read from
the manifest again. -/
structure Normalizes (r r' : Resource) : Prop where
  contents : r.contents.normalized = .ok r'.contents
  rest : r' = { r with contents := r'.contents }
  fileName : r'.fileName = r.fileName
  read : Resource.ofValue r'.contents r.component = .ok r'

theorem normalizes_resource {component kind name : String} {v v' : Value}
    (hmade : (Manifests.resource component kind (name, v)).Made) (h : v.normalized = .ok v') :
    Normalizes (Manifests.resource component kind (name, v))
      (Manifests.resource component kind (name, v')) := by
  have hobject : v.IsObject := (Resource.coherent_of_made hmade).isObject
  have hsame : SameIdentity v v' := (sameIdentity_normalized hobject h).2
  have hrest : Manifests.resource component kind (name, v') =
      { Manifests.resource component kind (name, v) with contents := v' } := by
    simp only [Manifests.resource, hsame.apiVersion]
  refine ⟨h, hrest, rfl, ?_⟩
  rw [hrest]
  exact Resource.ofValue_of_sameIdentity (Resource.ofValue_of_made hmade) hsame

theorem normalizes_resources {ms ms' : Manifests} (hmade : ∀ r ∈ ms.resources, r.Made)
    (h : ms.traverse Value.normalized = .ok ms') :
    List.Forall₂ Normalizes ms.resources ms'.resources := by
  have hstep : List.Forall₂ (fun r r' => r.Made → Normalizes r r') ms.resources ms'.resources :=
    Manifests.resources_pointwise (Manifests.traverse_eq_ok_iff.mp h)
      fun component kind name v v' hv hr => normalizes_resource hr hv
  exact ((List.forall₂_and_left _ _).mpr ⟨hmade, hstep⟩).imp fun r r' hr => hr.2 hr.1

theorem allObjects_of_normalizes {ms ms' : Manifests}
    (h : List.Forall₂ Normalizes ms.resources ms'.resources) : ms'.AllObjects := by
  have hobjects : ∀ r' ∈ ms'.resources, r'.contents.IsObject := by
    intro r' hr'
    obtain ⟨r, -, hr⟩ := related_of_mem_right h hr'
    exact (Resource.coherent_ofValue hr.read).isObject
  simpa only [Manifests.AllObjects, Manifests.resources_eq, List.forall_mem_flatMap,
    List.forall_mem_map, Manifests.resource] using hobjects

/-- A member of a record and what it has become. Manifests are normalized, all else keeps its place
only. -/
structure NormalizedAt (m m' : Placed) : Prop where
  level : m'.level = m.level
  path : m'.path = m.path
  value : m.level = .resource → m.value.normalized = .ok m'.value

theorem faultOf?_normalized {resources : List Resource} (h : ∀ r ∈ resources, r.Coherent) :
    faultOf? (ResourceSet.ofList resources).normalized =
      (leaves (ResourceSet.ofList resources).record).findSome? fun m =>
        faultOf? m.value.normalized := by
  change faultOf? (ResourceSet.ofList resources).record.normalized = _
  rw [record_eq_toValue, Manifests.normalized_toValue (allObjects_manifests h),
    ← Manifests.faultOf?_traverse]
  cases (manifests (.ofList resources)).traverse Value.normalized <;> rfl

/-- The record of read and patched resources is normalized exactly if each of its manifests is, and
else fails with the first fault of a manifest. All keys keep their places, and below them stands
what the manifests are normalized to alone. What comes of the record is split into the same
resources, in the same order, and each can be read from its new manifest again. -/
theorem normalized_leaf_by_leaf {resources : List Resource} (h : ∀ r ∈ resources, r.Made) :
    let s := ResourceSet.ofList resources
    ((∃ v, s.normalized = .ok v) ↔
      ∀ leaf ∈ leaves s.record, ∃ w, leaf.value.normalized = .ok w) ∧
    (∀ e, s.normalized = .error e ↔
      ∃ before leaf after, leaves s.record = before ++ leaf :: after ∧
        leaf.value.normalized = .error e ∧
        ∀ m ∈ before, ∃ w, m.value.normalized = .ok w) ∧
    ∀ v, s.normalized = .ok v →
      List.Forall₂ NormalizedAt (placed s.record) (placed v) ∧
      ∃ old new, ResourceSet.ofRecord s.record = .ok old ∧ ResourceSet.ofRecord v = .ok new ∧
        List.Forall₂ Normalizes old.resources new.resources := by
  intro s
  have hcoherent : ∀ r ∈ resources, r.Coherent := fun r hr => Resource.coherent_of_made (h r hr)
  have hfault : faultOf? s.normalized =
      (leaves s.record).findSome? fun m => faultOf? m.value.normalized :=
    faultOf?_normalized hcoherent
  refine ⟨?succeeds, ?fails, ?result⟩
  case succeeds =>
    rw [← faultOf?_eq_none_iff, hfault, List.findSome?_eq_none_iff]
    simp only [faultOf?_eq_none_iff]
  case fails =>
    intro e
    rw [← faultOf?_eq_some_iff, hfault, List.findSome?_eq_some_iff]
    simp only [faultOf?_eq_none_iff, faultOf?_eq_some_iff]
  case result =>
    intro v hv
    have hrecord : s.record = (manifests s).toValue := record_eq_toValue s
    have hobjects : (manifests s).AllObjects := allObjects_manifests hcoherent
    have hlatest : (manifests s).resources = ResourceSet.latest resources :=
      resources_manifests hcoherent
    change s.record.normalized = .ok v at hv
    rw [hrecord, Manifests.normalized_toValue hobjects] at hv
    obtain ⟨ms, hms, rfl⟩ := map_eq_ok_iff.mp hv
    have hmade : ∀ r ∈ (manifests s).resources, r.Made := by
      rw [hlatest]
      exact fun r hr => h r (ResourceSet.mem_of_mem_latest hr)
    have hresources : List.Forall₂ Normalizes (manifests s).resources ms.resources :=
      normalizes_resources hmade hms
    have hpointwise := Manifests.traverse_eq_ok_iff.mp hms
    have hkeys : (Keyed.keys ms).Nodup := by
      rw [← hpointwise.keys_eq]
      exact nodup_keys_manifests resources
    rw [hrecord]
    refine ⟨(Manifests.placed_pointwise hpointwise).imp fun m m' hm => ⟨hm.1, hm.2.1, hm.2.2⟩, ?_⟩
    refine ⟨_, _, Manifests.ofRecord_toValue hobjects,
      Manifests.ofRecord_toValue (allObjects_of_normalizes hresources), ?_⟩
    rwa [Manifests.resources_ofList (nodup_keys_manifests resources),
      Manifests.resources_ofList hkeys]

def calledLikeKeys : List Resource :=
  [labelledResource "Deployment" "containers" "image" [("containers", .list
      [.object [("name", .string "web"), ("image", .string "host:80/web:1")]])],
    (labelledResource "PersistentVolume" "image" "env" [("claimRef", .object [])]).patch.value]

def withoutPortName : Resource :=
  labelledResource "Service" "name" "image" [("ports", .list
    [.object [("name", .string "http")], .object []])]

theorem normalized_calledLikeKeys :
    (∀ r ∈ calledLikeKeys ++ [withoutPortName], r.Made) ∧
    (∃ v old new, (ResourceSet.ofList calledLikeKeys).normalized = .ok v ∧
      List.Forall₂ NormalizedAt (placed (ResourceSet.ofList calledLikeKeys).record) (placed v) ∧
      ResourceSet.ofRecord (ResourceSet.ofList calledLikeKeys).record = .ok old ∧
      ResourceSet.ofRecord v = .ok new ∧
      List.Forall₂ Normalizes old.resources new.resources) ∧
    (ResourceSet.ofList (calledLikeKeys ++ [withoutPortName])).normalized =
      .error (.mixedList "ports") := by
  have hmade : ∀ r ∈ calledLikeKeys ++ [withoutPortName], r.Made := by
    simp only [calledLikeKeys, List.cons_append, List.nil_append, List.forall_mem_cons]
    exact ⟨made_labelledResource .., .patch (made_labelledResource ..), made_labelledResource ..,
      fun r hr => nomatch hr⟩
  refine ⟨hmade, ?normalized, ?mixed⟩
  case normalized =>
    have hkept : ∀ r ∈ calledLikeKeys, r.Made := fun r hr => hmade r (List.mem_append_left _ hr)
    obtain ⟨hsucceeds, -, hresult⟩ := normalized_leaf_by_leaf hkept
    have hleaves : leaves (ResourceSet.ofList calledLikeKeys).record =
        calledLikeKeys.map fun r => ⟨.resource, [r.component, r.kind, r.name], r.contents⟩ := rfl
    obtain ⟨v, hv⟩ := hsucceeds.mpr (by
      rw [hleaves, List.forall_mem_map]
      simp only [calledLikeKeys, List.forall_mem_cons]
      exact ⟨⟨_, rfl⟩, ⟨_, rfl⟩, fun r hr => nomatch hr⟩)
    obtain ⟨hplaced, old, new, hold, hnew, hresources⟩ := hresult v hv
    exact ⟨v, old, new, hv, hplaced, hold, hnew, hresources⟩
  case mixed =>
    obtain ⟨-, hfails, -⟩ := normalized_leaf_by_leaf hmade
    refine (hfails _).mpr ⟨[_], _, [_], rfl, rfl, ?_⟩
    simp only [List.forall_mem_cons]
    exact ⟨⟨_, rfl⟩, fun r hr => nomatch hr⟩

end Manifest

end ManifestTypes
