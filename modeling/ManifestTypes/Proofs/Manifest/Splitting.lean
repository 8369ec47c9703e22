import ManifestTypes.Proofs.Attempt.Faults
import ManifestTypes.Proofs.Manifest.Grouping
import ManifestTypes.Proofs.Value.Objects

/-!
# Splitting a record of components

A record can be split if it is an object down to the manifests. The resources then make up the
record again, without the kinds and components that were empty. Else the fault is at the first
member that is no object, where each member is looked at before those inside it and after all that
stands before it.
-/

namespace ManifestTypes.Manifest

section Lists

variable {ε α β : Type}

theorem map_eq_self {f : α → α} {items : List α} (h : ∀ item ∈ items, f item = item) :
    items.map f = items := by
  rw [List.map_congr_left h, List.map_id']

theorem mapM_eq_ok {f : α → Except ε β} {g : α → β} {items : List α}
    (h : ∀ item ∈ items, f item = .ok (g item)) : items.mapM f = .ok (items.map g) := by
  induction items with
  | nil => rfl
  | cons item rest ih =>
      rw [List.mapM_cons, h item (by simp), ih fun i hi => h i (by simp [hi])]
      rfl

end Lists

/-! ## What has to be an object -/

/-- A member of a record of components, of a component or of a kind, with the keys that lead to
it. -/
structure Placed where
  level : Level
  path : List String
  value : Value

def placedResource (component kind : String) (resource : String × Value) : Placed :=
  ⟨.resource, [component, kind, resource.1], resource.2⟩

def placedKind (component : String) (kind : String × Value) : List Placed :=
  ⟨.kind, [component, kind.1], kind.2⟩ ::
    kind.2.members.map (placedResource component kind.1)

def placedComponent (component : String × Value) : List Placed :=
  ⟨.component, [component.1], component.2⟩ ::
    component.2.members.flatMap (placedKind component.1)

/-- The members of the three levels in depth-first order, each before those inside. -/
def placed (v : Value) : List Placed :=
  v.members.flatMap placedComponent

/-- The first of the members that is no object. -/
def misfit? (members : List Placed) : Option Placed :=
  members.find? fun m => !m.value.isObject

def Placed.fault (m : Placed) : Fault :=
  .notRecord m.level m.path

theorem misfit?_cons {m : Placed} (h : m.value.isObject = true) (rest : List Placed) :
    misfit? (m :: rest) = misfit? rest := by
  simp [misfit?, h]

/-- Where each result fails with the first misfit of its own, so do all of them together. -/
theorem faultOf?_mapM_placed {α β : Type} {f : α → Except Fault β} {members : α → List Placed}
    (h : ∀ item, faultOf? (f item) = (misfit? (members item)).map Placed.fault)
    (items : List α) :
    faultOf? (items.mapM f) = (misfit? (items.flatMap members)).map Placed.fault := by
  have hfirst : misfit? (items.flatMap members) = items.findSome? fun item =>
      misfit? (members item) := List.find?_flatMap
  rw [faultOf?_mapM, hfirst, List.map_findSome?]
  congr 1
  funext item
  exact h item

namespace ResourceSet

theorem faultOf?_resourceOf (component kind : String) (entry : String × Value) :
    faultOf? (resourceOf component kind entry) =
      (misfit? [placedResource component kind entry]).map Placed.fault := by
  obtain ⟨name, v⟩ := entry
  cases v <;> rfl

theorem faultOf?_resourcesOfKind (component : String) (entry : String × Value) :
    faultOf? (resourcesOfKind component entry) =
      (misfit? (placedKind component entry)).map Placed.fault := by
  obtain ⟨kind, v⟩ := entry
  cases v with
  | object names =>
      rw [placedKind, misfit?_cons (by simp), List.map_eq_flatMap]
      exact faultOf?_mapM_placed (faultOf?_resourceOf component kind) names
  | _ => rfl

theorem faultOf?_resourcesOfComponent (entry : String × Value) :
    faultOf? (resourcesOfComponent entry) =
      (misfit? (placedComponent entry)).map Placed.fault := by
  obtain ⟨component, v⟩ := entry
  cases v with
  | object kinds =>
      rw [placedComponent, misfit?_cons (by simp), resourcesOfComponent, faultOf?_bind_ok]
      exact faultOf?_mapM_placed (faultOf?_resourcesOfKind component) kinds
  | _ => rfl

/-- Splitting fails at the first misfit. -/
theorem faultOf?_ofRecord (v : Value) :
    faultOf? (ofRecord v) =
      if v.isObject then (misfit? (placed v)).map Placed.fault else some .notComponents := by
  cases v with
  | object components =>
      rw [ofRecord, faultOf?_bind_ok, if_pos (Value.isObject_object components)]
      exact faultOf?_mapM_placed faultOf?_resourcesOfComponent components
  | _ => rfl

end ResourceSet

/-! ## Records that are objects down to the manifests -/

/-- A record of components without its empty kinds, and then without its empty components. -/
def pruned (v : Value) : Value :=
  v.mapMembers fun components => Value.withoutEmpty <| components.map fun component =>
    (component.1, component.2.mapMembers Value.withoutEmpty)

/-- How many manifests there are on the last of the three levels. -/
def countResources (v : Value) : Nat :=
  (placed v).countP fun m => m.level = .resource

/-- An object of components, which are objects of kinds, which are objects of manifests, which are
objects. -/
def ThreeLevels (v : Value) : Prop :=
  v.ObjectOf (Value.ObjectOf (Value.ObjectOf Value.IsObject))

theorem threeLevels_iff {v : Value} :
    ThreeLevels v ↔ v.IsObject ∧ misfit? (placed v) = none := by
  simp only [ThreeLevels, Value.objectOf_iff, misfit?, List.find?_eq_none, placed,
    placedComponent, placedKind, placedResource, List.forall_mem_flatMap, List.forall_mem_cons,
    List.forall_mem_map, Bool.not_eq_true', Bool.not_eq_false, Value.isObject_eq_true_iff]

abbrev Manifests :=
  Keyed String (Keyed String (Keyed String Value))

namespace Manifests

def toValue (ms : Manifests) : Value :=
  .object <| ms.map fun component =>
    (component.1, .object <| component.2.map fun kind => (kind.1, .object kind.2))

/-- What stands on the three levels of a value. -/
def ofValue (v : Value) : Manifests :=
  v.members.map fun component =>
    (component.1, component.2.members.map fun kind => (kind.1, kind.2.members))

def resource (component kind : String) (entry : String × Value) : Resource :=
  ⟨kind, (entry.2.getString? "apiVersion").getD "", entry.1, component, entry.2⟩

def kindBlocks (component : String) (kinds : Keyed String (Keyed String Value)) :
    Keyed String (List Resource) :=
  kinds.map fun kind => (kind.1, kind.2.map (resource component kind.1))

def blocks (ms : Manifests) : Keyed String (List Resource) :=
  ms.map fun component => (component.1, (kindBlocks component.1 component.2).flatMap Prod.snd)

def resources (ms : Manifests) : List Resource :=
  ms.blocks.flatMap Prod.snd

theorem resources_eq (ms : Manifests) :
    ms.resources = ms.flatMap fun component => component.2.flatMap fun kind =>
      kind.2.map (resource component.1 kind.1) := by
  simp only [resources, blocks, kindBlocks, List.flatMap_map]

/-- No key stands twice on a level. -/
def Distinct (ms : Manifests) : Prop :=
  (Keyed.keys ms).Nodup ∧ ∀ component ∈ ms, (Keyed.keys component.2).Nodup ∧
    ∀ kind ∈ component.2, (Keyed.keys kind.2).Nodup

/-- All manifests are objects. -/
def AllObjects (ms : Manifests) : Prop :=
  ∀ component ∈ ms, ∀ kind ∈ component.2, ∀ entry ∈ kind.2, entry.2.IsObject

theorem toValue_ofValue {v : Value} (h : ThreeLevels v) : (ofValue v).toValue = v := by
  obtain ⟨hv, hcomponents⟩ := Value.objectOf_iff.mp h
  rw [toValue, ofValue, List.map_map, map_eq_self, Value.object_members hv]
  intro component hcomponent
  obtain ⟨hcomponent, hkinds⟩ := Value.objectOf_iff.mp (hcomponents component hcomponent)
  simp only [Function.comp_apply, List.map_map]
  rw [map_eq_self, Value.object_members hcomponent]
  intro kind hkind
  simp only [Function.comp_apply]
  rw [Value.object_members (Value.objectOf_iff.mp (hkinds kind hkind)).1]

theorem resourceOf_eq_ok {component kind : String} {entry : String × Value}
    (h : entry.2.IsObject) :
    ResourceSet.resourceOf component kind entry = .ok (resource component kind entry) := by
  obtain ⟨name, v⟩ := entry
  obtain ⟨members, rfl⟩ := h
  rfl

theorem resourcesOfKind_eq_ok {component : String} {kind : String × Keyed String Value}
    (h : ∀ entry ∈ kind.2, entry.2.IsObject) :
    ResourceSet.resourcesOfKind component (kind.1, .object kind.2) =
      .ok (kind.2.map (resource component kind.1)) :=
  mapM_eq_ok fun entry hentry => resourceOf_eq_ok (h entry hentry)

theorem resourcesOfComponent_eq_ok
    {component : String × Keyed String (Keyed String Value)}
    (h : ∀ kind ∈ component.2, ∀ entry ∈ kind.2, entry.2.IsObject) :
    ResourceSet.resourcesOfComponent
        (component.1, .object <| component.2.map fun kind => (kind.1, .object kind.2)) =
      .ok ((kindBlocks component.1 component.2).flatMap Prod.snd) := by
  have hgroups : (component.2.map fun kind => (kind.1, Value.object kind.2)).mapM
      (ResourceSet.resourcesOfKind component.1) =
        .ok (component.2.map fun kind => kind.2.map (resource component.1 kind.1)) := by
    rw [List.mapM_map]
    exact mapM_eq_ok fun kind hkind => resourcesOfKind_eq_ok (h kind hkind)
  simp only [ResourceSet.resourcesOfComponent, hgroups]
  rw [kindBlocks, List.flatMap_map, List.flatMap_def]
  rfl

/-- The manifests are split in their order. -/
theorem ofRecord_toValue {ms : Manifests} (h : ms.AllObjects) :
    ResourceSet.ofRecord ms.toValue = .ok (.ofList ms.resources) := by
  have hgroups : (ms.map fun component => (component.1, Value.object <|
      component.2.map fun kind => (kind.1, .object kind.2))).mapM
        ResourceSet.resourcesOfComponent =
      .ok (ms.map fun component => (kindBlocks component.1 component.2).flatMap Prod.snd) := by
    rw [List.mapM_map]
    exact mapM_eq_ok fun component hcomponent =>
      resourcesOfComponent_eq_ok (h component hcomponent)
  simp only [toValue, ResourceSet.ofRecord, hgroups]
  rw [resources, blocks, List.flatMap_map, List.flatMap_def]
  rfl

theorem distinct_ofValue {v : Value} (h : v.Distinct) : (ofValue v).Distinct := by
  obtain ⟨hkeys, hcomponents⟩ := Value.distinct_members h
  refine ⟨by rwa [ofValue, Keyed.keys_map], ?_⟩
  simp only [ofValue, List.forall_mem_map]
  intro component hcomponent
  obtain ⟨hkeys, hkinds⟩ := Value.distinct_members (hcomponents component hcomponent)
  refine ⟨by rwa [Keyed.keys_map], fun kind hkind => ?_⟩
  exact (Value.distinct_members (hkinds kind hkind)).1

theorem allObjects_ofValue {v : Value} (h : ThreeLevels v) : (ofValue v).AllObjects := by
  simp only [AllObjects, ofValue, List.forall_mem_map]
  intro component hcomponent kind hkind
  have hkinds := (Value.objectOf_iff.mp h).2 component hcomponent
  have hnames := (Value.objectOf_iff.mp hkinds).2 kind hkind
  exact (Value.objectOf_iff.mp hnames).2

/-- Without the kinds that hold nothing and the components that hold no other kind. -/
def pruned (ms : Manifests) : Manifests :=
  (ms.map fun component => (component.1, component.2.filter fun kind => !kind.2.isEmpty)).filter
    fun component => !component.2.isEmpty

theorem keys_kindBlocks (component : String) (kinds : Keyed String (Keyed String Value)) :
    Keyed.keys (kindBlocks component kinds) = Keyed.keys kinds :=
  Keyed.keys_map kinds _

theorem kind_of_mem_kindBlocks {component : String} {kinds : Keyed String (Keyed String Value)} :
    ∀ b ∈ kindBlocks component kinds, ∀ r ∈ b.2, r.kind = b.1 ∧ r.component = component := by
  intro b hb r hr
  obtain ⟨kind, -, rfl⟩ := List.mem_map.mp hb
  obtain ⟨entry, -, rfl⟩ := List.mem_map.mp hr
  exact ⟨rfl, rfl⟩

theorem keys_blocks (ms : Manifests) : Keyed.keys ms.blocks = Keyed.keys ms :=
  Keyed.keys_map ms _

theorem component_of_mem_blocks {ms : Manifests} :
    ∀ b ∈ ms.blocks, ∀ r ∈ b.2, r.component = b.1 := by
  intro b hb r hr
  obtain ⟨component, -, rfl⟩ := List.mem_map.mp hb
  obtain ⟨block, hblock, hr⟩ := List.mem_flatMap.mp hr
  exact (kind_of_mem_kindBlocks block hblock r hr).2

/-- The set keeps the resources as they come. -/
theorem resources_ofList {ms : Manifests} (h : (Keyed.keys ms).Nodup) :
    (ResourceSet.ofList ms.resources).resources = ms.resources :=
  ResourceSet.resources_ofList_blocks (by rwa [keys_blocks]) component_of_mem_blocks

theorem byKind_kindBlocks (component : String) {kinds : Keyed String (Keyed String Value)}
    (hkinds : (Keyed.keys kinds).Nodup) (hnames : ∀ kind ∈ kinds, (Keyed.keys kind.2).Nodup) :
    ResourceSet.byKind Resource.contents ((kindBlocks component kinds).flatMap Prod.snd) =
      kinds.filter fun kind => !kind.2.isEmpty := by
  rw [ResourceSet.byKind_blocks _ (by rwa [keys_kindBlocks])
    fun b hb r hr => (kind_of_mem_kindBlocks b hb r hr).1]
  simp only [kindBlocks, List.filter_map, List.map_map, Function.comp_def, List.isEmpty_map,
    resource, List.map_id']
  refine map_eq_self fun kind hkind => ?_
  rw [Keyed.ofList_of_nodup (hnames kind (List.mem_filter.mp hkind).1)]

theorem isEmpty_kindBlocks (component : String) (kinds : Keyed String (Keyed String Value)) :
    ((kindBlocks component kinds).flatMap Prod.snd).isEmpty =
      (kinds.filter fun kind => !kind.2.isEmpty).isEmpty := by
  induction kinds with
  | nil => rfl
  | cons kind rest ih =>
      obtain ⟨k, names⟩ := kind
      cases names with
      | nil => simpa [kindBlocks] using ih
      | cons => simp [kindBlocks]

/-- The record of the resources holds what the manifests hold. -/
theorem record_ofList_resources {ms : Manifests} (h : ms.Distinct) :
    (ResourceSet.ofList ms.resources).record = ms.pruned.toValue := by
  have hkeys : (Keyed.keys ms.blocks).Nodup := by
    rw [keys_blocks]
    exact h.1
  rw [ResourceSet.record, ResourceSet.group, resources,
    ResourceSet.groups_ofList_blocks hkeys component_of_mem_blocks]
  simp only [blocks, pruned, toValue, List.filter_map, List.map_map, Function.comp_def,
    isEmpty_kindBlocks]
  congr 1
  refine List.map_congr_left fun component hcomponent => ?_
  obtain ⟨hkinds, hnames⟩ := h.2 component (List.mem_filter.mp hcomponent).1
  rw [byKind_kindBlocks component.1 hkinds hnames]

theorem pruned_toValue (ms : Manifests) : Manifest.pruned ms.toValue = ms.pruned.toValue := by
  simp only [Manifest.pruned, toValue, pruned, Value.mapMembers, Value.withoutEmpty, List.map_map,
    List.filter_map, Function.comp_def, Value.isEmptyObject_object, List.isEmpty_map]

theorem countResources_toValue (ms : Manifests) :
    countResources ms.toValue = ms.resources.length := by
  simp [countResources, placed, placedComponent, placedKind, placedResource, toValue, resources,
    blocks, kindBlocks, List.countP_flatMap, List.length_flatMap, List.flatMap_map,
    Function.comp_def, List.countP_map]

end Manifests

/-- What a record that is an object down to the manifests is split into. -/
theorem ofRecord_eq_ok {v : Value} (h : ThreeLevels v) :
    ResourceSet.ofRecord v = .ok (.ofList (Manifests.ofValue v).resources) := by
  have hsplit := Manifests.ofRecord_toValue (Manifests.allObjects_ofValue h)
  rwa [Manifests.toValue_ofValue h] at hsplit

theorem ofRecord_eq_ok_iff {v : Value} {s : ResourceSet} :
    ResourceSet.ofRecord v = .ok s ↔
      ThreeLevels v ∧ s = .ofList (Manifests.ofValue v).resources := by
  constructor
  · intro hsplit
    have hnone : faultOf? (ResourceSet.ofRecord v) = none := faultOf?_eq_none_iff.mpr ⟨s, hsplit⟩
    rw [ResourceSet.faultOf?_ofRecord] at hnone
    split at hnone
    · next hobject =>
        have hlevels : ThreeLevels v := threeLevels_iff.mpr
          ⟨Value.isObject_eq_true_iff.mp hobject, Option.map_eq_none_iff.mp hnone⟩
        rw [ofRecord_eq_ok hlevels] at hsplit
        exact ⟨hlevels, (Except.ok.inj hsplit).symm⟩
    · cases hnone
  · rintro ⟨hlevels, rfl⟩
    exact ofRecord_eq_ok hlevels

theorem ofRecord_eq_error_iff {v : Value} {e : Fault} :
    ResourceSet.ofRecord v = .error e ↔
      ¬ v.IsObject ∧ e = .notComponents ∨
        ∃ m, v.IsObject ∧ misfit? (placed v) = some m ∧ e = .notRecord m.level m.path := by
  rw [← faultOf?_eq_some_iff, ResourceSet.faultOf?_ofRecord, ← Value.isObject_eq_true_iff]
  split
  · next hobject => cases misfit? (placed v) <;> simp [hobject, Placed.fault, eq_comm]
  · next hobject => simp [hobject, eq_comm]

/-- A record of components, in which no object has a key twice, is split exactly if it is an object
down to the manifests. The set then makes up the record again, without what was empty, and has one
resource for each manifest. Else the fault is at the first member in depth-first order that should
be an object, and its message has the keys that lead there. -/
theorem ofRecord_exact {v : Value} (h : v.Distinct) :
    ((∃ s, ResourceSet.ofRecord v = .ok s) ↔ ThreeLevels v) ∧
    (∀ s, ResourceSet.ofRecord v = .ok s → s.record = pruned v ∧ s.size = countResources v) ∧
    (∀ e, ResourceSet.ofRecord v = .error e ↔
      ¬ v.IsObject ∧ e = .notComponents ∨
        ∃ m, v.IsObject ∧ misfit? (placed v) = some m ∧ e = .notRecord m.level m.path) ∧
    ∀ m, v.IsObject → misfit? (placed v) = some m →
      (ResourceSet.ofRecord v).mapError Fault.message =
        .error (m.level.name ++ " value for " ++ ".".intercalate m.path ++ " is not a record") := by
  refine ⟨?accepted, ?split, fun e => ofRecord_eq_error_iff, ?message⟩
  case accepted =>
    simp only [ofRecord_eq_ok_iff]
    exact ⟨fun ⟨_, hlevels, _⟩ => hlevels, fun hlevels => ⟨_, hlevels, rfl⟩⟩
  case split =>
    intro s hsplit
    obtain ⟨hlevels, rfl⟩ := ofRecord_eq_ok_iff.mp hsplit
    have hdistinct : (Manifests.ofValue v).Distinct := Manifests.distinct_ofValue h
    refine ⟨?_, ?_⟩
    · rw [Manifests.record_ofList_resources hdistinct, ← Manifests.pruned_toValue,
        Manifests.toValue_ofValue hlevels]
    · rw [ResourceSet.size, Manifests.resources_ofList hdistinct.1,
        ← Manifests.countResources_toValue, Manifests.toValue_ofValue hlevels]
  case message =>
    intro m hobject hmisfit
    rw [ofRecord_eq_error_iff.mpr (.inr ⟨m, hobject, hmisfit, rfl⟩)]
    rfl

def recordWithGaps : Value :=
  .object [
    ("web", .object [("Deployment", .object []),
      ("Service", .object [("front", .object [("apiVersion", .string "v1")]),
        ("back", .object [])])]),
    ("idle", .object [("Job", .object [])]),
    ("db", .object [("Service", .object [("store", .object [])])])]

def recordWithMisfits : Value :=
  .object [
    ("web", .object [("Service", .object [("front", .object []), ("back", .integer 1)])]),
    ("db", .string "text")]

theorem ofRecord_with_gaps_and_misfits :
    (recordWithGaps.Distinct ∧
      ∃ s, ResourceSet.ofRecord recordWithGaps = .ok s ∧
        s.record = .object [
          ("web", .object [
            ("Service", .object [("front", .object [("apiVersion", .string "v1")]),
              ("back", .object [])])]),
          ("db", .object [("Service", .object [("store", .object [])])])] ∧
        s.size = 3) ∧
    recordWithMisfits.Distinct ∧
      ResourceSet.ofRecord recordWithMisfits =
        .error (.notRecord .resource ["web", "Service", "back"]) ∧
      (ResourceSet.ofRecord recordWithMisfits).mapError Fault.message =
        .error "resource value for web.Service.back is not a record" := by
  refine ⟨?gaps, ?misfits⟩
  case gaps =>
    have hdistinct : recordWithGaps.Distinct := by
      simp [recordWithGaps, Value.Distinct, Value.DistinctEach, Keyed.keys]
    obtain ⟨haccepted, hsplit, -⟩ := ofRecord_exact hdistinct
    obtain ⟨s, hs⟩ := haccepted.mpr (threeLevels_iff.mpr ⟨⟨_, rfl⟩, rfl⟩)
    obtain ⟨hrecord, hsize⟩ := hsplit s hs
    exact ⟨hdistinct, s, hs, hrecord, hsize⟩
  case misfits =>
    have hdistinct : recordWithMisfits.Distinct := by
      simp [recordWithMisfits, Value.Distinct, Value.DistinctEach, Keyed.keys]
    obtain ⟨-, -, hfault, hmessage⟩ := ofRecord_exact hdistinct
    exact ⟨hdistinct, (hfault _).mpr (.inr ⟨_, ⟨_, rfl⟩, rfl, rfl⟩),
      hmessage _ ⟨_, rfl⟩ rfl⟩

end ManifestTypes.Manifest
