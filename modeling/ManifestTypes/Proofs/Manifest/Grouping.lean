import Mathlib.Data.List.Nodup
import Mathlib.Data.List.Perm.Basic
import ManifestTypes.Manifest.ResourceSet
import ManifestTypes.Proofs.Keyed.Gathering

/-!
# Grouping resources

A set made of a list of resources keeps the components in the order in which they come, and the
resources of each component in theirs. The record does the same with kinds and names, where the
last resource of a name counts.
-/

namespace ManifestTypes

theorem Keyed.flatMap_filter_isEmpty {κ α : Type} (blocks : Keyed κ (List α)) :
    (blocks.filter fun b => !b.2.isEmpty).flatMap Prod.snd = blocks.flatMap Prod.snd := by
  induction blocks with
  | nil => rfl
  | cons b rest ih =>
      obtain ⟨k, block⟩ := b
      cases block <;> simp [ih]

namespace Manifest.ResourceSet

def ofComponent (resources : List Resource) (component : String) : List Resource :=
  resources.filter (Resource.component · == component)

def ofKind (resources : List Resource) (kind : String) : List Resource :=
  resources.filter (Resource.kind · == kind)

def lastOfNames (resources : List Resource) : List Resource :=
  (resources.map Resource.name).eraseDups.filterMap fun name =>
    (resources.filter (Resource.name · == name)).getLast?

theorem mem_ofKind_ofComponent {resources : List Resource} {component kind : String}
    {r : Resource} : r ∈ ofKind (ofComponent resources component) kind ↔
      r ∈ resources ∧ r.component = component ∧ r.kind = kind := by
  simp only [ofKind, ofComponent, List.mem_filter, beq_iff_eq, and_assoc]

theorem mem_of_mem_lastOfNames {resources : List Resource} {component kind : String}
    {r : Resource} (h : r ∈ lastOfNames (ofKind (ofComponent resources component) kind)) :
    r ∈ resources ∧ r.component = component ∧ r.kind = kind := by
  obtain ⟨name, -, hlast⟩ := List.mem_filterMap.mp h
  exact mem_ofKind_ofComponent.mp (List.mem_filter.mp (List.mem_of_getLast? hlast)).1

/-! ## Groups in order of their first resources -/

theorem groups_ofList (resources : List Resource) :
    (ofList resources).groups =
      Keyed.gather Resource.component (fun group r => group.getD [] ++ [r]) resources :=
  (List.foldl_hom ResourceSet.groups fun _ _ => rfl).symm

theorem byKind_eq_gather (leaf : Resource → Value) (resources : List Resource) :
    byKind leaf resources =
      Keyed.gather Resource.kind
        (fun names r => Keyed.insert (names.getD []) r.name (leaf r)) resources := rfl

/-- One group for each component, in the order of their first resources. -/
theorem groups_ofList_eq (resources : List Resource) :
    (ofList resources).groups =
      (resources.map Resource.component).eraseDups.map fun component =>
        (component, ofComponent resources component) := by
  rw [groups_ofList, Keyed.gather_lists]
  rfl

/-- The values of the last resources of all names, by kind. -/
theorem byKind_eq (leaf : Resource → Value) (resources : List Resource) :
    byKind leaf resources =
      (resources.map Resource.kind).eraseDups.map fun kind =>
        (kind, (lastOfNames (ofKind resources kind)).map fun r => (r.name, leaf r)) := by
  rw [byKind_eq_gather, Keyed.gather_getD Resource.kind fun names r =>
    Keyed.insert names r.name (leaf r)]
  refine List.map_congr_left fun kind _ => ?_
  have hnames : (ofKind resources kind).foldl
      (fun names r => Keyed.insert names r.name (leaf r)) [] =
        Keyed.gather Resource.name (fun _ r => leaf r) (ofKind resources kind) := by
    simp only [Keyed.gather, Keyed.insert_eq_upsert]
  change (kind, (ofKind resources kind).foldl _ []) = _
  rw [hnames, Keyed.gather_last, lastOfNames, List.map_filterMap]
  congr 1
  refine List.filterMap_congr fun name _ => Option.map_congr fun r hr => ?_
  rw [beq_iff_eq.mp (List.mem_filter.mp (List.mem_of_getLast? hr)).2]

/-- Grouping only reorders the resources. -/
theorem resources_ofList_perm (resources : List Resource) :
    (ofList resources).resources.Perm resources := by
  rw [ResourceSet.resources, groups_ofList_eq, List.flatMap_map]
  exact Keyed.flatMap_filter_perm Resource.component resources

/-! ## The last resources -/

/-- The last resource of each component, kind and name. The components come in the order of their
first resources, the kinds of each component in the order of their first resources in it, and the
names in the order of their first resources of that component and kind. -/
def latest (resources : List Resource) : List Resource :=
  (resources.map Resource.component).eraseDups.flatMap fun component =>
    let here := ofComponent resources component
    (here.map Resource.kind).eraseDups.flatMap fun kind => lastOfNames (ofKind here kind)

theorem mem_of_mem_latest {resources : List Resource} {r : Resource} (h : r ∈ latest resources) :
    r ∈ resources := by
  obtain ⟨component, -, h⟩ := List.mem_flatMap.mp h
  obtain ⟨kind, -, h⟩ := List.mem_flatMap.mp h
  exact (mem_of_mem_lastOfNames h).1

theorem lastOfNames_of_nodup {resources : List Resource}
    (h : (resources.map Resource.name).Nodup) : lastOfNames resources = resources := by
  have hkeys : (Keyed.keys (resources.map fun r => (r.name, r))).Nodup := by
    simpa [Keyed.keys, Function.comp_def] using h
  have hpairs := Keyed.ofList_of_nodup hkeys
  rw [Keyed.ofList_map_eq_gather, Keyed.gather_last] at hpairs
  simpa [lastOfNames, List.map_filterMap, Function.comp_def] using
    congrArg (List.map Prod.snd) hpairs

/-- Where no two resources agree in component, kind and name, none is left out. -/
theorem latest_perm {resources : List Resource}
    (h : (resources.map fun r => (r.component, r.kind, r.name)).Nodup) :
    (latest resources).Perm resources := by
  have hnames (component kind : String) :
      ((ofKind (ofComponent resources component) kind).map Resource.name).Nodup := by
    refine List.Nodup.of_map (fun name => (component, kind, name)) ?_
    rw [List.map_map]
    have hsame : (ofKind (ofComponent resources component) kind).map
        ((fun name => (component, kind, name)) ∘ Resource.name) =
          (ofKind (ofComponent resources component) kind).map fun r =>
            (r.component, r.kind, r.name) := by
      refine List.map_congr_left fun r hr => ?_
      obtain ⟨-, rfl, rfl⟩ := mem_ofKind_ofComponent.mp hr
      rfl
    rw [hsame]
    exact h.sublist ((List.filter_sublist.trans List.filter_sublist).map _)
  simp only [latest, lastOfNames_of_nodup (hnames _ _)]
  refine (List.Perm.flatMap_left _ fun component _ => ?_).trans
    (Keyed.flatMap_filter_perm Resource.component resources)
  exact Keyed.flatMap_filter_perm Resource.kind (ofComponent resources component)

/-! ## Resources that come in blocks -/

/-- Resources that come component by component are grouped as they come. -/
theorem groups_ofList_blocks {blocks : Keyed String (List Resource)}
    (hkeys : (Keyed.keys blocks).Nodup) (hblocks : ∀ b ∈ blocks, ∀ r ∈ b.2, r.component = b.1) :
    (ofList (blocks.flatMap Prod.snd)).groups = blocks.filter fun b => !b.2.isEmpty := by
  rw [groups_ofList,
    Keyed.gather_blocks_getD _ (fun group r => group ++ [r]) [] hkeys hblocks]
  simp only [Keyed.foldl_concat, List.map_id']

theorem resources_ofList_blocks {blocks : Keyed String (List Resource)}
    (hkeys : (Keyed.keys blocks).Nodup) (hblocks : ∀ b ∈ blocks, ∀ r ∈ b.2, r.component = b.1) :
    (ofList (blocks.flatMap Prod.snd)).resources = blocks.flatMap Prod.snd := by
  rw [resources, groups_ofList_blocks hkeys hblocks, Keyed.flatMap_filter_isEmpty]

theorem nodup_keys_groups (resources : List Resource) :
    (Keyed.keys (ofList resources).groups).Nodup := by
  rw [groups_ofList]
  exact Keyed.nodup_keys_gather _ _ _

/-- A set is made again of its resources. -/
theorem ofList_resources_ofList (resources : List Resource) :
    ofList (ofList resources).resources = ofList resources := by
  have hgroups : ∀ b ∈ (ofList resources).groups, (∀ r ∈ b.2, r.component = b.1) ∧ b.2 ≠ [] := by
    rw [groups_ofList_eq]
    intro b hb
    obtain ⟨component, hcomponent, rfl⟩ := List.mem_map.mp hb
    obtain ⟨r, hr, rfl⟩ := List.mem_map.mp (List.mem_eraseDups.mp hcomponent)
    refine ⟨fun r' hr' => beq_iff_eq.mp (List.mem_filter.mp hr').2, ?_⟩
    exact List.ne_nil_of_mem (List.mem_filter.mpr ⟨hr, beq_self_eq_true _⟩)
  have hsame := groups_ofList_blocks (nodup_keys_groups resources) fun b hb => (hgroups b hb).1
  rw [List.filter_eq_self.mpr fun b hb => by simpa using (hgroups b hb).2] at hsame
  exact congrArg ResourceSet.mk hsame

/-- Values by kind and name of resources that come kind by kind. -/
theorem byKind_blocks (leaf : Resource → Value) {blocks : Keyed String (List Resource)}
    (hkeys : (Keyed.keys blocks).Nodup) (hblocks : ∀ b ∈ blocks, ∀ r ∈ b.2, r.kind = b.1) :
    byKind leaf (blocks.flatMap Prod.snd) =
      (blocks.filter fun b => !b.2.isEmpty).map fun b =>
        (b.1, Keyed.ofList (b.2.map fun r => (r.name, leaf r))) := by
  rw [byKind_eq_gather, Keyed.gather_blocks_getD _
    (fun names r => Keyed.insert names r.name (leaf r)) [] hkeys hblocks]
  simp only [Keyed.ofList, List.foldl_map]

end Manifest.ResourceSet

end ManifestTypes
