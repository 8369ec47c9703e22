import ManifestTypes.Proofs.Manifest.Rereading
import ManifestTypes.Proofs.Manifest.Views
import ManifestTypes.Proofs.Value.Alike

/-!
# Containers of manifests whose lists are indexed

The search for the containers of a workload enters objects and passes over lists. Indexing turns
lists of named objects into objects, so the search may then find something in what it passed over
before. Where it finds nothing there, it ends as it did.
-/

namespace ManifestTypes

theorem Keyed.nodup_keys_byName (elements : List Value) :
    (Keyed.keys (Value.byName elements)).Nodup :=
  Keyed.nodup_keys_ofList _

/-- Indexing leaves the name of an object as it is. -/
theorem Value.name?_of_indexed {v w : Value} (h : v.indexed = .ok w) : w.name? = v.name? := by
  cases v with
  | list elements =>
      rw [indexed_list] at h
      obtain ⟨elements', -, rfl⟩ := map_eq_ok_iff.mp h
      rfl
  | object members =>
      rw [← indexedMember_of_not_list rfl "spec"] at h
      exact Manifest.keepsStrings_indexing.getString? h (by decide) (by decide)
  | _ => cases h; rfl

namespace Manifest

open Value (indexed indexedMember byName)

/-! ## Lists that the search passes over -/

/-- What the search finds in a member before it comes to the next one. -/
def containersAt? (key : String) (v : Value) : Option (List String) :=
  if key = "containers" then
    match v with
    | .object containers => some (containers.map Prod.fst)
    | .list containers => containers.mapM Value.name?
    | _ => none
  else containersIn? v

theorem containersAt?_of_ne {key : String} (h : key ≠ "containers") (v : Value) :
    containersAt? key v = containersIn? v :=
  if_neg h

theorem containersAmong?_cons (key : String) (v : Value) (rest : List (String × Value)) :
    containersAmong? ((key, v) :: rest) = (containersAt? key v).or (containersAmong? rest) := by
  cases v <;> rfl

mutual

/-- The lists of named objects that the search for containers passes over before it ends, in their
order. -/
def passedIn : Value → List (List Value)
  | .object members => passedAmong members
  | _ => []

def passedAmong : List (String × Value) → List (List Value)
  | [] => []
  | (key, v) :: rest =>
    let here :=
      if key = "containers" then []
      else
        match v with
        | .list elements => if Value.startsNamed elements then [elements] else []
        | v => passedIn v
    if (containersAt? key v).isSome then here else here ++ passedAmong rest

end

def passedAt (key : String) (v : Value) : List (List Value) :=
  if key = "containers" then []
  else
    match v with
    | .list elements => if Value.startsNamed elements then [elements] else []
    | v => passedIn v

theorem passedAmong_cons (key : String) (v : Value) (rest : List (String × Value)) :
    passedAmong ((key, v) :: rest) =
      if (containersAt? key v).isSome then passedAt key v
      else passedAt key v ++ passedAmong rest := by
  cases v <;> rfl

/-- What the search finds in a list of named objects once it is an object. -/
def heldBy? (elements : List Value) : Option (List String) :=
  match Keyed.traverse (fun _ => indexed) (byName elements) with
  | .ok members => containersAmong? members
  | .error _ => none

/-- What the search finds in the first list that it passed over and that holds containers. -/
def hidden? (v : Value) : Option (List String) :=
  (passedIn v).findSome? heldBy?

/-! ## The search after indexing -/

def slots (names : List String) : Value :=
  .ofPairs (names.map fun name => (name, .object []))

/-- Both searches find nothing, or both find the same names up to repetitions. -/
def SameNames (names? names'? : Option (List String)) : Prop :=
  names?.map slots = names'?.map slots

theorem SameNames.or {a a' b b' : Option (List String)} (ha : SameNames a a')
    (hb : SameNames b b') : SameNames (a.or b) (a'.or b') := by
  rw [SameNames, Option.map_or, Option.map_or, ha, hb]

/-- The names of a list stand once each in the object that it becomes. -/
theorem slots_byName (elements : List Value) :
    slots (Keyed.keys (byName elements)) = slots (elements.map Value.nameKey) := by
  have hkeys : (Keyed.keys ((Keyed.keys (byName elements)).map fun name =>
      (name, Value.object []))).Nodup := by
    simpa [Keyed.keys, Function.comp_def] using Keyed.nodup_keys_byName elements
  have hvalues := Keyed.ofList_map (fun _ => Value.object [])
    (elements.map fun v => (v.nameKey, v))
  rw [List.map_map] at hvalues
  rw [slots, slots, Value.ofPairs, Value.ofPairs, Keyed.ofList_of_nodup hkeys, List.map_map]
  refine congrArg Value.object (Eq.trans ?_ hvalues.symm)
  simp only [Keyed.keys, List.map_map]
  rfl

theorem mapM_name?_of_all {elements : List Value} (h : elements.all Value.isNamed = true) :
    elements.mapM Value.name? = some (elements.map Value.nameKey) := by
  induction elements with
  | nil => rfl
  | cons v rest ih =>
      rw [List.all_cons, Bool.and_eq_true] at h
      obtain ⟨name, hname⟩ := Option.isSome_iff_exists.mp h.1
      rw [List.mapM_cons, ih h.2, List.map_cons, Value.nameKey, hname]
      rfl

/-- What indexing makes of a list that it takes for no list of named objects. -/
theorem list_of_indexed {elements : List Value} {w : Value}
    (h : indexed (.list elements) = .ok w) :
    ∃ elements', w = .list elements' ∧
      List.Forall₂ (fun v v' => indexed v = .ok v') elements elements' := by
  rw [Value.indexed_list] at h
  obtain ⟨elements', helements, rfl⟩ := map_eq_ok_iff.mp h
  exact ⟨elements', rfl, mapM_eq_ok_iff.mp helements⟩

theorem mapM_name?_of_forall₂ {elements elements' : List Value}
    (h : List.Forall₂ (fun v v' => indexed v = .ok v') elements elements') :
    elements'.mapM Value.name? = elements.mapM Value.name? := by
  induction h with
  | nil => rfl
  | cons hv _ ih => rw [List.mapM_cons, List.mapM_cons, ih, Value.name?_of_indexed hv]

/-- Below the key that is searched for, a list and the object that it becomes count alike. -/
theorem sameNames_containers {v w : Value} (h : indexedMember "containers" v = .ok w) :
    SameNames (containersAt? "containers" w) (containersAt? "containers" v) := by
  cases v with
  | object members =>
      rw [Value.indexedMember_of_not_list rfl, Value.indexed_object] at h
      obtain ⟨members', hmembers, rfl⟩ := map_eq_ok_iff.mp h
      have hkeys : Keyed.keys members = Keyed.keys members' :=
        (Keyed.traverse_eq_ok_iff.mp hmembers).keys_eq
      exact congrArg (fun names => (some names).map slots) hkeys.symm
  | list elements =>
      rw [Value.indexedMember_list] at h
      split at h
      · split at h
        · next hall =>
            obtain ⟨members', hmembers, rfl⟩ := map_eq_ok_iff.mp h
            have hkeys := (Keyed.traverse_eq_ok_iff.mp hmembers).keys_eq
            change some (slots (Keyed.keys members')) = (elements.mapM Value.name?).map slots
            rw [← hkeys, slots_byName, mapM_name?_of_all hall]
            rfl
        · cases h
      · obtain ⟨elements', rfl, helements⟩ := list_of_indexed h
        exact congrArg (Option.map slots) (mapM_name?_of_forall₂ helements)
  | _ => cases h; rfl

/-- What the search finds in a member once it is indexed: what was hidden in it, or what was found
in it before. -/
def FoundAfter (key : String) (v w : Value) : Prop :=
  SameNames (containersAt? key w)
    (((passedAt key v).findSome? heldBy?).or (containersAt? key v))

theorem sameNames_among {members members' : List (String × Value)}
    (h : Keyed.Related FoundAfter members members') :
    SameNames (containersAmong? members')
      (((passedAmong members).findSome? heldBy?).or (containersAmong? members)) := by
  induction h with
  | nil => rfl
  | @cons m m' rest rest' hm _ ih =>
      obtain ⟨key, v⟩ := m
      obtain ⟨_, w⟩ := m'
      obtain ⟨rfl, hfound⟩ := hm
      dsimp only at hfound
      have hboth := SameNames.or hfound ih
      rw [containersAmong?_cons, containersAmong?_cons, passedAmong_cons]
      cases hat : containersAt? key v with
      | some names =>
          rw [hat, Option.or_assoc, Option.some_or] at hboth
          simpa using hboth
      | none =>
          rw [hat, Option.or_none] at hboth
          simpa [List.findSome?_append, Option.or_assoc] using hboth

/-- A value that is no list is searched in the same way in a member, but below the key that is
searched for. -/
theorem foundAfter_of_not_list {v w : Value} {key : String} (helements : v.elements? = none)
    (hvalue : ∀ w, indexed v = .ok w →
      SameNames (containersIn? w) ((hidden? v).or (containersIn? v)))
    (h : indexedMember key v = .ok w) : FoundAfter key v w := by
  by_cases hkey : key = "containers"
  · subst hkey
    exact sameNames_containers h
  · rw [Value.indexedMember_of_not_list helements] at h
    have hpassed : passedAt key v = passedIn v := by
      cases v with
      | list elements => cases helements
      | _ => simp [passedAt, hkey]
    rw [FoundAfter, containersAt?_of_ne hkey, containersAt?_of_ne hkey, hpassed]
    exact hvalue w h

/-- A list is passed over. If it becomes an object, this is searched. -/
theorem foundAfter_list {elements : List Value} {w : Value} {key : String}
    (h : indexedMember key (.list elements) = .ok w) : FoundAfter key (.list elements) w := by
  by_cases hkey : key = "containers"
  · subst hkey
    exact sameNames_containers h
  · rw [Value.indexedMember_list] at h
    split at h
    · next hstarts =>
        split at h
        · obtain ⟨members', hmembers, rfl⟩ := map_eq_ok_iff.mp h
          simp [FoundAfter, containersAt?, passedAt, hkey, hstarts, heldBy?, hmembers, SameNames,
            containersIn?]
        · cases h
    · next hstarts =>
        obtain ⟨elements', rfl, -⟩ := list_of_indexed h
        simp [FoundAfter, containersAt?, passedAt, hkey, hstarts, SameNames, containersIn?]

/-- The search in a value and in a member, before and after indexing. -/
theorem sameNames_indexed_and_member (v : Value) :
    (∀ w, indexed v = .ok w →
      SameNames (containersIn? w) ((hidden? v).or (containersIn? v))) ∧
    ∀ key w, indexedMember key v = .ok w → FoundAfter key v w := by
  induction v using Value.induction with
  | atom v helements hmembers =>
      have hvalue : ∀ w, indexed v = .ok w →
          SameNames (containersIn? w) ((hidden? v).or (containersIn? v)) := by
        intro w h
        cases (Value.indexed_of_atom helements hmembers).symm.trans h
        cases v with
        | object members => cases hmembers
        | _ => rfl
      exact ⟨hvalue, fun key w => foundAfter_of_not_list helements hvalue⟩
  | list elements _ =>
      refine ⟨fun w h => ?_, fun key w => foundAfter_list⟩
      obtain ⟨elements', rfl, -⟩ := list_of_indexed h
      rfl
  | object members ih =>
      have hvalue : ∀ w, indexed (.object members) = .ok w →
          SameNames (containersIn? w)
            ((hidden? (.object members)).or (containersIn? (.object members))) := by
        intro w h
        rw [Value.indexed_object] at h
        obtain ⟨members', hmembers, rfl⟩ := map_eq_ok_iff.mp h
        exact sameNames_among <| (Keyed.traverse_eq_ok_iff.mp hmembers).imp_of_mem
          fun m hm w hw => (ih m hm).2 m.1 w hw
      exact ⟨hvalue, fun key w => foundAfter_of_not_list rfl hvalue⟩

/-! ## Skeletons of indexed manifests -/

/-- What settings can be attached to where these containers are found. -/
def skeletonOf (names? : Option (List String)) : Value :=
  .object ((names?.map slots).map ("containers", ·)).toList

theorem skeleton_of_workload {r : Resource} (h : r.kind ∈ workloadKinds) :
    r.skeleton = skeletonOf (containersIn? r.contents) := by
  rw [Resource.skeleton, if_pos h]
  cases containersIn? r.contents <;> rfl

theorem skeleton_indexed {r : Resource} {w : Value} (hkind : r.kind ∈ workloadKinds)
    (h : indexed r.contents = .ok w) :
    ({ r with contents := w } : Resource).skeleton =
      skeletonOf ((hidden? r.contents).or (containersIn? r.contents)) := by
  have hnames : SameNames (containersIn? w)
      ((hidden? r.contents).or (containersIn? r.contents)) :=
    (sameNames_indexed_and_member r.contents).1 w h
  rw [skeleton_of_workload (r := { r with contents := w }) hkind, skeletonOf, skeletonOf, hnames]

/-- What settings can be attached to is the same for a workload in any set and for the same workload
with its lists indexed, unless a list of named objects that the search for containers passes over
holds containers once it is an object. Then these are found in their place. -/
theorem components_of_indexed {r : Resource} {w : Value} (before after : List Resource)
    (hkind : r.kind ∈ workloadKinds) (h : r.contents.indexLists.toExcept = .ok w) :
    let r' : Resource := { r with contents := w }
    let s := ResourceSet.ofList (before ++ r :: after)
    let s' := ResourceSet.ofList (before ++ r' :: after)
    (hidden? r.contents = none → s'.components = s.components) ∧
    ∀ names, hidden? r.contents = some names → (∀ other ∈ after, other.place ≠ r.place) →
      s'.components.lookup? r.place = some (.object [("containers", slots names)]) := by
  intro r' s s'
  have hskeleton : r'.skeleton =
      skeletonOf ((hidden? r.contents).or (containersIn? r.contents)) := skeleton_indexed hkind h
  refine ⟨fun hhidden => ?same, fun names hhidden hlast => ?hidden⟩
  case same =>
    rw [hhidden, Option.none_or, ← skeleton_of_workload hkind] at hskeleton
    have hsame : r'.withContents Resource.skeleton = r.withContents Resource.skeleton := by
      rw [Resource.withContents, Resource.withContents, hskeleton]
    rw [ResourceSet.components, ResourceSet.components, group_eq_record, group_eq_record,
      List.map_append, List.map_append, List.map_cons, List.map_cons, hsame]
  case hidden =>
    rw [hhidden, Option.some_or] at hskeleton
    have hlast' : ∀ other ∈ after.map (Resource.withContents Resource.skeleton),
        other.place ≠ (r'.withContents Resource.skeleton).place := by
      rw [List.forall_mem_map]
      exact hlast
    rw [ResourceSet.components, group_eq_record, List.map_append, List.map_cons]
    exact (lookup?_record_last hlast').trans (congrArg some hskeleton)

def deploymentWithVolume (volume : String) : Resource :=
  labelledResource "Deployment" "front" "web" [("template", .object [("spec", .object [
    ("volumes", .list [.object [("name", .string volume), ("emptyDir", .object [])]]),
    ("containers", .list [.object [("name", .string "app")]])])])]

theorem components_of_indexed_volumes :
    (∃ w, (deploymentWithVolume "data").contents.indexLists.toExcept = .ok w ∧
      (ResourceSet.ofList [{ deploymentWithVolume "data" with contents := w }]).components =
        (ResourceSet.ofList [deploymentWithVolume "data"]).components) ∧
    ∃ w, (deploymentWithVolume "containers").contents.indexLists.toExcept = .ok w ∧
      (ResourceSet.ofList
          [{ deploymentWithVolume "containers" with contents := w }]).components.lookup?
            ["web", "Deployment", "front"] =
        some (.object [("containers", .object [("name", .object []), ("emptyDir", .object [])])]) := by
  refine ⟨⟨_, rfl, ?_⟩, ⟨_, rfl, ?_⟩⟩
  · have hkind : (deploymentWithVolume "data").kind ∈ workloadKinds := by decide
    exact (components_of_indexed [] [] hkind rfl).1 rfl
  · have hkind : (deploymentWithVolume "containers").kind ∈ workloadKinds := by decide
    exact (components_of_indexed [] [] hkind rfl).2 _ rfl (fun _ h => nomatch h)

/-- A volume that is called like the list of containers is taken for it once its list is an object,
so the containers are no longer those of the deployment. -/
theorem components_change_once_indexed :
    (∃ fallback, Resource.ofValue (deploymentWithVolume "containers").contents fallback =
      .ok (deploymentWithVolume "containers")) ∧
    (deploymentWithVolume "containers").kind ∈ workloadKinds ∧
    ∃ w, (deploymentWithVolume "containers").contents.indexLists.toExcept = .ok w ∧
      ¬ (ResourceSet.ofList [deploymentWithVolume "containers"]).components.Alike
        (ResourceSet.ofList
          [{ deploymentWithVolume "containers" with contents := w }]).components := by
  refine ⟨⟨"", rfl⟩, by decide, _, rfl, fun halike => ?_⟩
  have hslots : (Value.object [("app", .object [])]).Alike
      (.object [("name", .object []), ("emptyDir", .object [])]) :=
    halike.of_singleton.of_singleton.of_singleton.of_singleton
  exact absurd hslots.keys_perm.length_eq (by decide)

end Manifest

end ManifestTypes
