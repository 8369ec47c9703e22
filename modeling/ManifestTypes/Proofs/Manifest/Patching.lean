import ManifestTypes.Proofs.Keyed.Changes
import ManifestTypes.Proofs.Manifest.Rereading
import ManifestTypes.Proofs.Manifest.Variables

/-!
# Patched resources

Each change that fills something in is made of changes of one object, of one member and of all
elements of a list. What a manifest has besides is left as it is, filling in a second time changes
nothing, and variables can be sorted before or after it.
-/

namespace ManifestTypes.Manifest

/-! ## What is not filled in -/

def without (keys : List String) (members : Members) : Members :=
  members.filter fun m => !keys.contains m.1

def inMember (key : String) (change : Value → Value) : Value → Value :=
  Value.mapMembers (Keyed.modify · key change)

def inElements (change : Value → Value) : Value → Value
  | .list elements => .list (elements.map change)
  | v => v

/-- The manifest without what may be filled in for its kind. -/
def withoutFilled (kind : String) : Value → Value :=
  if kind = "StatefulSet" then
    inMember "spec" (inMember "volumeClaimTemplates"
      (inElements (Value.mapMembers (without ["apiVersion", "kind"]))))
  else if kind = "CronJob" then
    inMember "spec" (inMember "jobTemplate" (Value.mapMembers (without ["metadata"])))
  else if kind = "PersistentVolume" then
    inMember "spec" (inMember "claimRef" (Value.mapMembers (without ["apiVersion", "kind"])))
  else id

/-! ## Changes that fill in -/

def sortMembers (members : Members) : Members :=
  members.map fun m => (m.1, Value.sortMember m.1 m.2)

theorem sortEnv_object_eq (members : Members) :
    Value.sortEnv (.object members) = .object (sortMembers members) :=
  Value.sortEnv_object members

theorem sortMember_of_ne {key : String} (h : key ≠ "env") (v : Value) :
    Value.sortMember key v = v.sortEnv :=
  if_neg h

/-- What a change that fills in keeps to. It leaves `kept` as it is, changes nothing where it has
succeeded once, and is the same before and after sorting. -/
structure FillsIn {α : Type} (kept sort : α → α) (fill : α → Attempt Fault α) : Prop where
  kept_sort : ∀ x, kept (sort x) = sort (kept x)
  kept_fill : ∀ x, kept (fill x).value = kept x
  fill_sort : ∀ x, fill (sort x) = (fill x).map sort
  settles : ∀ x, (fill x).fault = none → fill (fill x).value = .done (fill x).value

/-- A change that cannot fail. -/
theorem FillsIn.always {α : Type} {kept sort change : α → α}
    (hsort : ∀ x, kept (sort x) = sort (kept x)) (hkept : ∀ x, kept (change x) = kept x)
    (hcomm : ∀ x, change (sort x) = sort (change x)) (hagain : ∀ x, change (change x) = change x) :
    FillsIn kept sort fun x => .done (change x) :=
  ⟨hsort, hkept, fun x => congrArg Attempt.done (hcomm x),
    fun x _ => congrArg Attempt.done (hagain x)⟩

/-! ### Members of an object -/

/-- Changes the members of an object. That it is none may be a fault. -/
def fillMembers (missing : Option Fault) (fill : Members → Attempt Fault Members) :
    Value → Attempt Fault Value
  | .object members => (fill members).map .object
  | v => ⟨v, missing⟩

theorem FillsIn.members {kept : Members → Members} {fill : Members → Attempt Fault Members}
    (h : FillsIn kept sortMembers fill) (missing : Option Fault) :
    FillsIn (Value.mapMembers kept) Value.sortEnv (fillMembers missing fill) where
  kept_sort v := by
    cases v with
    | object members =>
        rw [sortEnv_object_eq, Value.mapMembers, Value.mapMembers, h.kept_sort, sortEnv_object_eq]
    | list elements =>
        rw [Value.sortEnv_list]
        exact (Value.sortEnv_list elements).symm
    | _ => rfl
  kept_fill v := by
    cases v with
    | object members => exact congrArg Value.object (h.kept_fill members)
    | _ => rfl
  fill_sort v := by
    cases v with
    | object members =>
        rw [sortEnv_object_eq, fillMembers, fillMembers, h.fill_sort]
        simp only [Attempt.map, sortEnv_object_eq]
    | list elements =>
        rw [Value.sortEnv_list]
        show Attempt.mk _ missing = ⟨Value.sortEnv (.list elements), missing⟩
        rw [Value.sortEnv_list]
    | _ => rfl
  settles v hdone := by
    cases v with
    | object members =>
        show (fill (fill members).value).map Value.object = .done (.object (fill members).value)
        rw [h.settles members hdone]
        rfl
    | _ =>
        cases (hdone : missing = none)
        rfl

/-! ### One member -/

def fillMember (key : String) (missing : Option Fault) (fill : Value → Attempt Fault Value)
    (members : Members) : Attempt Fault Members :=
  match members.get? key with
  | some v => (fill v).map fun v => members.modify key fun _ => v
  | none => ⟨members, missing⟩

theorem fillMember_of_some {key : String} {members : Members} {v : Value}
    (h : members.get? key = some v) (missing : Option Fault)
    (fill : Value → Attempt Fault Value) :
    fillMember key missing fill members =
      (fill v).map fun v => members.modify key fun _ => v := by
  rw [fillMember, h]

theorem fillMember_of_none {key : String} {members : Members} (h : members.get? key = none)
    (missing : Option Fault) (fill : Value → Attempt Fault Value) :
    fillMember key missing fill members = ⟨members, missing⟩ := by
  rw [fillMember, h]

theorem get?_sortMembers {key : String} (hkey : key ≠ "env") (members : Members) :
    (sortMembers members).get? key = (members.get? key).map Value.sortEnv := by
  rw [sortMembers, Keyed.get?_map Value.sortMember]
  exact congrArg (Option.map · _) (funext (sortMember_of_ne hkey))

/-- A change of a member can be made before or after sorting if it can be for the value. -/
theorem modify_sortMembers {key : String} (hkey : key ≠ "env") (change change' : Value → Value)
    (h : ∀ v, (change v).sortEnv = change' v.sortEnv) (members : Members) :
    (sortMembers members).modify key change' = sortMembers (members.modify key change) := by
  refine (Keyed.map_modify (fun v => ?_) members).symm
  rw [sortMember_of_ne hkey, sortMember_of_ne hkey, h]

theorem FillsIn.member {kept : Value → Value} {fill : Value → Attempt Fault Value}
    (h : FillsIn kept Value.sortEnv fill) {key : String} (hkey : key ≠ "env")
    (missing : Option Fault) :
    FillsIn (Keyed.modify · key kept) sortMembers (fillMember key missing fill) where
  kept_sort members := modify_sortMembers hkey kept kept (fun v => (h.kept_sort v).symm) members
  kept_fill members := by
    cases hmember : members.get? key with
    | none => rw [fillMember_of_none hmember]
    | some v =>
        rw [fillMember_of_some hmember]
        show Keyed.modify (members.modify key fun _ => (fill v).value) key kept = _
        rw [Keyed.modify_modify]
        refine Keyed.modify_congr fun v' hv' => ?_
        rw [hmember, Option.some.injEq] at hv'
        rw [Function.comp_apply, h.kept_fill, hv']
  fill_sort members := by
    have hsorted := get?_sortMembers hkey members
    cases hmember : members.get? key with
    | none =>
        rw [hmember] at hsorted
        rw [fillMember_of_none hmember, fillMember_of_none hsorted]
        rfl
    | some v =>
        rw [hmember] at hsorted
        rw [fillMember_of_some hmember, fillMember_of_some hsorted, h.fill_sort]
        have hmodify : (sortMembers members).modify key (fun _ => (fill v).value.sortEnv) =
            sortMembers (members.modify key fun _ => (fill v).value) :=
          modify_sortMembers hkey (fun _ => (fill v).value) _ (fun _ => rfl) members
        exact congrArg (Attempt.mk · (fill v).fault) hmodify
  settles members hdone := by
    cases hmember : members.get? key with
    | none =>
        rw [fillMember_of_none hmember] at hdone ⊢
        cases (hdone : missing = none)
        exact fillMember_of_none hmember none fill
    | some v =>
        rw [fillMember_of_some hmember] at hdone ⊢
        have hthere : (members.modify key fun _ => (fill v).value).get? key =
            some (fill v).value := by
          rw [Keyed.get?_modify, if_pos (beq_self_eq_true key), hmember, Option.map_some]
        show fillMember key missing fill (members.modify key fun _ => (fill v).value) = _
        rw [fillMember_of_some hthere, h.settles v hdone]
        simp only [Attempt.map, Attempt.done, Keyed.modify_self hthere]

/-! ### Elements of a list -/

/-- An attempt at each item, up to the first one that fails. -/
def fillEach {α : Type} (fill : α → Attempt Fault α) (items : List α) : Attempt Fault (List α) :=
  Attempt.settle (items.map fun x => (x, fill x))

section Each

variable {α : Type} {fill : α → Attempt Fault α} {x : α}

theorem fillEach_of_fault {fault : Fault} (h : (fill x).fault = some fault) (xs : List α) :
    fillEach fill (x :: xs) = .fail ((fill x).value :: xs) fault := by
  rw [fillEach, List.map_cons, Attempt.settle_of_fault h, List.map_map]
  simp only [Function.comp_def, List.map_id']

theorem fillEach_of_done (h : (fill x).fault = none) (xs : List α) :
    fillEach fill (x :: xs) = (fillEach fill xs).map ((fill x).value :: ·) :=
  Attempt.settle_of_done h x _

theorem FillsIn.each {kept sort : α → α} (h : FillsIn kept sort fill) :
    FillsIn (List.map kept) (List.map sort) (fillEach fill) where
  kept_sort xs := by
    rw [List.map_map, List.map_map]
    exact List.map_congr_left fun x _ => h.kept_sort x
  kept_fill xs := by
    induction xs with
    | nil => rfl
    | cons x xs ih =>
        cases hfault : (fill x).fault with
        | some fault =>
            rw [fillEach_of_fault hfault]
            simp [Attempt.fail, h.kept_fill]
        | none =>
            rw [fillEach_of_done hfault]
            simp [Attempt.map, h.kept_fill, ih]
  fill_sort xs := by
    induction xs with
    | nil => rfl
    | cons x xs ih =>
        have hsorted : (fill (sort x)).fault = (fill x).fault := by
          rw [h.fill_sort]
          rfl
        cases hfault : (fill x).fault with
        | some fault =>
            rw [hfault] at hsorted
            rw [List.map_cons, fillEach_of_fault hsorted, fillEach_of_fault hfault, h.fill_sort]
            rfl
        | none =>
            rw [hfault] at hsorted
            rw [List.map_cons, fillEach_of_done hsorted, fillEach_of_done hfault, h.fill_sort, ih]
            rfl
  settles xs hdone := by
    induction xs with
    | nil => rfl
    | cons x xs ih =>
        cases hfault : (fill x).fault with
        | some fault =>
            rw [fillEach_of_fault hfault] at hdone
            cases hdone
        | none =>
            rw [fillEach_of_done hfault] at hdone ⊢
            have hagain := h.settles x hfault
            have hnone : (fill (fill x).value).fault = none := by
              rw [hagain]
              rfl
            show fillEach fill ((fill x).value :: (fillEach fill xs).value) = _
            rw [fillEach_of_done hnone, hagain, ih hdone]
            rfl

end Each

def fillElements (fill : Value → Attempt Fault Value) : Value → Attempt Fault Value
  | .list elements => (fillEach fill elements).map .list
  | v => .done v

theorem FillsIn.elements {kept : Value → Value} {fill : Value → Attempt Fault Value}
    (h : FillsIn kept Value.sortEnv fill) :
    FillsIn (inElements kept) Value.sortEnv (fillElements fill) where
  kept_sort v := by
    cases v with
    | list elements =>
        rw [Value.sortEnv_list, inElements, inElements, h.each.kept_sort, Value.sortEnv_list]
    | object members =>
        rw [sortEnv_object_eq]
        exact (sortEnv_object_eq members).symm
    | _ => rfl
  kept_fill v := by
    cases v with
    | list elements => exact congrArg Value.list (h.each.kept_fill elements)
    | _ => rfl
  fill_sort v := by
    cases v with
    | list elements =>
        rw [Value.sortEnv_list, fillElements, fillElements, h.each.fill_sort]
        simp only [Attempt.map, Value.sortEnv_list]
    | object members =>
        rw [sortEnv_object_eq]
        exact congrArg Attempt.done (sortEnv_object_eq members).symm
    | _ => rfl
  settles v hdone := by
    cases v with
    | list elements =>
        show (fillEach fill (fillEach fill elements).value).map Value.list = _
        rw [h.each.settles elements hdone]
        rfl
    | _ => rfl

/-! ## What each kind needs -/

theorem without_sortMembers (keys : List String) (members : Members) :
    without keys (sortMembers members) = sortMembers (without keys members) := by
  rw [without, sortMembers, List.filter_map]
  rfl

theorem insert_sortMembers {key : String} {value : Value} (h : Value.sortMember key value = value)
    (members : Members) :
    (sortMembers members).insert key value = sortMembers (members.insert key value) := by
  rw [sortMembers, sortMembers, Keyed.map_insert Value.sortMember, h]

theorem without_insert {keys : List String} {key : String} (h : key ∈ keys) (members : Members)
    (value : Value) : without keys (members.insert key value) = without keys members := by
  have hleft : (!keys.contains key) = false := by simpa using h
  exact Keyed.filter_insert (fun k => !keys.contains k) hleft members value

theorem fillsIn_withTypeMeta (kind : String) :
    FillsIn (without ["apiVersion", "kind"]) sortMembers
      fun members => .done (withTypeMeta kind members) := by
  refine .always (without_sortMembers _) (fun members => ?_) (fun members => ?_) fun members => ?_
  · rw [withTypeMeta, without_insert (by simp), without_insert (by simp)]
  · rw [withTypeMeta, insert_sortMembers rfl, insert_sortMembers rfl, withTypeMeta]
  · have hkind : (withTypeMeta kind members).get? "kind" = some (.string kind) := by
      simp [withTypeMeta, Keyed.get?_insert]
    have hversion : (withTypeMeta kind members).get? "apiVersion" = some (.string "v1") := by
      simp [withTypeMeta, Keyed.get?_insert]
    rw [withTypeMeta, Keyed.insert_of_get? hversion, Keyed.insert_of_get? hkind]

def withMetadata (template : Members) : Members :=
  if (template.get? "metadata").any Value.isObject then template
  else template.insert "metadata" (.object [])

theorem withMetadata_eq (template : Members) :
    withMetadata template =
      match template.get? "metadata" with
      | some (.object _) => template
      | _ => template.insert "metadata" (.object []) := by
  unfold withMetadata
  cases template.get? "metadata" with
  | none => rfl
  | some v => cases v <;> rfl

theorem fillsIn_withMetadata :
    FillsIn (without ["metadata"]) sortMembers fun template => .done (withMetadata template) := by
  refine .always (without_sortMembers _) (fun template => ?_) (fun template => ?_)
    fun template => ?_
  · unfold withMetadata
    split
    · rfl
    · rw [without_insert (by simp)]
  · have hobject : (template.get? "metadata" |>.map Value.sortEnv).any Value.isObject =
        (template.get? "metadata").any Value.isObject := by
      rw [Option.any_map]
      exact congrArg (Option.any · _) (funext fun v => (Value.sameStrings_sortEnv v).isObject)
    rw [withMetadata, withMetadata, get?_sortMembers (by decide), hobject]
    split
    · rfl
    · rw [insert_sortMembers rfl]
  · by_cases hobject : (template.get? "metadata").any Value.isObject
    · have hsame : withMetadata template = template := if_pos hobject
      rw [hsame, hsame]
    · have hinserted : withMetadata template = template.insert "metadata" (.object []) :=
        if_neg hobject
      rw [hinserted]
      refine if_pos ?_
      rw [Keyed.get?_insert]
      rfl

theorem patchClaimTemplate_eq :
    patchClaimTemplate = fillMembers (some (.missing .claimTemplate))
      fun members => .done (withTypeMeta "PersistentVolumeClaim" members) := by
  funext v
  cases v <;> rfl

theorem patchClaimTemplates_eq :
    patchClaimTemplates =
      fillMember "volumeClaimTemplates" none (fillElements patchClaimTemplate) := by
  funext spec
  cases hmember : spec.get? "volumeClaimTemplates" with
  | none => rw [patchClaimTemplates, fillMember_of_none hmember, hmember]; rfl
  | some v =>
      rw [patchClaimTemplates, fillMember_of_some hmember, hmember]
      cases v with
      | list templates => rfl
      | _ => exact congrArg Attempt.done (Keyed.modify_self hmember).symm

theorem patchJobTemplate_eq :
    patchJobTemplate = fillMember "jobTemplate" (some (.missing .jobTemplate))
      (fillMembers (some (.missing .jobTemplate))
        fun template => .done (withMetadata template)) := by
  funext spec
  cases hmember : spec.get? "jobTemplate" with
  | none => rw [patchJobTemplate, fillMember_of_none hmember, hmember]; rfl
  | some v =>
      rw [patchJobTemplate, fillMember_of_some hmember, hmember]
      cases v with
      | object template =>
          have hsame := Keyed.modify_self hmember
          show _ = Attempt.done (spec.modify "jobTemplate" fun _ => .object (withMetadata template))
          rw [withMetadata_eq]
          cases hmetadata : Keyed.get? template "metadata" with
          | none => simp only [hmetadata]
          | some metadata => cases metadata <;> simp only [hmetadata, hsame]
      | _ => exact congrArg (Attempt.mk · _) (Keyed.modify_self hmember).symm

theorem patchClaimRef_eq :
    patchClaimRef = fillMember "claimRef" none
      (fillMembers none fun claim => .done (withTypeMeta "PersistentVolumeClaim" claim)) := by
  funext spec
  cases hmember : spec.get? "claimRef" with
  | none => rw [patchClaimRef, fillMember_of_none hmember, hmember]; rfl
  | some v =>
      rw [patchClaimRef, fillMember_of_some hmember, hmember]
      cases v with
      | object claim => rfl
      | _ => exact congrArg Attempt.done (Keyed.modify_self hmember).symm

theorem patchSpec_eq (change : Members → Attempt Fault Members) :
    (patchSpec · change) = fillMembers (some (.missing .spec))
      (fillMember "spec" (some (.missing .spec)) (fillMembers (some (.missing .spec)) change)) := by
  funext contents
  cases contents with
  | object members =>
      show patchSpec (.object members) change = (fillMember _ _ _ members).map .object
      cases hmember : Keyed.get? members "spec" with
      | none => rw [patchSpec, fillMember_of_none hmember, hmember]; rfl
      | some v =>
          rw [patchSpec, fillMember_of_some hmember, hmember]
          cases v with
          | object spec => rfl
          | _ => simp only [fillMembers, Attempt.map, Attempt.fail, Keyed.modify_self hmember]
  | _ => rfl

/-! ## Patching -/

theorem FillsIn.spec {kept : Members → Members} {change : Members → Attempt Fault Members}
    (h : FillsIn kept sortMembers change) :
    FillsIn (inMember "spec" (Value.mapMembers kept)) Value.sortEnv (patchSpec · change) := by
  rw [patchSpec_eq]
  exact ((h.members _).member (by decide) _).members _

theorem fillsIn_patchClaimTemplates :
    FillsIn (Keyed.modify · "volumeClaimTemplates"
      (inElements (Value.mapMembers (without ["apiVersion", "kind"])))) sortMembers
      patchClaimTemplates := by
  rw [patchClaimTemplates_eq, patchClaimTemplate_eq]
  exact ((fillsIn_withTypeMeta _).members _).elements.member (by decide) _

theorem fillsIn_patchJobTemplate :
    FillsIn (Keyed.modify · "jobTemplate" (Value.mapMembers (without ["metadata"]))) sortMembers
      patchJobTemplate := by
  rw [patchJobTemplate_eq]
  exact (fillsIn_withMetadata.members _).member (by decide) _

theorem fillsIn_patchClaimRef :
    FillsIn (Keyed.modify · "claimRef" (Value.mapMembers (without ["apiVersion", "kind"])))
      sortMembers patchClaimRef := by
  rw [patchClaimRef_eq]
  exact ((fillsIn_withTypeMeta _).members _).member (by decide) _

theorem fillsIn_patchTypes (kind : String) :
    FillsIn (withoutFilled kind) Value.sortEnv (patchTypes kind) := by
  unfold withoutFilled patchTypes
  split
  · exact fillsIn_patchClaimTemplates.spec
  · split
    · exact fillsIn_patchJobTemplate.spec
    · split
      · exact fillsIn_patchClaimRef.spec
      · exact .always (fun _ => rfl) (fun _ => rfl) (fun _ => rfl) fun _ => rfl

theorem fault_patchContents (kind : String) (contents : Value) :
    (patchContents kind contents).fault = (patchTypes kind contents).fault := by
  simp only [patchContents]
  split <;> rfl

/-- What has been patched without a fault comes to none again, and stays. -/
theorem patchContents_patchContents {kind : String} {contents : Value}
    (h : (patchContents kind contents).fault = none) :
    patchContents kind (patchContents kind contents).value =
      .done (patchContents kind contents).value := by
  rw [fault_patchContents] at h
  have hagain := (fillsIn_patchTypes kind).settles contents h
  by_cases hsorts : sortsEnv kind
  · have hsorted : (patchContents kind contents).value =
        (patchTypes kind contents).value.sortEnv := by
      simp [patchContents, h, hsorts, Attempt.map]
    rw [hsorted, patchContents, (fillsIn_patchTypes kind).fill_sort, hagain]
    simp [Attempt.map, Attempt.done, hsorts, Value.sortEnv_sortEnv]
  · have hsame : patchContents kind contents = patchTypes kind contents := by
      simp [patchContents, hsorts]
    rw [hsame, patchContents, hagain]
    simp [hsorts]

/-- Nothing but what is filled in is changed, also where that comes to a fault. Where it does not,
variables are sorted if the kind has any. -/
theorem withoutFilled_patchContents (kind : String) (contents : Value) :
    if (patchContents kind contents).fault.isNone ∧ sortsEnv kind then
      Value.EnvSorted (withoutFilled kind contents)
        (withoutFilled kind (patchContents kind contents).value)
    else
      withoutFilled kind (patchContents kind contents).value = withoutFilled kind contents := by
  have hfills := fillsIn_patchTypes kind
  rw [fault_patchContents]
  simp only [patchContents]
  split
  · rw [Value.envSorted_iff]
    show withoutFilled kind (patchTypes kind contents).value.sortEnv = _
    rw [hfills.kept_sort, hfills.kept_fill]
  · exact hfills.kept_fill contents

/-- Patching keeps what a resource is told by, and changes nothing but what is filled in for its
kind and the order of variables, also where it fails half way. The resource that is left is the one
that is read from its contents. Where patching succeeds, a second time it changes nothing. -/
theorem patch_settles {contents : Value} {fallback : String} {r : Resource}
    (h : Resource.ofValue contents fallback = .ok r) :
    let patched := r.patch.value
    Resource.ofValue patched.contents fallback = .ok patched ∧
      (patched.kind = r.kind ∧ patched.apiVersion = r.apiVersion ∧ patched.name = r.name ∧
        patched.component = r.component) ∧
      (if r.patch.fault.isNone ∧ sortsEnv r.kind then
        Value.EnvSorted (withoutFilled r.kind contents) (withoutFilled r.kind patched.contents)
      else withoutFilled r.kind patched.contents = withoutFilled r.kind contents) ∧
      (r.patch.fault = none → patched.patch = .done patched) := by
  have hcontents : r.contents = contents := (Resource.ofValue_eq_ok_iff.mp h).1
  subst hcontents
  refine ⟨?_, ⟨rfl, rfl, rfl, rfl⟩, withoutFilled_patchContents r.kind r.contents, ?_⟩
  · exact Resource.ofValue_of_sameIdentity h (sameIdentity_patchContents r.kind r.contents)
  · intro hdone
    show (patchContents r.kind (patchContents r.kind r.contents).value).map _ = _
    rw [patchContents_patchContents hdone]
    rfl

/-- The first template is filled in also where the second one is a fault. -/
theorem patch_settles_claimTemplates :
    let stateful (templates : List Value) : Resource :=
      labelledResource "StatefulSet" "store" "db" [("volumeClaimTemplates", .list templates)]
    let claim : Value := .object
      [("apiVersion", .string "v1"), ("kind", .string "PersistentVolumeClaim")]
    (stateful [.object [], .null]).patch =
        .fail (stateful [claim, .null]) (.missing .claimTemplate) ∧
      Resource.ofValue (stateful [claim, .null]).contents "" = .ok (stateful [claim, .null]) ∧
      (stateful [.object []]).patch = .done (stateful [claim]) ∧
      (stateful [claim]).patch = .done (stateful [claim]) := by
  intro stateful claim
  have hread : ∀ templates,
      Resource.ofValue (stateful templates).contents "" = .ok (stateful templates) :=
    fun _ => ofValue_labelledManifest ..
  have hfailed : (stateful [.object [], .null]).patch =
      .fail (stateful [claim, .null]) (.missing .claimTemplate) := rfl
  have hdone : (stateful [.object []]).patch = .done (stateful [claim]) := rfl
  obtain ⟨hkept, -⟩ := patch_settles (hread [.object [], .null])
  obtain ⟨-, -, -, hagain⟩ := patch_settles (hread [.object []])
  rw [hfailed] at hkept
  rw [hdone] at hagain
  exact ⟨hfailed, hkept, hdone, hagain rfl⟩

end ManifestTypes.Manifest
