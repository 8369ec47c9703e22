import ManifestTypes.Manifest.Patch
import ManifestTypes.Proofs.Keyed.Gathering
import ManifestTypes.Proofs.Value.Objects

/-!
# The parts that tell resources

A resource is read from a manifest that has a kind, a version and a name. No string that stands as
a member of the manifest itself changes when the resource is patched, also where the patch comes to
a fault half way.
-/

namespace ManifestTypes

namespace Value

/-- Both are objects or both are not, and the same strings stand in them below the same keys. -/
structure SameStrings (v w : Value) : Prop where
  isObject : v.isObject = w.isObject
  getString? : ∀ key, v.getString? key = w.getString? key

theorem SameStrings.refl (v : Value) : SameStrings v v :=
  ⟨rfl, fun _ => rfl⟩

theorem SameStrings.trans {u v w : Value} (huv : SameStrings u v) (hvw : SameStrings v w) :
    SameStrings u w :=
  ⟨huv.isObject.trans hvw.isObject, fun key => (huv.getString? key).trans (hvw.getString? key)⟩

/-! ## Changes that keep them -/

theorem string?_sortByName (v : Value) : v.sortByName.string? = v.string? := by
  cases v with
  | list elements =>
      rw [sortByName]
      split <;> rfl
  | _ => rfl

theorem string?_sortEnv (v : Value) : v.sortEnv.string? = v.string? := by
  cases v <;> simp [sortEnv, string?]

def sortMember (key : String) (v : Value) : Value :=
  if key = "env" then v.sortEnv.sortByName else v.sortEnv

theorem sortEnv_object (members : List (String × Value)) :
    sortEnv (.object members) = .object (members.map fun m => (m.1, sortMember m.1 m.2)) := by
  suffices h : sortEnvEach members = members.map fun m => (m.1, sortMember m.1 m.2) by
    rw [sortEnv, h]
  induction members with
  | nil => rfl
  | cons m rest ih => rw [sortEnvEach, ih, List.map_cons, sortMember]

theorem sameStrings_sortEnv (v : Value) : SameStrings v.sortEnv v := by
  cases v with
  | object members =>
      rw [sortEnv_object]
      refine ⟨rfl, fun key => ?_⟩
      rw [getString?_object, getString?_object, Keyed.get?_map sortMember]
      cases Keyed.get? members key with
      | none => rfl
      | some v =>
          simp only [Option.map_some, Option.bind_some, sortMember]
          split
          · rw [string?_sortByName, string?_sortEnv]
          · rw [string?_sortEnv]
  | _ =>
      exact ⟨by simp [sortEnv, isObject, members?], fun key => by
        simp [sortEnv, getString?, get?, members?]⟩

/-- An object in the place of another hides no string and brings none. -/
theorem sameStrings_modify {members old new : Keyed String Value} {key : String}
    (h : members.get? key = some (.object old)) :
    SameStrings (.object (members.modify key fun _ => .object new)) (.object members) := by
  refine ⟨rfl, fun k => ?_⟩
  rw [getString?_object, getString?_object, Keyed.get?_modify]
  by_cases hk : key = k
  · subst hk
    simp [h, string?]
  · simp [hk]

end Value

namespace Manifest

/-! ## Reading -/

theorem bind_eq_ok_iff {ε α β : Type} {x : Except ε α} {f : α → Except ε β} {b : β} :
    (x >>= f) = .ok b ↔ ∃ a, x = .ok a ∧ f a = .ok b := by
  cases x <;> simp [bind, Except.bind]

namespace Resource

theorem requireString_eq_ok_iff {v : Value} {key text : String} {required : Requirement} :
    requireString v key required = .ok text ↔ v.getString? key = some text := by
  unfold requireString
  split <;> simp [*]

/-- A manifest has a kind, a version and metadata with a name. The component may be missing. -/
theorem ofValue_eq_ok_iff {contents : Value} {fallback : String} {r : Resource} :
    ofValue contents fallback = .ok r ↔
      r.contents = contents ∧
      contents.getString? "kind" = some r.kind ∧
      contents.getString? "apiVersion" = some r.apiVersion ∧
      ∃ metadata, contents.getMembers? "metadata" = some metadata ∧
        (Value.object metadata).getString? "name" = some r.name ∧
        r.component = (labelledComponent? (.object metadata)).getD fallback := by
  simp only [ofValue, bind_eq_ok_iff, requireString_eq_ok_iff]
  constructor
  · rintro ⟨kind, hkind, version, hversion, h⟩
    cases hmetadata : contents.getMembers? "metadata" with
    | none => rw [hmetadata] at h; cases h
    | some metadata =>
        rw [hmetadata] at h
        obtain ⟨name, hname, h⟩ := bind_eq_ok_iff.mp h
        cases h
        exact ⟨rfl, hkind, hversion, metadata, rfl, requireString_eq_ok_iff.mp hname, rfl⟩
  · rintro ⟨rfl, hkind, hversion, metadata, hmetadata, hname, hcomponent⟩
    refine ⟨r.kind, hkind, r.apiVersion, hversion, ?_⟩
    rw [hmetadata]
    refine bind_eq_ok_iff.mpr ⟨r.name, requireString_eq_ok_iff.mpr hname, ?_⟩
    rw [← hcomponent]

theorem ofNode_eq_ok_iff {document : Node} {fallback : String} {r : Resource} :
    ofNode document fallback = .ok r ↔
      ∃ contents, Value.ofNode document = .ok contents ∧ ofValue contents fallback = .ok r := by
  unfold ofNode
  split <;> simp [*]

end Resource

/-! ## Patching -/

theorem sameStrings_patchSpec (contents : Value) (change : Members → Attempt Fault Members) :
    (patchSpec contents change).value.SameStrings contents := by
  unfold patchSpec
  split
  · split
    · next hspec => exact Value.sameStrings_modify hspec
    · exact .refl _
  · exact .refl _

theorem sameStrings_patchTypes (kind : String) (contents : Value) :
    (patchTypes kind contents).value.SameStrings contents := by
  unfold patchTypes
  repeat' split
  · exact sameStrings_patchSpec contents _
  · exact sameStrings_patchSpec contents _
  · exact sameStrings_patchSpec contents _
  · exact .refl _

theorem sameStrings_patchContents (kind : String) (contents : Value) :
    (patchContents kind contents).value.SameStrings contents := by
  simp only [patchContents]
  split
  · exact (Value.sameStrings_sortEnv _).trans (sameStrings_patchTypes kind contents)
  · exact sameStrings_patchTypes kind contents

end Manifest

end ManifestTypes
