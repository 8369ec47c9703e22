import ManifestTypes.Proofs.Manifest.Collecting
import ManifestTypes.Proofs.Manifest.Passes

/-!
# Reading resources again

What a resource is told by stands in strings of its manifest and of the metadata in it. No pass
brings such a string or takes it away, and none makes an object anything else. So a resource that
was read, patched and normalized can be read from its contents again.
-/

namespace ManifestTypes

/-- The value with its image references as objects and its lists of named objects as objects. -/
def Value.normalized (v : Value) : Except Manifest.Fault Value :=
  v.expandImages.indexed

namespace Manifest

/-! ## Passes that keep strings -/

/-- What is made of a member has the strings that the member had, but for image references, and is
an object if the member was one. -/
structure KeepsStrings (M : String → Value → Value → Prop) : Prop where
  getString? : ∀ {key : String} {v w : Value}, M key v w → key ≠ "image" →
    ∀ {key' : String}, key' ≠ "image" → w.getString? key' = v.getString? key'
  object : ∀ {key : String} {members : Members} {w : Value}, M key (.object members) w →
    ∃ members', w = .object members' ∧ Keyed.Related M members members'

theorem keepsStrings_expanding : KeepsStrings fun key v w => Value.expandMember key v = w := by
  refine ⟨?_, ?_⟩
  · rintro key v _ rfl hkey key' hkey'
    rw [Value.expandMember_of_ne hkey, Value.getString?_expandImages hkey']
  · rintro key members _ rfl
    rw [Value.expandMember_of_not_string rfl, Value.expandImages_object]
    exact ⟨_, rfl, Keyed.related_map Value.expandMember members⟩

theorem getString?_sortByName (v : Value) (key : String) :
    v.sortByName.getString? key = v.getString? key := by
  cases v with
  | list elements =>
      rw [Value.sortByName]
      split <;> rfl
  | _ => rfl

theorem keepsStrings_sorting : KeepsStrings fun key v w => Value.sortMember key v = w := by
  refine ⟨?_, ?_⟩
  · rintro key v _ rfl - key' -
    unfold Value.sortMember
    split
    · rw [getString?_sortByName, (Value.sameStrings_sortEnv v).getString?]
    · rw [(Value.sameStrings_sortEnv v).getString?]
  · rintro key members _ rfl
    have hobject : Value.sortMember key (.object members) = Value.sortEnv (.object members) := by
      rw [Value.sortMember, Value.sortEnv_object]
      split <;> rfl
    rw [hobject, Value.sortEnv_object]
    exact ⟨_, rfl, Keyed.related_map Value.sortMember members⟩

/-- The values below a key hold the same string, or both hold none. -/
theorem getString?_of_related {M : String → Value → Value → Prop} {members members' : Members}
    {key : String} (h : Keyed.Related M members members')
    (hstring : ∀ v w, (key, v) ∈ members → M key v w → w.string? = v.string?) :
    (Value.object members').getString? key = (Value.object members).getString? key := by
  have hmember := h.get? key
  have hmem : ∀ v, members.get? key = some v → (key, v) ∈ members :=
    fun _ => Keyed.mem_of_get?_eq_some
  rw [Value.getString?_object, Value.getString?_object]
  generalize Keyed.get? members key = v? at hmember hmem
  generalize Keyed.get? members' key = w? at hmember
  cases hmember with
  | none => rfl
  | some hw => exact hstring _ _ (hmem _ rfl) hw

/-- Named elements are objects, so no string comes to stand below a name. -/
theorem getString?_byName {elements : List Value} (h : elements.all Value.isNamed = true)
    (key : String) : (Value.object (Value.byName elements)).getString? key = none := by
  rw [Value.getString?_object]
  cases hmember : Keyed.get? (Value.byName elements) key with
  | none => rfl
  | some v =>
      have hv : v ∈ elements := Value.mem_of_mem_byName (Keyed.mem_of_get?_eq_some hmember)
      obtain ⟨members, rfl⟩ := Value.isObject_of_isNamed (List.all_eq_true.mp h v hv)
      rfl

theorem keepsStrings_indexing : KeepsStrings fun key v w => Value.indexedMember key v = .ok w := by
  have hobject : ∀ {key : String} {members : Members} {w : Value},
      Value.indexedMember key (.object members) = .ok w → ∃ members', w = .object members' ∧
        Keyed.Related (fun key v w => Value.indexedMember key v = .ok w) members members' := by
    intro key members w h
    rw [Value.indexedMember_of_not_list rfl, Value.indexed_object] at h
    obtain ⟨members', hmembers, rfl⟩ := map_eq_ok_iff.mp h
    exact ⟨members', rfl, Keyed.traverse_eq_ok_iff.mp hmembers⟩
  refine ⟨?_, hobject⟩
  intro key v w h _ key' _
  cases v with
  | object members =>
      obtain ⟨members', rfl, hrelated⟩ := hobject h
      exact getString?_of_related hrelated fun _ _ _ => Value.string?_of_indexedMember
  | list elements =>
      rw [Value.indexedMember_list] at h
      split at h
      · split at h
        · next hall =>
            obtain ⟨members, hmembers, rfl⟩ := map_eq_ok_iff.mp h
            have hrelated := Keyed.traverse_eq_ok_iff.mp hmembers
            rw [getString?_of_related hrelated fun _ _ _ => Value.string?_of_indexed,
              getString?_byName hall]
            rfl
        · cases h
      · rw [Value.indexed_list] at h
        obtain ⟨elements', -, rfl⟩ := map_eq_ok_iff.mp h
        rfl
  | _ => cases h; rfl

/-! ## What a resource is told by -/

/-- The manifests have the same kind and version, and metadata with the same name and label. -/
structure SameIdentity (v w : Value) : Prop where
  kind : w.getString? "kind" = v.getString? "kind"
  apiVersion : w.getString? "apiVersion" = v.getString? "apiVersion"
  metadata : ∀ members, v.getMembers? "metadata" = some members →
    ∃ members', w.getMembers? "metadata" = some members' ∧
      (Value.object members').getString? "name" = (Value.object members).getString? "name" ∧
      Resource.labelledComponent? (.object members') =
        Resource.labelledComponent? (.object members)

theorem SameIdentity.refl (v : Value) : SameIdentity v v :=
  ⟨rfl, rfl, fun members h => ⟨members, h, rfl, rfl⟩⟩

theorem SameIdentity.trans {u v w : Value} (huv : SameIdentity u v) (hvw : SameIdentity v w) :
    SameIdentity u w := by
  refine ⟨hvw.kind.trans huv.kind, hvw.apiVersion.trans huv.apiVersion, ?_⟩
  intro members h
  obtain ⟨members', h', hname, hlabel⟩ := huv.metadata members h
  obtain ⟨members'', h'', hname', hlabel'⟩ := hvw.metadata members' h'
  exact ⟨members'', h'', hname'.trans hname, hlabel'.trans hlabel⟩

theorem getMembers?_eq_some_iff {v : Value} {key : String} {members : Members} :
    v.getMembers? key = some members ↔ v.get? key = some (.object members) := by
  rw [Value.getMembers?, Option.bind_eq_some_iff]
  constructor
  · rintro ⟨w, hw, hmembers⟩
    cases w with
    | object => cases hmembers; exact hw
    | _ => cases hmembers
  · intro h
    exact ⟨_, h, rfl⟩

theorem KeepsStrings.labelledComponent? {M : String → Value → Value → Prop} (hM : KeepsStrings M)
    {members members' : Members} (h : Keyed.Related M members members') :
    Resource.labelledComponent? (.object members') =
      Resource.labelledComponent? (.object members) := by
  have hlabels := h.get? "labels"
  rw [Resource.labelledComponent?, Resource.labelledComponent?, Value.get?_object,
    Value.get?_object]
  generalize Keyed.get? members "labels" = v? at hlabels
  generalize Keyed.get? members' "labels" = w? at hlabels
  cases hlabels with
  | none => rfl
  | some hw => exact hM.getString? hw (by decide) (by decide)

theorem KeepsStrings.sameIdentity {M : String → Value → Value → Prop} (hM : KeepsStrings M)
    {key : String} {v w : Value} (hkey : key ≠ "image") (h : M key v w) : SameIdentity v w := by
  refine ⟨hM.getString? h hkey (by decide), hM.getString? h hkey (by decide), ?_⟩
  intro members hmetadata
  cases v with
  | object contents =>
      obtain ⟨contents', rfl, hcontents⟩ := hM.object h
      have hmember := hcontents.get? "metadata"
      have hbefore : Keyed.get? contents "metadata" = some (.object members) :=
        getMembers?_eq_some_iff.mp hmetadata
      rw [hbefore] at hmember
      generalize hafter : Keyed.get? contents' "metadata" = w? at hmember
      cases hmember with
      | some hw =>
          obtain ⟨members', rfl, hrelated⟩ := hM.object hw
          have hmetadata' : (Value.object contents').getMembers? "metadata" = some members' :=
            getMembers?_eq_some_iff.mpr hafter
          have hname : (Value.object members').getString? "name" =
              (Value.object members).getString? "name" :=
            hM.getString? hw (by decide) (by decide)
          exact ⟨members', hmetadata', hname, hM.labelledComponent? hrelated⟩
  | _ => cases hmetadata

theorem sameIdentity_sortEnv (v : Value) : SameIdentity v v.sortEnv :=
  keepsStrings_sorting.sameIdentity (by decide : "spec" ≠ "image") rfl

theorem sameIdentity_normalized {v w : Value} (hv : v.IsObject) (h : v.normalized = .ok w) :
    w.IsObject ∧ SameIdentity v w := by
  obtain ⟨members, rfl⟩ := hv
  have hexpand : SameIdentity (.object members) (Value.expandImages (.object members)) :=
    keepsStrings_expanding.sameIdentity (by decide : "spec" ≠ "image")
      (Value.expandMember_of_not_string rfl _)
  rw [Value.normalized, Value.expandImages_object,
    ← Value.indexedMember_of_not_list rfl "spec"] at h
  obtain ⟨members', hobject, -⟩ := keepsStrings_indexing.object h
  have hindex := keepsStrings_indexing.sameIdentity (by decide) h
  rw [← Value.expandImages_object] at hindex
  exact ⟨⟨members', hobject⟩, hexpand.trans hindex⟩

/-- Patching looks at the members of the specification alone. -/
theorem sameIdentity_patchSpec (contents : Value) (change : Members → Attempt Fault Members) :
    SameIdentity contents (patchSpec contents change).value := by
  have hstrings := sameStrings_patchSpec contents change
  refine ⟨hstrings.getString? _, hstrings.getString? _, ?_⟩
  intro members hmetadata
  refine ⟨members, ?_, rfl, rfl⟩
  rw [getMembers?_eq_some_iff] at hmetadata ⊢
  unfold patchSpec
  split
  · split
    · simpa [Attempt.map, Keyed.get?_modify] using hmetadata
    · exact hmetadata
  · exact hmetadata

theorem sameIdentity_patchContents (kind : String) (contents : Value) :
    SameIdentity contents (patchContents kind contents).value := by
  have htypes : SameIdentity contents (patchTypes kind contents).value := by
    unfold patchTypes
    repeat' split
    · exact sameIdentity_patchSpec contents _
    · exact sameIdentity_patchSpec contents _
    · exact sameIdentity_patchSpec contents _
    · exact .refl _
  simp only [patchContents]
  split
  · exact htypes.trans (sameIdentity_sortEnv _)
  · exact htypes

/-! ## Reading again -/

namespace Resource

theorem ofValue_of_sameIdentity {v w : Value} {fallback : String} {r : Resource}
    (h : ofValue v fallback = .ok r) (hsame : SameIdentity v w) :
    ofValue w fallback = .ok { r with contents := w } := by
  obtain ⟨-, hkind, hversion, metadata, hmetadata, hname, hcomponent⟩ := ofValue_eq_ok_iff.mp h
  obtain ⟨metadata', hmetadata', hname', hlabel⟩ := hsame.metadata metadata hmetadata
  refine ofValue_eq_ok_iff.mpr ⟨rfl, ?_, ?_, metadata', hmetadata', ?_, ?_⟩
  · rw [hsame.kind, hkind]
  · rw [hsame.apiVersion, hversion]
  · rw [hname', hname]
  · rw [hlabel, hcomponent]

/-- The component that was read is found again, or is the one to fall back on. -/
theorem ofValue_component {v : Value} {fallback : String} {r : Resource}
    (h : ofValue v fallback = .ok r) : ofValue r.contents r.component = .ok r := by
  obtain ⟨rfl, hkind, hversion, metadata, hmetadata, hname, hcomponent⟩ := ofValue_eq_ok_iff.mp h
  refine ofValue_eq_ok_iff.mpr ⟨rfl, hkind, hversion, metadata, hmetadata, hname, ?_⟩
  rw [hcomponent]
  cases labelledComponent? (.object metadata) <;> rfl

theorem ofValue_of_made {r : Resource} (h : Made r) :
    ofValue r.contents r.component = .ok r := by
  induction h with
  | ofValue h => exact ofValue_component h
  | ofNode h =>
      obtain ⟨contents, -, h⟩ := ofNode_eq_ok_iff.mp h
      exact ofValue_component h
  | @patch r _ ih =>
      exact ofValue_of_sameIdentity ih (sameIdentity_patchContents r.kind r.contents)

end Resource

end Manifest

end ManifestTypes
