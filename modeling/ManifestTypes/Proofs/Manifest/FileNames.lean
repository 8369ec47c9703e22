import ManifestTypes.Proofs.Manifest.Leaves

/-!
# Names of files

A file is named for the component, the kind and the name of its resource, with dots in between.
Kinds and names may hold dots of their own, so two resources of a component can have one name.
-/

namespace ManifestTypes

/-- Lists that are made from pairs with different keys hold nothing twice if each item tells its
key. -/
theorem Keyed.nodup_flatMap {κ α β : Type} {pairs : Keyed κ α} (h : (keys pairs).Nodup)
    {f : κ × α → List β} (key : β → κ) (hkey : ∀ p, ∀ b ∈ f p, key b = p.1)
    (hf : ∀ p ∈ pairs, (f p).Nodup) : (pairs.flatMap f).Nodup := by
  have hapart : pairs.Pairwise fun p q => p.1 ≠ q.1 := List.pairwise_map.mp h
  refine List.nodup_flatMap.mpr ⟨hf, hapart.imp fun {p q} hne b hp hq => ?_⟩
  exact hne ((hkey p b hp).symm.trans (hkey q b hq))

namespace Manifest

/-- Where two texts around a dot join to the same, one of the dots may be another one of the
whole. -/
theorem append_dot_eq_iff {before after before' after' : String} :
    before ++ "." ++ after = before' ++ "." ++ after' ↔
      before = before' ∧ after = after' ∨
        (∃ text, before' = before ++ "." ++ text ∧ after = text ++ "." ++ after') ∨
          ∃ text, before = before' ++ "." ++ text ∧ after' = text ++ "." ++ after := by
  have hdot (s t : String) : (s ++ "." ++ t).toList = s.toList ++ '.' :: t.toList := by
    simp [String.toList_append]
  constructor
  · intro h
    rw [← String.toList_inj, hdot, hdot, List.append_eq_append_iff] at h
    rcases h with ⟨more, hbefore, hafter⟩ | ⟨more, hbefore, hafter⟩ <;>
      rcases List.cons_eq_append_iff.mp hafter with ⟨rfl, hsame⟩ | ⟨text, rfl, htext⟩
    · exact .inl ⟨by simp_all [← String.toList_inj], by simp_all [← String.toList_inj]⟩
    · refine .inr (.inl ⟨String.ofList text, ?_, ?_⟩) <;> simp_all [← String.toList_inj]
    · exact .inl ⟨by simp_all [← String.toList_inj], by simp_all [← String.toList_inj]⟩
    · refine .inr (.inr ⟨String.ofList text, ?_, ?_⟩) <;> simp_all [← String.toList_inj]
  · rintro (⟨rfl, rfl⟩ | ⟨text, rfl, rfl⟩ | ⟨text, rfl, rfl⟩) <;> simp [String.append_assoc]

namespace Resource

theorem fileName_eq (r : Resource) :
    r.fileName = r.component ++ "." ++ (r.kind ++ "." ++ r.name) ++ ".yaml" := by
  rw [fileName, String.intercalate_cons_cons, String.intercalate_cons_cons,
    String.intercalate_cons_cons, String.intercalate_singleton]
  simp [String.append_assoc]

/-- The directory and the name of the file of a resource. -/
def filePlace (r : Resource) : String × String :=
  (r.component, r.fileName)

/-- Both belong to one component, and the kind of the second is longer than that of the first by
a dot and what its name is shorter by. -/
def MovesDot (r r' : Resource) : Prop :=
  r.component = r'.component ∧
    ∃ text, r'.kind = r.kind ++ "." ++ text ∧ r.name = text ++ "." ++ r'.name

theorem filePlace_eq_iff {r r' : Resource} :
    r.filePlace = r'.filePlace ↔ r.place = r'.place ∨ r.MovesDot r' ∨ r'.MovesDot r := by
  have hplace : r.place = r'.place ↔
      r.component = r'.component ∧ r.kind = r'.kind ∧ r.name = r'.name := by
    simp [place]
  have hfile : r.filePlace = r'.filePlace ↔ r.component = r'.component ∧
      r.kind ++ "." ++ r.name = r'.kind ++ "." ++ r'.name := by
    rw [filePlace, filePlace, Prod.mk.injEq]
    refine and_congr_right fun hcomponent => ?_
    rw [fileName_eq, fileName_eq, String.append_left_inj, hcomponent, String.append_right_inj]
  rw [hfile, append_dot_eq_iff, hplace]
  unfold MovesDot
  grind

theorem MovesDot.place_ne {r r' : Resource} (h : r.MovesDot r') : r.place ≠ r'.place := by
  obtain ⟨-, text, hkind, -⟩ := h
  intro hplace
  have hsame : r.kind = r'.kind := by
    simp only [place, List.cons.injEq] at hplace
    exact hplace.2.1
  have hlength := congrArg String.length (hsame.trans hkind)
  simp only [String.length_append] at hlength
  have hdot : ".".length = 1 := rfl
  omega

theorem MovesDot.dot_mem_kind {r r' : Resource} (h : r.MovesDot r') : '.' ∈ r'.kind.toList := by
  obtain ⟨-, text, hkind, -⟩ := h
  simp [hkind, String.toList_append]

end Resource

/-- No two resources of a record have the component, the kind and the name in common. -/
theorem nodup_places_ofRecord {v : Value} (h : v.Distinct) {s : ResourceSet}
    (hs : ResourceSet.ofRecord v = .ok s) : (s.resources.map Resource.place).Nodup := by
  obtain ⟨-, rfl⟩ := ofRecord_eq_ok_iff.mp hs
  obtain ⟨hcomponents, hrest⟩ := Manifests.distinct_ofValue h
  have hplaces : (ResourceSet.ofList (Manifests.ofValue v).resources).resources.map
      Resource.place = (Manifests.ofValue v).flatMap fun component =>
        component.2.flatMap fun kind => (Keyed.keys kind.2).map fun name =>
          [component.1, kind.1, name] := by
    rw [Manifests.resources_ofList hcomponents, Manifests.resources_eq]
    simp only [List.map_flatMap, List.map_map, Keyed.keys, Function.comp_def, Resource.place,
      Manifests.resource]
  rw [hplaces]
  refine Keyed.nodup_flatMap hcomponents (·.headD "") ?component fun component hcomponent => ?kinds
  case component =>
    simp only [List.mem_flatMap, List.mem_map]
    rintro component _ ⟨kind, -, name, -, rfl⟩
    rfl
  case kinds =>
    obtain ⟨hkinds, hnames⟩ := hrest component hcomponent
    refine Keyed.nodup_flatMap hkinds (·.getD 1 "") ?kind fun kind hkind => ?names
    case kind =>
      simp only [List.mem_map]
      rintro kind _ ⟨name, -, rfl⟩
      rfl
    case names =>
      refine (hnames kind hkind).map fun name name' hsame => ?_
      cases hsame
      rfl

/-- So the files are apart exactly if no dot moves between the kind and the name of two of its
resources. -/
theorem nodup_filePlaces_iff {resources : List Resource}
    (h : (resources.map Resource.place).Nodup) :
    (resources.map Resource.filePlace).Nodup ↔
      ∀ r ∈ resources, ∀ r' ∈ resources, ¬ r.MovesDot r' := by
  have hresources : resources.Nodup := h.of_map
  rw [List.nodup_map_iff_inj_on hresources] at h ⊢
  constructor
  · intro hinj r hr r' hr' hmoves
    have hsame : r = r' := hinj r hr r' hr' (Resource.filePlace_eq_iff.mpr (.inr (.inl hmoves)))
    exact hmoves.place_ne (hsame ▸ rfl)
  · intro hnone r hr r' hr' hsame
    rcases Resource.filePlace_eq_iff.mp hsame with hplace | hmoves | hmoves
    · exact h r hr r' hr' hplace
    · exact absurd hmoves (hnone r hr r' hr')
    · exact absurd hmoves (hnone r' hr' r hr)

end Manifest

end ManifestTypes
