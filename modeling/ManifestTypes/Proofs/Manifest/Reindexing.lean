import ManifestTypes.Proofs.Manifest.Conversions

/-!
# Indexing again

In an indexed value no list of named objects is left for another run to convert, so this changes
nothing.
-/

namespace ManifestTypes

/-- An attempt without a fault is done. -/
theorem Attempt.toExcept_eq_ok_iff {ε α : Type} {a : Attempt ε α} {value : α} :
    a.toExcept = .ok value ↔ a = .done value := by
  rcases a with ⟨_, _ | e⟩ <;> simp [toExcept, done]

namespace Value

theorem mem_reachedAt_self (key : String) (v : Value) : ⟨[], key, v⟩ ∈ reachedAt (some key) v := by
  rw [reachedAt_eq]
  exact List.mem_append_left _ (List.mem_singleton_self _)

theorem mem_reachedAt_under {key? : Option String} {v : Value} {p : Step × Value} {m : Reached}
    (hp : p ∈ entered key? v) (hm : m ∈ reachedAt p.1.key? p.2) :
    m.under p.1 ∈ reachedAt key? v := by
  rw [reachedAt_eq]
  exact List.mem_append_right _ (List.mem_flatMap.mpr ⟨p, hp, List.mem_map_of_mem hm⟩)

/-! ## No list is left to convert -/

theorem not_isNamedList_of_indexedMember {key : String} {v w : Value}
    (h : indexedMember key v = .ok w) : ¬ w.IsNamedList := by
  cases treatment (some key) v with
  | refused key' hkey hmixed hentered hindexed => cases hindexed.symm.trans h
  | converted key' elements hkey hlist hnamed hall hentered hindexed =>
      obtain ⟨members, -, rfl⟩ := map_eq_ok_iff.mp (hindexed.symm.trans h)
      exact not_isNamedList_of_not_list rfl
  | list elements hlist hunnamed hentered hindexed =>
      obtain ⟨elements', helements, rfl⟩ := map_eq_ok_iff.mp (hindexed.symm.trans h)
      rw [isNamedList_of_forall₂ (mapM_eq_ok_iff.mp helements), ← hlist]
      exact hunnamed rfl
  | object members hobject hentered hindexed =>
      obtain ⟨members', -, rfl⟩ := map_eq_ok_iff.mp (hindexed.symm.trans h)
      exact not_isNamedList_of_not_list rfl
  | atom helements hmembers hentered hindexed =>
      cases hindexed.symm.trans h
      exact not_isNamedList_of_not_list helements

theorem not_isNamedList_of_reached {v w : Value} (h : indexed v = .ok w) :
    ∀ m ∈ w.reached, ¬ m.value.IsNamedList := by
  intro m' hm'
  obtain ⟨m, -, hbecomes⟩ := related_of_mem_right (reached_indexed h) hm'
  exact not_isNamedList_of_indexedMember hbecomes.value

/-! ## Values that stay as they are -/

theorem indexedAt_eq_self {key? : Option String} {v : Value}
    (h : ∀ m ∈ reachedAt key? v, ¬ m.value.IsNamedList) : indexedAt key? v = .ok v := by
  induction key?, v using reachedAt.induct with
  | case1 key? v ih =>
      have hinside : ∀ p ∈ entered key? v, indexedAt p.1.key? p.2 = .ok p.2 :=
        fun p hp => ih p hp fun m hm => h (m.under p.1) (mem_reachedAt_under hp hm)
      cases treatment key? v with
      | refused key hkey hmixed hentered hindexed =>
          subst hkey
          exact absurd hmixed.isNamedList (h _ (mem_reachedAt_self key v))
      | converted key elements hkey hlist hnamed hall hentered hindexed =>
          subst hkey
          exact absurd hnamed (h _ (mem_reachedAt_self key v))
      | list elements hlist hunnamed hentered hindexed =>
          have helements : ∀ x ∈ elements, indexed x = .ok x := by
            intro x hx
            rw [← map_snd_elementSteps elements] at hx
            obtain ⟨p, hp, rfl⟩ := List.mem_map.mp hx
            have hx := hinside p (hentered ▸ hp)
            rwa [key?_of_mem_elementSteps hp] at hx
          rw [hindexed, mapM_eq_ok_iff.mpr (List.forall₂_same.mpr helements), hlist]
          rfl
      | object members hobject hentered hindexed =>
          have hmembers : ∀ m ∈ members, indexedMember m.1 m.2 = .ok m.2 := by
            intro m hm
            refine hinside (.member m.1, m.2) ?_
            rw [hentered]
            exact List.mem_map_of_mem hm
          have hsame : Keyed.traverse indexedMember members = .ok members :=
            Keyed.traverse_eq_ok_iff.mpr
              (List.forall₂_same.mpr fun m hm => ⟨rfl, hmembers m hm⟩)
          rw [hindexed, hsame, hobject]
          rfl
      | atom helements hmembers hentered hindexed => exact hindexed

theorem indexed_eq_self_iff {v : Value} :
    indexed v = .ok v ↔ ∀ m ∈ v.reached, ¬ m.value.IsNamedList :=
  ⟨not_isNamedList_of_reached, @indexedAt_eq_self none v⟩

theorem map_name?_of_forall₂ {elements elements' : List Value}
    (h : List.Forall₂ (fun v w => indexed v = .ok w) elements elements') :
    elements'.map name? = elements.map name? := by
  induction h with
  | nil => rfl
  | cons hv _ ih => rw [List.map_cons, List.map_cons, ih, name?_of_indexed hv]

theorem names_of_indexedMember {key : String} {elements elements' : List Value}
    (h : indexedMember key (.list elements) = .ok (.list elements')) :
    elements'.map name? = elements.map name? := by
  have hlist := listBecomes_indexedMember h
  by_cases hnamed : IsNamedList (.list elements)
  · obtain ⟨_, _, hobject, -⟩ := hlist.converted hnamed
    cases hobject
  · obtain ⟨_, hsame, hrelated⟩ := hlist.kept hnamed
    cases hsame
    exact map_name?_of_forall₂ hrelated

/-- An indexed value is as it is after any further run, and no list in it is left that a run would
convert or refuse. Lists that have stayed lists have elements with the names that they had before,
or with none. -/
theorem indexing_settles {v w : Value} (h : v.indexLists.toExcept = .ok w) :
    w.indexLists = .done w ∧ (∀ m ∈ w.reached, ¬ m.value.IsNamedList) ∧
    List.Forall₂ (fun m m' => m'.path = m.path ∧ m'.key = m.key ∧
      ∀ elements elements', m.value = .list elements → m'.value = .list elements' →
        elements'.map name? = elements.map name?) v.reached w.reached := by
  have hsettled : ∀ m ∈ w.reached, ¬ m.value.IsNamedList := not_isNamedList_of_reached h
  refine ⟨Attempt.toExcept_eq_ok_iff.mp (indexed_eq_self_iff.mpr hsettled), hsettled, ?_⟩
  refine (reached_indexed h).imp fun m m' hm => ⟨hm.path, hm.key, ?_⟩
  intro elements elements' hlist hlist'
  have hvalue := hm.value
  rw [hlist, hlist'] at hvalue
  exact names_of_indexedMember hvalue

/-- Below `name` stands a list in the first element, and an object called `name` once it is
indexed. -/
theorem indexing_settles_calledName :
    let named : Value := .object [("name", .string "name")]
    let v : Value := .object [("items", .list [.object [("name", .list [named])], named])]
    let w : Value := .object
      [("items", .list [.object [("name", .object [("name", named)])], named])]
    v.indexLists.toExcept = .ok w ∧ w.indexLists = .done w ∧
    (∀ m ∈ w.reached, ¬ m.value.IsNamedList) ∧
    List.Forall₂ (fun m m' => m'.path = m.path ∧ m'.key = m.key ∧
      ∀ elements elements', m.value = .list elements → m'.value = .list elements' →
        elements'.map name? = elements.map name?) v.reached w.reached :=
  ⟨rfl, indexing_settles rfl⟩

end Value

end ManifestTypes
