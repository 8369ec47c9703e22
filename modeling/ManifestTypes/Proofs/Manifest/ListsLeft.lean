import ManifestTypes.Proofs.Manifest.References
import ManifestTypes.Proofs.Manifest.Reindexing

/-!
# Lists of named objects that are left

Indexing converts the lists of named objects that are members of objects. A value that is such a
list itself stays a list, and so do the ones that stand directly in lists.
-/

namespace ManifestTypes.Value

/-! ## What a walk comes to -/

def lastKey? (path : List Step) : Option String :=
  path.getLast?.bind Step.key?

/-- A walk through the value comes to another one at the end of the path. -/
inductive ComesTo (v : Value) : List Step → Value → Prop
  | here : ComesTo v [] v
  | inside {path : List Step} {x : Value} {p : Step × Value} (hx : ComesTo v path x)
      (hp : p ∈ entered (lastKey? path) x) : ComesTo v (path ++ [p.1]) p.2

theorem lastKey?_concat (path : List Step) (step : Step) :
    lastKey? (path ++ [step]) = step.key? := by
  simp [lastKey?]

/-- Where a walk through a value comes to, one through the indexed value comes to the same value
indexed. -/
theorem ComesTo.indexed {v w : Value} (h : indexed v = .ok w) {path : List Step} {x : Value}
    (hx : v.ComesTo path x) : ∃ y, w.ComesTo path y ∧ indexedAt (lastKey? path) x = .ok y := by
  induction hx with
  | here => exact ⟨w, .here, h⟩
  | @inside path x p _ hp ih =>
      obtain ⟨y, hy, hxy⟩ := ih
      obtain ⟨q, hq, hstep, hvalue⟩ := related_of_mem_right (entered_indexedAt hxy).flip hp
      refine ⟨q.2, ?_, ?_⟩
      · rw [hstep]
        exact hy.inside hq
      · rw [lastKey?_concat]
        exact hvalue

/-- A walk through an indexed value comes to nothing else. -/
theorem ComesTo.of_indexed {v w : Value} (h : Value.indexed v = .ok w) {path : List Step}
    {y : Value} (hy : w.ComesTo path y) :
    ∃ x, v.ComesTo path x ∧ indexedAt (lastKey? path) x = .ok y := by
  induction hy with
  | here => exact ⟨v, .here, h⟩
  | @inside path y q _ hq ih =>
      obtain ⟨x, hx, hxy⟩ := ih
      obtain ⟨p, hp, hstep, hvalue⟩ := related_of_mem_right (entered_indexedAt hxy) hq
      rw [← hstep, lastKey?_concat]
      exact ⟨p.2, hx.inside hp, hvalue⟩

/-! ## Which lists are left -/

/-- A list of named objects is left exactly where no key leads to one. -/
theorem isNamedList_indexedAt_iff {key? : Option String} {x y : Value}
    (h : indexedAt key? x = .ok y) : y.IsNamedList ↔ key? = none ∧ x.IsNamedList := by
  cases key? with
  | some key => simp [not_isNamedList_of_indexedMember h]
  | none =>
      rw [and_iff_right rfl]
      cases treatment none x with
      | refused key hkey hmixed hentered hindexed => cases hkey
      | converted key elements hkey hlist hnamed hall hentered hindexed => cases hkey
      | list elements hlist hunnamed hentered hindexed =>
          obtain ⟨elements', helements, rfl⟩ := map_eq_ok_iff.mp (hindexed.symm.trans h)
          rw [hlist]
          exact isNamedList_of_forall₂ (mapM_eq_ok_iff.mp helements)
      | object members hobject hentered hindexed =>
          obtain ⟨members', -, rfl⟩ := map_eq_ok_iff.mp (hindexed.symm.trans h)
          rw [hobject]
          exact iff_of_false (not_isNamedList_of_not_list rfl) (not_isNamedList_of_not_list rfl)
      | atom helements hmembers hentered hindexed =>
          cases hindexed.symm.trans h
          rfl

theorem comesTo_isNamedList_iff {v w : Value} (h : indexed v = .ok w) {path : List Step}
    {y : Value} :
    w.ComesTo path y ∧ y.IsNamedList ↔
      lastKey? path = none ∧
        ∃ x, v.ComesTo path x ∧ x.IsNamedList ∧ indexed x = .ok y := by
  constructor
  · rintro ⟨hy, hnamed⟩
    obtain ⟨x, hx, hxy⟩ := hy.of_indexed h
    obtain ⟨hkey, hxnamed⟩ := (isNamedList_indexedAt_iff hxy).mp hnamed
    rw [hkey] at hxy
    exact ⟨hkey, x, hx, hxnamed, hxy⟩
  · rintro ⟨hkey, x, hx, hxnamed, hxy⟩
    obtain ⟨y', hy', hxy'⟩ := hx.indexed h
    rw [hkey] at hxy'
    cases hxy.symm.trans hxy'
    exact ⟨hy', (isNamedList_indexedAt_iff hxy').mpr ⟨rfl, hxnamed⟩⟩

/-- What stands in a value is entered, unless it stands in a list of named objects below a key. -/
theorem mem_entered_of_step? {key? : Option String} {v x : Value} {step : Step}
    (hunnamed : key?.isSome → ¬ v.IsNamedList) (h : v.step? step = some x) :
    (step, x) ∈ entered key? v := by
  cases step with
  | element i =>
      obtain ⟨elements, hlist, hx⟩ := Option.bind_eq_some_iff.mp h
      cases v with
      | list elements =>
          cases hlist
          rw [entered_list hunnamed]
          refine List.mem_map.mpr ⟨(x, i), ?_, rfl⟩
          exact List.mem_zipIdx_iff_getElem?.mpr hx
      | _ => cases hlist
  | member key =>
      obtain ⟨members, hobject, hx⟩ := Option.bind_eq_some_iff.mp h
      cases v with
      | object members =>
          cases hobject
          exact List.mem_map_of_mem (f := fun m : String × Value => (Step.member m.1, m.2))
            (Keyed.mem_of_get?_eq_some hx)
      | _ => cases hobject

theorem comesTo_of_at? {v w x : Value} (h : indexed v = .ok w) {path : List Step}
    (hx : w.at? path = some x) : w.ComesTo path x := by
  induction path using List.reverseRecOn generalizing x with
  | nil =>
      cases hx
      exact .here
  | append_singleton path step ih =>
      rw [at?_concat] at hx
      obtain ⟨y, hy, hstep⟩ := Option.bind_eq_some_iff.mp hx
      have hcomes := ih hy
      refine hcomes.inside (p := (step, x)) (mem_entered_of_step? ?_ hstep)
      intro hkey hnamed
      obtain ⟨hnone, -⟩ := (comesTo_isNamedList_iff h).mp ⟨hcomes, hnamed⟩
      rw [hnone] at hkey
      cases hkey

/-- The lists of named objects in an indexed value are those of the value before to which no key
leads: the value itself, or what stands directly in a list. None is left as a member of an
object. -/
theorem named_lists_left {v w : Value} (h : v.indexLists.toExcept = .ok w) :
    (∀ path x, w.at? path = some x → w.ComesTo path x) ∧
    ∀ path y, w.ComesTo path y ∧ y.IsNamedList ↔
      lastKey? path = none ∧
        ∃ x, v.ComesTo path x ∧ x.IsNamedList ∧ x.indexLists.toExcept = .ok y :=
  ⟨fun _ _ => comesTo_of_at? h, fun _ _ => comesTo_isNamedList_iff h⟩

def called (name : String) : Value :=
  .object [("name", .string name)]

theorem named_lists_left_nested :
    let v : Value := .object
      [("hosts", .list [.list [called "a"]]), ("ports", .list [called "http"])]
    let w : Value := .object
      [("hosts", .list [.list [called "a"]]), ("ports", .object [("http", called "http")])]
    v.indexLists.toExcept = .ok w ∧
    (∀ path x, w.at? path = some x → w.ComesTo path x) ∧
    ∀ path y, w.ComesTo path y ∧ y.IsNamedList ↔
      lastKey? path = none ∧
        ∃ x, v.ComesTo path x ∧ x.IsNamedList ∧ x.indexLists.toExcept = .ok y :=
  ⟨rfl, named_lists_left rfl⟩

/-- A list of named objects stays one if it is the whole value, and as the element of a list. -/
theorem indexing_leaves_named_lists :
    let alone : Value := .list [called "a"]
    let nested : Value := .object [("hosts", .list [alone])]
    alone.IsNamedList ∧
    (alone.indexLists.toExcept = .ok alone ∧ alone.at? [] = some alone) ∧
    nested.indexLists.toExcept = .ok nested ∧
      nested.at? [.member "hosts", .element 0] = some alone :=
  ⟨⟨called "a", [], rfl, rfl⟩, ⟨rfl, rfl⟩, rfl, rfl⟩

end ManifestTypes.Value
