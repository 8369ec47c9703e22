import ManifestTypes.Proofs.Manifest.Entering
import ManifestTypes.Proofs.Manifest.Skeletons

/-!
# What lists of named objects become

Where indexing succeeds, it leaves every list that it comes to in its place, as a list or as an
object. The object has the last element of each name, so elements are lost if names come twice.
-/

namespace ManifestTypes.Value

open Manifest (Fault)

/-! ## Places -/

theorem isNamed_of_indexed {v w : Value} (h : indexed v = .ok w) : w.isNamed = v.isNamed := by
  rw [isNamed, name?_of_indexed h, isNamed]

/-- A list that stays a list has elements with the same names as before. -/
theorem isNamedList_of_forall₂ {elements elements' : List Value}
    (h : List.Forall₂ (fun v w => indexed v = .ok w) elements elements') :
    IsNamedList (.list elements') ↔ IsNamedList (.list elements) := by
  cases h with
  | nil => rfl
  | cons hfirst _ => simp [IsNamedList, isNamed_of_indexed hfirst]

theorem related_elementSteps {R : Value → Value → Prop} {elements elements' : List Value}
    (h : List.Forall₂ R elements elements') :
    Keyed.Related (fun _ => R) (elementSteps elements) (elementSteps elements') := by
  suffices hfrom : ∀ i, List.Forall₂ (fun p q => p.2 = q.2 ∧ R p.1 q.1) (elements.zipIdx i)
      (elements'.zipIdx i) by
    exact List.rel_map (fun p q hpq => ⟨congrArg Step.element hpq.1, hpq.2⟩) (hfrom 0)
  induction h with
  | nil => exact fun _ => .nil
  | cons hv _ ih => exact fun i => .cons ⟨rfl, hv⟩ (ih (i + 1))

theorem related_memberSteps {S : Step → Value → Value → Prop}
    {members members' : Keyed String Value}
    (h : Keyed.Related (fun key => S (.member key)) members members') :
    Keyed.Related S (memberSteps members) (memberSteps members') :=
  List.rel_map (fun _ _ hm => ⟨congrArg Step.member hm.1, hm.2⟩) h

theorem entered_list {key? : Option String} {elements : List Value}
    (h : key?.isSome → ¬ IsNamedList (.list elements)) :
    entered key? (.list elements) = elementSteps elements := by
  cases elements with
  | nil => rfl
  | cons first rest => rw [entered, if_neg fun hnamed => h hnamed.1 ⟨first, rest, rfl, hnamed.2⟩]

/-- Named elements are objects, so each is indexed like a member below its name. -/
theorem related_lastOfNames {elements : List Value} {members : Keyed String Value}
    (hall : ∀ x ∈ elements, x.isNamed)
    (h : Keyed.Related (fun _ v w => indexed v = .ok w) (lastOfNames elements) members) :
    Keyed.Related (fun key v w => indexedMember key v = .ok w) (lastOfNames elements) members := by
  refine h.imp_of_mem fun m hm w hw => ?_
  have hnamed := hall m.2 (mem_of_mem_lastOfNames hm)
  rwa [indexedMember_of_not_list (elements?_of_isNamed hnamed)]

/-- What is entered from an indexed value is what was entered from the value, itself indexed. -/
theorem entered_indexedAt {key? : Option String} {v w : Value} (h : indexedAt key? v = .ok w) :
    Keyed.Related (fun step x y => indexedAt step.key? x = .ok y) (entered key? v)
      (entered key? w) := by
  cases treatment key? v with
  | refused key hkey hmixed hentered hindexed => cases hindexed.symm.trans h
  | converted key elements hkey hlist hnamed hall hentered hindexed =>
      obtain ⟨members, hmembers, rfl⟩ := map_eq_ok_iff.mp (hindexed.symm.trans h)
      rw [hentered]
      exact related_memberSteps (related_lastOfNames hall (Keyed.traverse_eq_ok_iff.mp hmembers))
  | list elements hlist hunnamed hentered hindexed =>
      obtain ⟨elements', helements, rfl⟩ := map_eq_ok_iff.mp (hindexed.symm.trans h)
      have hrelated := mapM_eq_ok_iff.mp helements
      rw [hlist, ← isNamedList_of_forall₂ hrelated] at hunnamed
      rw [hentered, entered_list hunnamed]
      refine (related_elementSteps hrelated).imp_of_mem fun p hp y hy => ?_
      rwa [key?_of_mem_elementSteps hp]
  | object members hobject hentered hindexed =>
      obtain ⟨members', hmembers, rfl⟩ := map_eq_ok_iff.mp (hindexed.symm.trans h)
      rw [hentered]
      exact related_memberSteps (Keyed.traverse_eq_ok_iff.mp hmembers)
  | atom helements hmembers hentered hindexed =>
      cases hindexed.symm.trans h
      rw [hentered]
      exact .nil

/-- A place in a value and the same place in the indexed value. -/
structure BecomesAt (m m' : Reached) : Prop where
  path : m'.path = m.path
  key : m'.key = m.key
  value : indexedMember m.key m.value = .ok m'.value

theorem BecomesAt.under {m m' : Reached} (h : BecomesAt m m') (step : Step) :
    BecomesAt (m.under step) (m'.under step) :=
  ⟨congrArg (step :: ·) h.path, h.key, h.value⟩

theorem reachedAt_indexedAt {key? : Option String} {v w : Value} (h : indexedAt key? v = .ok w) :
    List.Forall₂ BecomesAt (reachedAt key? v) (reachedAt key? w) := by
  induction key?, v using reachedAt.induct generalizing w with
  | case1 key? v ih =>
      rw [reachedAt_eq, reachedAt_eq]
      refine List.rel_append ?here ?inside
      case here =>
        cases key? with
        | none => exact .nil
        | some key => exact .cons ⟨rfl, rfl, h⟩ .nil
      case inside =>
        have hentered : Keyed.Related (fun step x y =>
            List.Forall₂ BecomesAt (reachedAt step.key? x) (reachedAt step.key? y))
            (entered key? v) (entered key? w) :=
          (entered_indexedAt h).imp_of_mem fun p hp _ hy => ih p hp hy
        refine List.rel_flatMap hentered ?_
        rintro ⟨step, x⟩ ⟨_, y⟩ ⟨rfl, hsame⟩
        exact List.rel_map (fun _ _ hm => hm.under step) hsame

/-- A walk through an indexed value comes to the same places as one through the value before. -/
theorem reached_indexed {v w : Value} (h : indexed v = .ok w) :
    List.Forall₂ BecomesAt v.reached w.reached :=
  @reachedAt_indexedAt none v w h

/-! ## Lists and what they become -/

theorem length_eraseDups_iff (names : List String) :
    names.eraseDups.length = names.length ↔ names.Nodup := by
  have hnodup : names.eraseDups.Nodup := Keyed.nodup_eraseDups names
  constructor
  · intro hlength
    have hsubperm := List.subperm_of_subset hnodup fun name hname => List.mem_eraseDups.mp hname
    exact (hsubperm.perm_of_length_le (Nat.le_of_eq hlength.symm)).nodup_iff.mp hnodup
  · intro h
    exact ((List.perm_ext_iff_of_nodup hnodup h).mpr fun name => List.mem_eraseDups).length_eq

/-- Nothing of a list is lost: in the place of each element stands a member below its name, which
is the element indexed. -/
def Complete (elements : List Value) (members : Keyed String Value) : Prop :=
  List.Forall₂ (fun v m => v.name? = some m.1 ∧ indexed v = .ok m.2) elements members

/-- What a list of objects with these names is converted to: an object with each name once, in the
order in which they first occur, and below it the last element of that name, indexed. So nothing is
lost exactly if no name comes twice, and else there are fewer members than elements. -/
structure ConvertedTo (names : List String) (elements : List Value)
    (members : Keyed String Value) : Prop where
  named : elements.map name? = names.map some
  keys : Keyed.keys members = names.eraseDups
  values : ∀ m ∈ members, ∃ before last after, elements = before ++ last :: after ∧
    last.name? = some m.1 ∧ (∀ x ∈ after, x.name? ≠ some m.1) ∧ indexed last = .ok m.2
  complete_iff : Complete elements members ↔ names.Nodup
  length_eq_iff : members.length = elements.length ↔ names.Nodup

theorem keys_lastOfNames (elements : List Value) :
    Keyed.keys (lastOfNames elements) = (elements.map nameKey).eraseDups := by
  rw [← byName_eq_lastOfNames, byName, Keyed.ofList_map_eq_gather nameKey fun v => v,
    Keyed.keys_gather]

theorem lastOfNames_of_nodup {elements : List Value} (h : (elements.map nameKey).Nodup) :
    lastOfNames elements = elements.map fun v => (v.nameKey, v) := by
  rw [← byName_eq_lastOfNames, byName, Keyed.ofList_of_nodup]
  simpa only [Keyed.keys, List.map_map, Function.comp_def] using h

theorem keys_of_complete {elements : List Value} {members : Keyed String Value}
    (h : Complete elements members) : Keyed.keys members = elements.map nameKey := by
  induction h with
  | nil => rfl
  | cons hv _ ih =>
      rw [List.map_cons, ← ih, nameKey, hv.1]
      rfl

theorem name?_of_isNamed {v : Value} (h : v.isNamed = true) : v.name? = some v.nameKey := by
  obtain ⟨name, hname⟩ := Option.isSome_iff_exists.mp h
  rw [nameKey, hname, Option.getD_some]

section Elements

variable {elements : List Value} (hall : ∀ x ∈ elements, x.isNamed)
include hall

theorem exists_of_mem_lastOfNames {m : String × Value} (h : m ∈ lastOfNames elements) :
    ∃ before after, elements = before ++ m.2 :: after ∧ m.2.name? = some m.1 ∧
      ∀ x ∈ after, x.name? ≠ some m.1 := by
  obtain ⟨name, -, hlast⟩ := List.mem_filterMap.mp h
  obtain ⟨v, hv, rfl⟩ := Option.map_eq_some_iff.mp hlast
  obtain ⟨before, after, helements, hname, hafter⟩ :=
    Keyed.exists_of_getLast?_filter hv
  refine ⟨before, after, helements, ?_, fun x hx => ?_⟩
  · rw [name?_of_isNamed (hall v (by simp [helements])), beq_iff_eq.mp hname]
  · rw [name?_of_isNamed (hall x (by simp [helements, hx])), ne_eq, Option.some.injEq, ← beq_iff_eq]
    exact hafter x hx

theorem complete_iff_nodup {members : Keyed String Value}
    (h : Keyed.Related (fun _ v w => indexed v = .ok w) (lastOfNames elements) members) :
    Complete elements members ↔ (elements.map nameKey).Nodup := by
  constructor
  · intro hcomplete
    rw [← keys_of_complete hcomplete, ← h.keys_eq, keys_lastOfNames]
    exact Keyed.nodup_eraseDups _
  · intro hnodup
    rw [lastOfNames_of_nodup hnodup] at h
    have hboth := (List.forall₂_and_left _ _).mpr ⟨hall, List.forall₂_map_left_iff.mp h⟩
    refine hboth.imp ?_
    rintro v m ⟨hv, hname, hindexed⟩
    exact ⟨(name?_of_isNamed hv).trans (congrArg some hname), hindexed⟩

theorem convertedTo_of_related {members : Keyed String Value}
    (h : Keyed.Related (fun _ v w => indexed v = .ok w) (lastOfNames elements) members) :
    ConvertedTo (elements.map nameKey) elements members := by
  have hkeys : Keyed.keys members = (elements.map nameKey).eraseDups := by
    rw [← h.keys_eq, keys_lastOfNames]
  refine ⟨?named, hkeys, ?values, complete_iff_nodup hall h, ?length⟩
  case named =>
    rw [List.map_map]
    exact List.map_congr_left fun x hx => name?_of_isNamed (hall x hx)
  case values =>
    intro m hm
    obtain ⟨m', hm', hkey, hvalue⟩ := related_of_mem_right h hm
    obtain ⟨before, after, helements, hname, hafter⟩ := exists_of_mem_lastOfNames hall hm'
    rw [hkey] at hname hafter
    exact ⟨before, m'.2, after, helements, hname, hafter, hvalue⟩
  case length =>
    rw [← length_eraseDups_iff, ← hkeys, Keyed.keys, List.length_map, List.length_map]

end Elements

/-- What has become of a list: one of named objects is converted, and any other stays a list. -/
structure ListBecomes (elements : List Value) (w : Value) : Prop where
  converted : IsNamedList (.list elements) →
    ∃ names members, w = .object members ∧ ConvertedTo names elements members
  kept : ¬ IsNamedList (.list elements) →
    ∃ elements', w = .list elements' ∧
      List.Forall₂ (fun x y => indexed x = .ok y) elements elements'

theorem listBecomes_indexedMember {key : String} {elements : List Value} {w : Value}
    (h : indexedMember key (.list elements) = .ok w) : ListBecomes elements w := by
  cases treatment (some key) (.list elements) with
  | refused key' hkey hmixed hentered hindexed => cases hindexed.symm.trans h
  | converted key' elements' hkey hlist hnamed hall hentered hindexed =>
      cases hlist
      obtain ⟨members, hmembers, rfl⟩ := map_eq_ok_iff.mp (hindexed.symm.trans h)
      have hconverted := convertedTo_of_related hall (Keyed.traverse_eq_ok_iff.mp hmembers)
      exact ⟨fun _ => ⟨_, members, rfl, hconverted⟩, fun hunnamed => absurd hnamed hunnamed⟩
  | list elements' hlist hunnamed hentered hindexed =>
      cases hlist
      obtain ⟨elements', helements, rfl⟩ := map_eq_ok_iff.mp (hindexed.symm.trans h)
      exact ⟨fun hnamed => absurd hnamed (hunnamed rfl),
        fun _ => ⟨elements', rfl, mapM_eq_ok_iff.mp helements⟩⟩
  | object members hobject hentered hindexed => cases hobject
  | atom helements hmembers hentered hindexed => cases helements

/-- Where indexing succeeds, every list of named objects that it comes to is converted to an object
of the last elements of all names, and no other list is converted. -/
theorem conversions_keep_last {v w : Value} (h : v.indexLists.toExcept = .ok w) :
    List.Forall₂ (fun m m' => m'.path = m.path ∧ m'.key = m.key ∧
      ∀ elements, m.value = .list elements → ListBecomes elements m'.value)
      v.reached w.reached := by
  refine (reached_indexed h).imp fun m m' hm => ⟨hm.path, hm.key, fun elements hlist => ?_⟩
  have hvalue := hm.value
  rw [hlist] at hvalue
  exact listBecomes_indexedMember hvalue

def mountAt (path : String) : Value :=
  .object [("name", .string "data"), ("mountPath", .string path)]

theorem conversions_keep_last_nested :
    let v : Value := .object [("containers", .list [.object [("name", .string "app"),
      ("volumeMounts", .list [mountAt "/cache", mountAt "/logs"])]])]
    let w : Value := .object [("containers", .object [("app", .object [("name", .string "app"),
      ("volumeMounts", .object [("data", mountAt "/logs")])])])]
    v.indexLists.toExcept = .ok w ∧
    List.Forall₂ (fun m m' => m'.path = m.path ∧ m'.key = m.key ∧
      ∀ elements, m.value = .list elements → ListBecomes elements m'.value)
      v.reached w.reached :=
  ⟨rfl, conversions_keep_last rfl⟩

/-- The one member of an object is reached first. -/
theorem reached_singleton (key : String) (v : Value) :
    ∃ inside, reached (.object [(key, v)]) = ⟨[.member key], key, v⟩ :: inside := by
  rw [reached, reachedAt_eq, entered, memberSteps, List.map_singleton, List.flatMap_singleton,
    reachedAt_eq]
  exact ⟨_, rfl⟩

/-- A volume that is mounted in two places has two mounts of one name, and only the last is kept. -/
theorem indexing_drops_mount :
    let v : Value := .object [("volumeMounts", .list [mountAt "/cache", mountAt "/logs"])]
    let w : Value := .object [("volumeMounts", .object [("data", mountAt "/logs")])]
    v.indexLists.toExcept = .ok w ∧
    ¬ List.Forall₂ (fun m m' => ∀ elements, m.value = .list elements → m.value.IsNamedList →
      ∃ members, m'.value = .object members ∧ Complete elements members)
      v.reached w.reached := by
  intro v w
  refine ⟨rfl, fun h => ?_⟩
  obtain ⟨insideBefore, hbefore⟩ :=
    reached_singleton "volumeMounts" (.list [mountAt "/cache", mountAt "/logs"])
  obtain ⟨insideAfter, hafter⟩ :=
    reached_singleton "volumeMounts" (.object [("data", mountAt "/logs")])
  rw [hbefore, hafter, List.forall₂_cons] at h
  obtain ⟨members, hmembers, hcomplete⟩ := h.1 _ rfl ⟨_, _, rfl, rfl⟩
  cases hmembers
  exact absurd hcomplete.length_eq (by decide)

end ManifestTypes.Value
