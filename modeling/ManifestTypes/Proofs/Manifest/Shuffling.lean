import ManifestTypes.Manifest.Schema
import ManifestTypes.Proofs.Manifest.Leaves
import ManifestTypes.Proofs.Manifest.Rereading
import ManifestTypes.Proofs.Value.Alike

/-!
# The order in which resources come

Resources can be inserted into a set in any order, as long as those of one component, kind and name
keep theirs. What is made of the set then differs in its order at most, and its record is
normalized in either case or in none.
-/

namespace ManifestTypes

/-! ## Members in another order -/

namespace Value

open Manifest (Fault)

def normalizedMember (key : String) (v : Value) : Except Fault Value :=
  indexedMember key (expandMember key v)

theorem normalized_eq_traverse (members : List (String × Value)) :
    normalized (.object members) =
      Value.object <$> Keyed.traverse normalizedMember members := by
  rw [normalized, expandImages_object, indexed_object, Keyed.traverse, List.mapM_map]
  rfl

theorem normalizedMember_object (key : String) (members : List (String × Value)) :
    normalizedMember key (.object members) = normalized (.object members) := by
  rw [normalizedMember, expandMember_of_not_string rfl, normalized, expandImages_object,
    indexedMember_of_not_list rfl]

/-- Two values are alike, and are normalized to values that are alike or not at all, also as
members. -/
structure AlikeThroughout (v w : Value) : Prop where
  alike : v.Alike w
  outcome : SameOutcome Alike v.normalized w.normalized
  member : ∀ key, SameOutcome Alike (normalizedMember key v) (normalizedMember key w)

theorem AlikeThroughout.refl (v : Value) : AlikeThroughout v v :=
  ⟨.refl v, .refl Alike.refl _, fun _ => .refl Alike.refl _⟩

/-- No pass asks for the order of members. -/
theorem alikeThroughout_object {members members' : List (String × Value)}
    (h : Keyed.Reordered (fun _ => AlikeThroughout) members members') :
    AlikeThroughout (.object members) (.object members') := by
  obtain ⟨sorted, hperm, hrelated⟩ := h
  have hnormalized : SameOutcome Alike (Value.normalized (.object members))
      (Value.normalized (.object members')) := by
    have hmembers : SameOutcome (Keyed.Related fun _ => Alike)
        (Keyed.traverse normalizedMember sorted) (Keyed.traverse normalizedMember members') :=
      SameOutcome.traverse (hrelated.imp fun _ _ hvalue => ⟨hvalue.1, hvalue.1 ▸ hvalue.2.member _⟩)
    rw [normalized_eq_traverse, normalized_eq_traverse]
    exact ((SameOutcome.mapM_perm hperm).trans hmembers).map
      fun _ _ ⟨_, hperm, halike⟩ => alike_object hperm halike
  refine ⟨?_, hnormalized, fun key => ?_⟩
  · exact alike_object hperm (hrelated.imp fun _ _ hvalue => ⟨hvalue.1, hvalue.2.alike⟩)
  · rw [normalizedMember_object, normalizedMember_object]
    exact hnormalized

/-- A level of objects, with what stands below each of its keys. -/
theorem alikeThroughout_level {α : Type} (inner : α → Value) {entries entries' : Keyed String α}
    (hkeys : (Keyed.keys entries).Nodup) (hkeys' : (Keyed.keys entries').Nodup)
    (h : ∀ key, Option.Rel (fun a a' => AlikeThroughout (inner a) (inner a'))
      (entries.get? key) (entries'.get? key)) :
    AlikeThroughout (.object (entries.map fun p => (p.1, inner p.2)))
      (.object (entries'.map fun p => (p.1, inner p.2))) := by
  refine alikeThroughout_object (Keyed.reordered_of_get? (by rwa [Keyed.keys_map])
    (by rwa [Keyed.keys_map]) fun key => ?_)
  have hkey := h key
  rw [Keyed.get?_map fun _ => inner, Keyed.get?_map fun _ => inner]
  generalize entries.get? key = found at hkey ⊢
  generalize entries'.get? key = found' at hkey ⊢
  cases hkey with
  | none => exact .none
  | some halike => exact .some halike

end Value

namespace Manifest

/-! ## Resources in another order -/

/-- The same resources in another order. Those of one component, kind and name keep theirs. -/
structure Shuffled (resources resources' : List Resource) : Prop where
  perm : resources.Perm resources'
  sameOrder : ∀ path,
    resources.filter (·.place == path) = resources'.filter (·.place == path)

def kindsValue (leaf : Resource → Value) (resources : List Resource) : Value :=
  .object <| (ResourceSet.byKind leaf resources).map fun kind => (kind.1, .object kind.2)

theorem group_eq (leaf : Resource → Value) (s : ResourceSet) :
    s.group leaf = .object (s.groups.map fun group => (group.1, kindsValue leaf group.2)) := rfl

theorem rel_of_perm {α : Type} {R : α → α → Prop} {resources resources' : List Resource}
    (hperm : resources.Perm resources') {a a' : α} (hrel : R a a') :
    Option.Rel R (if resources = [] then none else some a)
      (if resources' = [] then none else some a') := by
  by_cases hnil : resources = []
  · have hnil' : resources' = [] := List.nil_perm.mp (hnil ▸ hperm)
    rw [if_pos hnil, if_pos hnil']
    exact .none
  · have hnil' : resources' ≠ [] := fun heq => hnil (List.perm_nil.mp (heq ▸ hperm))
    rw [if_neg hnil, if_neg hnil']
    exact .some hrel

theorem shuffled_swap (before after : List Resource) {r r' : Resource} (h : r.place ≠ r'.place) :
    Shuffled (before ++ r :: r' :: after) (before ++ r' :: r :: after) := by
  refine ⟨(List.Perm.swap r' r after).append_left before, fun path => ?_⟩
  rw [List.filter_append, List.filter_append]
  congr 1
  by_cases hr : r.place = path
  · have hr' : ¬ r'.place = path := fun heq => h (hr.trans heq.symm)
    simp [hr, hr']
  · simp [hr, List.filter_cons]

theorem Shuffled.trans {first second third : List Resource} (h : Shuffled first second)
    (h' : Shuffled second third) : Shuffled first third :=
  ⟨h.perm.trans h'.perm, fun path => (h.sameOrder path).trans (h'.sameOrder path)⟩

section Levels

variable {resources resources' : List Resource} (h : Shuffled resources resources')
  (leaf : Resource → Value)
include h

theorem Shuffled.ofComponent (component : String) :
    (ResourceSet.ofComponent resources component).Perm
      (ResourceSet.ofComponent resources' component) :=
  h.perm.filter _

theorem Shuffled.ofKind (component kind : String) :
    (ResourceSet.ofKind (ResourceSet.ofComponent resources component) kind).Perm
      (ResourceSet.ofKind (ResourceSet.ofComponent resources' component) kind) :=
  (h.ofComponent component).filter _

theorem Shuffled.names (component kind : String) :
    Value.AlikeThroughout
      (.object (Keyed.gather Resource.name (fun _ r => leaf r)
        (ResourceSet.ofKind (ResourceSet.ofComponent resources component) kind)))
      (.object (Keyed.gather Resource.name (fun _ r => leaf r)
        (ResourceSet.ofKind (ResourceSet.ofComponent resources' component) kind))) := by
  refine Value.alikeThroughout_object (Keyed.reordered_of_get? (Keyed.nodup_keys_gather _ _ _)
    (Keyed.nodup_keys_gather _ _ _) fun name => ?_)
  rw [Keyed.get?_gather, Keyed.get?_gather, ← filter_place, ← filter_place, h.sameOrder]
  cases Keyed.accumulate (fun _ r => leaf r) none
    (resources'.filter (·.place == [component, kind, name])) with
  | none => exact .none
  | some v => exact .some (.refl v)

theorem Shuffled.kinds (component : String) :
    Value.AlikeThroughout (kindsValue leaf (ResourceSet.ofComponent resources component))
      (kindsValue leaf (ResourceSet.ofComponent resources' component)) := by
  have hkeys (here : List Resource) : (Keyed.keys (ResourceSet.byKind leaf here)).Nodup := by
    rw [ResourceSet.byKind_eq_gather]
    exact Keyed.nodup_keys_gather _ _ _
  refine Value.alikeThroughout_level Value.object (hkeys _) (hkeys _) fun kind => ?_
  rw [get?_byKind, get?_byKind]
  exact rel_of_perm (h.ofKind component kind) (h.names leaf component kind)

theorem Shuffled.group :
    Value.AlikeThroughout ((ResourceSet.ofList resources).group leaf)
      ((ResourceSet.ofList resources').group leaf) := by
  rw [group_eq, group_eq]
  refine Value.alikeThroughout_level (kindsValue leaf) (ResourceSet.nodup_keys_groups _)
    (ResourceSet.nodup_keys_groups _) fun component => ?_
  rw [get?_groups_ofList, get?_groups_ofList]
  exact rel_of_perm (h.ofComponent component) (h.kinds leaf component)

end Levels

/-! ## Types -/

namespace ResourceSet

def operands (s : ResourceSet) (schemaUrl : String) : List String :=
  s.resources.map (Resource.recordType schemaUrl)

def alternatives (s : ResourceSet) (schemaUrl : String) : List String :=
  s.kinds.map fun kind => label kind ++ " : " ++ kindType schemaUrl kind

end ResourceSet

theorem Shuffled.resources {resources resources' : List Resource}
    (h : Shuffled resources resources') :
    (ResourceSet.ofList resources).resources.Perm (ResourceSet.ofList resources').resources :=
  (ResourceSet.resources_ofList_perm resources).trans
    (h.perm.trans (ResourceSet.resources_ofList_perm resources').symm)

/-- The order in which resources are inserted only decides on the order of what is made of the
set, as long as resources of one component, kind and name keep theirs. -/
theorem order_of_insertion {resources resources' : List Resource}
    (h : Shuffled resources resources') :
    let s := ResourceSet.ofList resources
    let s' := ResourceSet.ofList resources'
    s.record.Alike s'.record ∧ s.components.Alike s'.components ∧ s.size = s'.size ∧
    (∀ url,
      s.recordType url = " //\\\\ ".intercalate (s.operands url) ∧
      s'.recordType url = " //\\\\ ".intercalate (s'.operands url) ∧
      (s.operands url).Perm (s'.operands url)) ∧
    (∀ url,
      s.unionType url = "< " ++ " | ".intercalate (s.alternatives url) ++ " >" ∧
      s'.unionType url = "< " ++ " | ".intercalate (s'.alternatives url) ++ " >" ∧
      (s.alternatives url).Perm (s'.alternatives url)) ∧
    SameOutcome Value.Alike s.normalized s'.normalized := by
  intro s s'
  refine ⟨(h.group Resource.contents).alike, (h.group Resource.skeleton).alike,
    h.resources.length_eq, fun url => ⟨rfl, rfl, h.resources.map _⟩, fun url => ⟨rfl, rfl, ?_⟩,
    (h.group Resource.contents).outcome⟩
  exact (Keyed.eraseDups_perm (h.resources.map Resource.kind)).map _

def scattered : List Resource :=
  [labelledResource "Deployment" "front" "web" [],
    labelledResource "Service" "store" "db" [],
    labelledResource "Service" "front" "web"
      [("ports", .list [.object [("name", .string "http")]])],
    labelledResource "Deployment" "front" "web" [("image", .string "nginx:1.19")]]

def regrouped : List Resource :=
  [labelledResource "Service" "store" "db" [],
    labelledResource "Deployment" "front" "web" [],
    labelledResource "Deployment" "front" "web" [("image", .string "nginx:1.19")],
    labelledResource "Service" "front" "web"
      [("ports", .list [.object [("name", .string "http")]])]]

theorem shuffled_scattered : Shuffled scattered regrouped :=
  (shuffled_swap [] _ (by decide)).trans
    (shuffled_swap [labelledResource "Service" "store" "db" [],
      labelledResource "Deployment" "front" "web" []] [] (by decide))

theorem order_of_insertion_scattered :
    Shuffled scattered regrouped ∧
    (ResourceSet.ofList scattered).record.Alike (ResourceSet.ofList regrouped).record ∧
    (∃ v w, (ResourceSet.ofList scattered).normalized = .ok v ∧
      (ResourceSet.ofList regrouped).normalized = .ok w ∧ v.Alike w) := by
  obtain ⟨hrecord, -, -, -, -, hnormalized⟩ := order_of_insertion shuffled_scattered
  exact ⟨shuffled_scattered, hrecord, _, _, rfl, rfl, hnormalized.related⟩

end Manifest

end ManifestTypes
