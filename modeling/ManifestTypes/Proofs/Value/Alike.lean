import Mathlib.Data.List.Perm.Basic
import ManifestTypes.Proofs.Keyed.Related
import ManifestTypes.Proofs.Value.Objects

/-!
# Values up to the order of members

Two values are alike if they differ in nothing but the order of the members of objects, at any
depth.
-/

namespace ManifestTypes.Value

mutual

/-- Equal up to the order of the members of objects, at every level. -/
def Alike : Value → Value → Prop
  | .list elements, w => ∃ elements', w = .list elements' ∧ AlikeAll elements elements'
  | .object members, w =>
    ∃ members' sorted, w = .object members' ∧ sorted.Perm members' ∧ AlikeEach members sorted
  | v, w => v = w

def AlikeAll : List Value → List Value → Prop
  | v :: rest, w :: rest' => Alike v w ∧ AlikeAll rest rest'
  | [], [] => True
  | _, _ => False

/-- Members that have been brought into the same order. -/
def AlikeEach : List (String × Value) → List (String × Value) → Prop
  | (key, v) :: rest, (key', w) :: rest' => key = key' ∧ Alike v w ∧ AlikeEach rest rest'
  | [], [] => True
  | _, _ => False

end

theorem alikeAll_iff {elements elements' : List Value} :
    AlikeAll elements elements' ↔ List.Forall₂ Alike elements elements' := by
  induction elements generalizing elements' with
  | nil => cases elements' <;> simp [AlikeAll]
  | cons v rest ih => cases elements' <;> simp [AlikeAll, ih]

theorem alikeEach_iff {members members' : List (String × Value)} :
    AlikeEach members members' ↔ Keyed.Related (fun _ => Alike) members members' := by
  induction members generalizing members' with
  | nil => cases members' <;> simp [AlikeEach, Keyed.Related]
  | cons m rest ih =>
      simp only [Keyed.Related] at ih
      cases members' <;> simp [AlikeEach, Keyed.Related, ih, and_assoc]

theorem alike_list {elements elements' : List Value} (h : List.Forall₂ Alike elements elements') :
    Alike (.list elements) (.list elements') := by
  rw [Alike]
  exact ⟨elements', rfl, alikeAll_iff.mpr h⟩

/-- Members can be brought into order first and compared then. -/
theorem alike_object {members sorted members' : List (String × Value)}
    (hperm : members.Perm sorted) (h : Keyed.Related (fun _ => Alike) sorted members') :
    Alike (.object members) (.object members') := by
  obtain ⟨sorted', hsame, hperm'⟩ := List.perm_comp_forall₂ hperm h
  rw [Alike]
  exact ⟨members', sorted', rfl, hperm', alikeEach_iff.mpr hsame⟩

theorem Alike.of_atom {v : Value} (helements : v.elements? = none) (hmembers : v.members? = none) :
    v.Alike v := by
  cases v with
  | list elements => cases helements
  | object members => cases hmembers
  | _ => simp [Alike]

theorem Alike.refl (v : Value) : v.Alike v := by
  induction v using Value.induction with
  | atom v helements hmembers => exact .of_atom helements hmembers
  | list elements ih => exact alike_list (List.forall₂_same.mpr ih)
  | object members ih =>
      exact alike_object (.refl _) (List.forall₂_same.mpr fun m hm => ⟨rfl, ih m hm⟩)

theorem Alike.keys_perm {members members' : List (String × Value)}
    (h : Alike (.object members) (.object members')) :
    (Keyed.keys members).Perm (Keyed.keys members') := by
  rw [Alike] at h
  obtain ⟨_, sorted, hsame, hperm, hrelated⟩ := h
  cases hsame
  rw [(alikeEach_iff.mp hrelated).keys_eq]
  exact hperm.map Prod.fst

theorem Alike.of_singleton {key : String} {v w : Value}
    (h : Alike (.object [(key, v)]) (.object [(key, w)])) : Alike v w := by
  rw [Alike] at h
  obtain ⟨_, sorted, hsame, hperm, hrelated⟩ := h
  cases hsame
  cases List.perm_singleton.mp hperm
  exact hrelated.2.1

end ManifestTypes.Value
