import ManifestTypes.Proofs.Keyed.Changes
import ManifestTypes.Proofs.Keyed.Related
import ManifestTypes.Proofs.Value.Objects

/-!
# Walks that change objects

A walk comes to every object in a value. It changes the members of an object before it goes on to
them, so it also goes into what it has put there itself.
-/

namespace ManifestTypes.Value

/-- What a walk makes of a value. The members of an object that it goes into are those that the
object has after the change. -/
inductive Walked (change : Keyed String Value → Keyed String Value) : Value → Value → Prop
  | atom {v : Value} (helements : v.elements? = none) (hmembers : v.members? = none) :
    Walked change v v
  | list {elements elements' : List Value} (h : List.Forall₂ (Walked change) elements elements') :
    Walked change (.list elements) (.list elements')
  | object {members members' : Keyed String Value}
    (hkeys : Keyed.keys (change members) = Keyed.keys members')
    (h : List.Forall₂ (Walked change) ((change members).map Prod.snd) (members'.map Prod.snd)) :
    Walked change (.object members) (.object members')

variable {change : Keyed String Value → Keyed String Value} {pass : Value → Value} {w : Value}

theorem walked_atom_iff {v : Value} (helements : v.elements? = none)
    (hmembers : v.members? = none) : Walked change v w ↔ w = v := by
  constructor
  · intro h
    cases h with
    | atom _ _ => rfl
    | list _ => cases helements
    | object _ _ => cases hmembers
  · rintro rfl
    exact .atom helements hmembers

theorem walked_list_iff {elements : List Value}
    (h : ∀ x ∈ elements, ∀ y, Walked change x y ↔ y = pass x) :
    Walked change (.list elements) w ↔ w = .list (elements.map pass) := by
  constructor
  · intro hwalked
    cases hwalked with
    | atom helements _ => cases helements
    | list helements => rw [(forall₂_iff_eq_map h).mp helements]
  · rintro rfl
    exact .list ((forall₂_iff_eq_map h).mpr rfl)

/-- If a walk makes one thing of each member that there is after the change, it makes one thing of
the object. -/
theorem walked_object_iff {members : Keyed String Value}
    (h : ∀ m ∈ change members, ∀ y, Walked change m.2 y ↔ y = pass m.2) :
    Walked change (.object members) w ↔
      w = .object ((change members).map fun m => (m.1, pass m.2)) := by
  have hmembers {members' : Keyed String Value} :
      Keyed.keys (change members) = Keyed.keys members' ∧
        List.Forall₂ (Walked change) ((change members).map Prod.snd) (members'.map Prod.snd) ↔
          members' = (change members).map fun m => (m.1, pass m.2) := by
    rw [Keyed.keys, Keyed.keys, ← List.forall₂_eq_eq_eq, ← forall₂_pairs_iff]
    refine forall₂_iff_eq_map fun m hm m' => ?_
    rw [h m hm, Prod.ext_iff, eq_comm]
  constructor
  · intro hwalked
    cases hwalked with
    | atom _ hmembers => cases hmembers
    | object hkeys hvalues => rw [hmembers.mp ⟨hkeys, hvalues⟩]
  · rintro rfl
    obtain ⟨hkeys, hvalues⟩ := hmembers.mpr rfl
    exact .object hkeys hvalues

/-! ## Walks that change one member of each object -/

/-- A walk makes of the value what the pass makes of it, and nothing else. -/
def WalkedAs (change : Keyed String Value → Keyed String Value) (pass : Value → Value)
    (v : Value) : Prop :=
  ∀ w, Walked change v w ↔ w = pass v

section Member

variable {key : String} {here : Value → Value}
  (hatom : ∀ v : Value, v.elements? = none → v.members? = none → pass v = v)
  (hlist : ∀ elements, pass (.list elements) = .list (elements.map pass))
  (hobject : ∀ members, pass (.object members) =
    .object (members.map fun m => (m.1, if m.1 = key then pass (here m.2) else pass m.2)))
include hatom hlist hobject

/-- A walk that changes the member below the key makes of a value what a pass makes of it, if the
pass goes on from the changed member as the walk does. -/
theorem walkedAs_modify
    (hhere : ∀ v, (∀ elements, v = .list elements →
        ∀ x ∈ elements, WalkedAs (Keyed.modify · key here) pass x) →
      WalkedAs (Keyed.modify · key here) pass v → WalkedAs (Keyed.modify · key here) pass (here v))
    {v : Value} (hdistinct : v.Distinct) : WalkedAs (Keyed.modify · key here) pass v := by
  suffices h : WalkedAs (Keyed.modify · key here) pass v ∧ ∀ elements, v = .list elements →
      ∀ x ∈ elements, WalkedAs (Keyed.modify · key here) pass x from h.1
  induction v using Value.induction with
  | atom v helements hmembers =>
      constructor
      · intro w
        rw [walked_atom_iff helements hmembers, hatom v helements hmembers]
      · rintro elements rfl
        cases helements
  | list elements ih =>
      have helements : ∀ x ∈ elements, WalkedAs (Keyed.modify · key here) pass x :=
        fun x hx => (ih x hx (distinctAll_iff.mp hdistinct x hx)).1
      constructor
      · intro w
        rw [walked_list_iff helements, hlist]
      · intro elements' hsame
        cases hsame
        exact helements
  | object members ih =>
      obtain ⟨hkeys, hvalues⟩ := hdistinct
      have hmembers : ∀ m ∈ Keyed.modify members key here,
          WalkedAs (Keyed.modify · key here) pass m.2 := by
        intro m hm
        rw [Keyed.modify_eq_map hkeys] at hm
        obtain ⟨m', hm', rfl⟩ := List.mem_map.mp hm
        obtain ⟨hvalue, helements⟩ := ih m' hm' (distinctEach_iff.mp hvalues m' hm')
        dsimp only
        split
        · exact hhere m'.2 helements hvalue
        · exact hvalue
      constructor
      · intro w
        rw [walked_object_iff hmembers, Keyed.modify_eq_map hkeys, hobject, List.map_map]
        simp only [Function.comp_def, apply_ite pass]
      · intro elements hsame
        cases hsame

end Member

end ManifestTypes.Value
