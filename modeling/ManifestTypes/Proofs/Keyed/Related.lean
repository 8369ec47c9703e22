import Mathlib.Data.List.Forall2
import ManifestTypes.Proofs.Keyed.Gathering

/-!
# Mappings in step

Two mappings with the same keys in the same order, and a relation between the values below each
key. Mappings that have their keys in different orders can be brought into step first.
-/

namespace ManifestTypes

variable {κ α β : Type}

theorem related_of_mem_right {R : α → β → Prop} {as : List α} {bs : List β}
    (h : List.Forall₂ R as bs) {b : β} (hb : b ∈ bs) : ∃ a ∈ as, R a b := by
  induction h with
  | nil => cases hb
  | @cons a b' as bs hab _ ih =>
      rcases List.mem_cons.mp hb with rfl | hrest
      · exact ⟨a, List.mem_cons_self, hab⟩
      · obtain ⟨a', ha', hab'⟩ := ih hrest
        exact ⟨a', List.mem_cons_of_mem a ha', hab'⟩

/-- Lists correspond alike if each item on the left does. -/
theorem forall₂_congr_of_mem {R S : α → β → Prop} {as : List α} {bs : List β}
    (h : ∀ a ∈ as, ∀ b, R a b ↔ S a b) : List.Forall₂ R as bs ↔ List.Forall₂ S as bs := by
  induction as generalizing bs with
  | nil => simp
  | cons a rest ih =>
      obtain ⟨ha, hrest⟩ := List.forall_mem_cons.mp h
      simp only [List.forall₂_cons_left_iff, ha, ih hrest]

/-- What corresponds to a list is its image if each item corresponds to its own alone. -/
theorem forall₂_iff_eq_map {R : α → β → Prop} {f : α → β} {as : List α} {bs : List β}
    (h : ∀ a ∈ as, ∀ b, R a b ↔ b = f a) : List.Forall₂ R as bs ↔ bs = as.map f := by
  rw [forall₂_congr_of_mem fun a ha b => (h a ha b).trans eq_comm,
    ← List.forall₂_map_left_iff (R := (· = ·)), List.forall₂_eq_eq_eq]
  exact eq_comm

/-- Pairs correspond if their first and their second parts do. -/
theorem forall₂_pairs_iff {γ δ : Type} {R : α → γ → Prop} {S : β → δ → Prop}
    {ps : List (α × β)} {qs : List (γ × δ)} :
    List.Forall₂ (fun p q => R p.1 q.1 ∧ S p.2 q.2) ps qs ↔
      List.Forall₂ R (ps.map Prod.fst) (qs.map Prod.fst) ∧
        List.Forall₂ S (ps.map Prod.snd) (qs.map Prod.snd) := by
  induction ps generalizing qs with
  | nil => cases qs <;> simp
  | cons p rest ih =>
      cases qs with
      | nil => simp
      | cons q rest' =>
          simp only [List.forall₂_cons, List.map_cons, ih]
          exact and_and_and_comm

namespace Keyed

/-- The same keys in the same order, with related values below them. -/
def Related (R : κ → α → β → Prop) (ps : Keyed κ α) (qs : Keyed κ β) : Prop :=
  List.Forall₂ (fun p q => p.1 = q.1 ∧ R p.1 p.2 q.2) ps qs

theorem related_map (f : κ → α → β) (ps : Keyed κ α) :
    Related (fun key a b => f key a = b) ps (ps.map fun p => (p.1, f p.1 p.2)) :=
  List.forall₂_map_right_iff.mpr (List.forall₂_same.mpr fun _ _ => ⟨rfl, rfl⟩)

theorem Related.keys_eq {R : κ → α → β → Prop} {ps : Keyed κ α} {qs : Keyed κ β}
    (h : Related R ps qs) : keys ps = keys qs := by
  induction h with
  | nil => rfl
  | cons hpq _ ih =>
      simp only [keys, List.map_cons] at ih ⊢
      rw [hpq.1, ih]

theorem Related.get? [BEq κ] [LawfulBEq κ] {R : κ → α → β → Prop} {ps : Keyed κ α}
    {qs : Keyed κ β} (h : Related R ps qs) (key : κ) :
    Option.Rel (R key) (ps.get? key) (qs.get? key) := by
  induction h with
  | nil => exact .none
  | @cons p q ps qs hpq _ ih =>
      obtain ⟨k, a⟩ := p
      obtain ⟨k', b⟩ := q
      obtain ⟨rfl, hab⟩ := hpq
      rw [get?_cons, get?_cons]
      by_cases hk : k = key
      · subst hk
        simpa using Option.Rel.some hab
      · simpa [hk] using ih

theorem Related.imp_of_mem {R S : κ → α → β → Prop} {ps : Keyed κ α} {qs : Keyed κ β}
    (h : Related R ps qs) (himp : ∀ p ∈ ps, ∀ b, R p.1 p.2 b → S p.1 p.2 b) : Related S ps qs :=
  ((List.forall₂_and_left _ _).mpr ⟨himp, h⟩).imp fun _ q hpq => ⟨hpq.2.1, hpq.1 q.2 hpq.2.2⟩

theorem related_map_left {R : κ → β → α → Prop} {f : κ → α → β} {ps : Keyed κ α}
    (h : ∀ p ∈ ps, R p.1 (f p.1 p.2) p.2) : Related R (ps.map fun p => (p.1, f p.1 p.2)) ps :=
  List.forall₂_map_left_iff.mpr (List.forall₂_same.mpr fun p hp => ⟨rfl, h p hp⟩)

/-! ## Mappings in another order -/

/-- The same keys in any order, with related values below them. -/
def Reordered (R : κ → α → β → Prop) (ps : Keyed κ α) (qs : Keyed κ β) : Prop :=
  ∃ sorted, ps.Perm sorted ∧ Related R sorted qs

theorem exists_related {R : κ → α → β → Prop} {qs : Keyed κ β}
    (h : ∀ q ∈ qs, ∃ a, R q.1 a q.2) : ∃ ps, Related R ps qs := by
  induction qs with
  | nil => exact ⟨[], .nil⟩
  | cons q rest ih =>
      obtain ⟨hq, hrest⟩ := List.forall_mem_cons.mp h
      obtain ⟨a, ha⟩ := hq
      obtain ⟨ps, hps⟩ := ih hrest
      exact ⟨(q.1, a) :: ps, .cons ⟨rfl, ha⟩ hps⟩

/-- Mappings are the same up to their order if what stands below each key is related. -/
theorem reordered_of_get? [BEq κ] [LawfulBEq κ] {R : κ → α → β → Prop} {ps : Keyed κ α}
    {qs : Keyed κ β} (hps : (keys ps).Nodup) (hqs : (keys qs).Nodup)
    (h : ∀ key, Option.Rel (R key) (ps.get? key) (qs.get? key)) : Reordered R ps qs := by
  have hfound : ∀ q ∈ qs, ∃ a, ps.get? q.1 = some a ∧ R q.1 a q.2 := by
    intro q hq
    have hvalue := h q.1
    rw [(get?_eq_some_iff hqs).mpr hq] at hvalue
    generalize ps.get? q.1 = found at hvalue
    cases hvalue with
    | some ha => exact ⟨_, rfl, ha⟩
  obtain ⟨sorted, hsorted⟩ :=
    exists_related (R := fun key a b => ps.get? key = some a ∧ R key a b) hfound
  have hkeys : (keys sorted).Nodup := by
    rwa [hsorted.keys_eq]
  refine ⟨sorted, perm_of_get?_eq hps hkeys fun key => ?_, hsorted.imp fun _ _ h => ⟨h.1, h.2.2⟩⟩
  have hvalue := h key
  have hvalue' := hsorted.get? key
  generalize ps.get? key = found at hvalue hvalue' ⊢
  generalize sorted.get? key = found' at hvalue' ⊢
  generalize qs.get? key = found'' at hvalue hvalue'
  cases hvalue' with
  | none =>
      cases hvalue
      rfl
  | some ha => exact ha.1

end Keyed

end ManifestTypes
