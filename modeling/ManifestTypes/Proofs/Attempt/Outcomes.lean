import Mathlib.Logic.Relation
import ManifestTypes.Attempt
import ManifestTypes.Proofs.Keyed.Related

/-!
# Outcomes

An attempt keeps what it has changed before a fault. Its outcome is the result, or the fault alone.
Several attempts have the outcome of a traversal: all results, or the first fault.
-/

namespace ManifestTypes

variable {ε α β γ δ κ : Type}

theorem map_eq_ok_iff {f : α → β} {x : Except ε α} {b : β} :
    f <$> x = .ok b ↔ ∃ a, x = .ok a ∧ f a = b := by
  cases x <;> simp [Functor.map, Except.map]

/-! ## Traversals -/

def Keyed.traverse (f : κ → α → Except ε β) (pairs : Keyed κ α) : Except ε (Keyed κ β) :=
  pairs.mapM fun p => (p.1, ·) <$> f p.1 p.2

theorem mapM_eq_ok_iff {f : α → Except ε β} {as : List α} {bs : List β} :
    as.mapM f = .ok bs ↔ List.Forall₂ (fun a b => f a = .ok b) as bs := by
  induction as generalizing bs with
  | nil => cases bs <;> simp [pure, Except.pure]
  | cons a rest ih =>
      rw [List.mapM_cons, List.forall₂_cons_left_iff]
      cases ha : f a with
      | error e => simp [bind, Except.bind]
      | ok b =>
          cases hrest : rest.mapM f with
          | error e => simp [bind, Except.bind, ← ih, hrest]
          | ok more => simp [bind, Except.bind, pure, Except.pure, ← ih, hrest, eq_comm]

/-- A change of the values that only changes the results in turn can be made before or after. -/
theorem mapM_map_of_comm {f : α → Except ε β} {f' : γ → Except ε δ} {g : α → γ} {h : β → δ}
    {as : List α} (hcomm : ∀ a ∈ as, f' (g a) = h <$> f a) :
    (as.map g).mapM f' = List.map h <$> as.mapM f := by
  induction as with
  | nil => rfl
  | cons a rest ih =>
      rw [List.map_cons, List.mapM_cons, List.mapM_cons, hcomm a List.mem_cons_self,
        ih fun b hb => hcomm b (List.mem_cons_of_mem a hb)]
      cases f a with
      | error e => rfl
      | ok b => cases rest.mapM f <;> rfl

namespace Keyed

theorem traverse_eq_ok_iff {f : κ → α → Except ε β} {ps : Keyed κ α} {qs : Keyed κ β} :
    traverse f ps = .ok qs ↔ Related (fun key a b => f key a = .ok b) ps qs := by
  have hone (p : κ × α) (q : κ × β) :
      (p.1, ·) <$> f p.1 p.2 = .ok q ↔ p.1 = q.1 ∧ f p.1 p.2 = .ok q.2 := by
    obtain ⟨key, b⟩ := q
    simp [map_eq_ok_iff, and_comm]
  simp only [traverse, mapM_eq_ok_iff, hone, Related]

theorem traverse_map_of_comm {f : κ → α → Except ε β} {f' : κ → γ → Except ε δ} {g : κ → α → γ}
    {h : κ → β → δ} {pairs : Keyed κ α}
    (hcomm : ∀ p ∈ pairs, f' p.1 (g p.1 p.2) = h p.1 <$> f p.1 p.2) :
    traverse f' (pairs.map fun p => (p.1, g p.1 p.2)) =
      (List.map fun q => (q.1, h q.1 q.2)) <$> traverse f pairs := by
  refine mapM_map_of_comm fun p hp => ?_
  rw [hcomm p hp]
  cases f p.1 p.2 <;> rfl

end Keyed

/-! ## Outcomes that agree -/

/-- Both fail, or both have results and these are related. -/
inductive SameOutcome (R : α → β → Prop) : Except ε α → Except ε β → Prop
  | ok {a : α} {b : β} : R a b → SameOutcome R (.ok a) (.ok b)
  | error (e e' : ε) : SameOutcome R (.error e) (.error e')

namespace SameOutcome

variable {R : α → β → Prop} {S : γ → δ → Prop}

theorem fails_iff {x : Except ε α} {y : Except ε β} (h : SameOutcome R x y) :
    (∃ e, x = .error e) ↔ ∃ e, y = .error e := by
  cases h <;> simp

theorem related {a : α} {b : β} (h : SameOutcome R (.ok a : Except ε α) (.ok b)) : R a b := by
  cases h with
  | ok hab => exact hab

theorem refl {R : α → α → Prop} (h : ∀ a, R a a) (x : Except ε α) : SameOutcome R x x := by
  cases x with
  | ok a => exact .ok (h a)
  | error e => exact .error e e

theorem map {x : Except ε α} {y : Except ε β} {f : α → γ} {g : β → δ} (h : SameOutcome R x y)
    (hmap : ∀ a b, R a b → S (f a) (g b)) : SameOutcome S (f <$> x) (g <$> y) := by
  cases h with
  | ok hab => exact .ok (hmap _ _ hab)
  | error e e' => exact .error e e'

theorem mono {R' : α → β → Prop} {x : Except ε α} {y : Except ε β} (h : SameOutcome R x y)
    (hmono : ∀ a b, R a b → R' a b) : SameOutcome R' x y := by
  cases h with
  | ok hab => exact .ok (hmono _ _ hab)
  | error e e' => exact .error e e'

theorem trans {T : β → γ → Prop} {x : Except ε α} {y : Except ε β} {z : Except ε γ}
    (hxy : SameOutcome R x y) (hyz : SameOutcome T y z) :
    SameOutcome (Relation.Comp R T) x z := by
  cases hxy with
  | ok hab => cases hyz with
    | ok hbc => exact .ok ⟨_, hab, hbc⟩
  | error e e' => cases hyz with
    | error e' e'' => exact .error e e''

/-- Traversals agree if they do so step by step. -/
theorem mapM {f : α → Except ε γ} {g : β → Except ε δ} {as : List α} {bs : List β}
    (h : List.Forall₂ (fun a b => SameOutcome S (f a) (g b)) as bs) :
    SameOutcome (List.Forall₂ S) (as.mapM f) (bs.mapM g) := by
  induction h with
  | nil => exact .ok .nil
  | @cons a b as bs hab _ ih =>
      rw [List.mapM_cons, List.mapM_cons]
      generalize f a = x at hab
      generalize g b = y at hab
      generalize as.mapM f = xs at ih
      generalize bs.mapM g = ys at ih
      cases hab with
      | error e e' => exact .error e e'
      | ok hcd => cases ih with
        | error e e' => exact .error e e'
        | ok hrest => exact .ok (.cons hcd hrest)

theorem traverse {f : κ → α → Except ε γ} {g : κ → β → Except ε δ} {ps : Keyed κ α}
    {qs : Keyed κ β} (h : Keyed.Related (fun key a b => SameOutcome S (f key a) (g key b)) ps qs) :
    SameOutcome (Keyed.Related fun _ => S) (ps.traverse f) (qs.traverse g) := by
  refine mapM (h.imp ?_)
  rintro ⟨key, a⟩ ⟨_, b⟩ ⟨rfl, hvalue⟩
  exact hvalue.map fun _ _ hcd => ⟨rfl, hcd⟩

/-- The order of the steps only decides on the order of the results, and which fault is first. -/
theorem mapM_perm {f : α → Except ε β} {as bs : List α} (h : as.Perm bs) :
    SameOutcome List.Perm (as.mapM f) (bs.mapM f) := by
  induction h with
  | nil => exact .refl List.Perm.refl _
  | cons a _ ih =>
      rw [List.mapM_cons, List.mapM_cons]
      cases f a with
      | error e => exact .error e e
      | ok b => exact ih.map fun _ _ hperm => hperm.cons b
  | swap a b rest =>
      simp only [List.mapM_cons]
      cases f a with
      | error e => cases f b <;> exact .error _ _
      | ok a' => cases f b with
        | error e => exact .error _ _
        | ok b' => cases rest.mapM f with
          | error e => exact .error _ _
          | ok more => exact .ok (.swap _ _ _)
  | trans _ _ ihab ihbc => exact (ihab.trans ihbc).mono fun _ _ ⟨_, hab, hbc⟩ => hab.trans hbc

end SameOutcome

namespace Attempt

@[simp] theorem toExcept_map (f : α → β) (a : Attempt ε α) :
    (a.map f).toExcept = f <$> a.toExcept := by
  rcases a with ⟨value, _ | e⟩ <;> rfl

/-- Behind a fault nothing is attempted. -/
theorem settle_of_fault {a : Attempt ε α} {fault : ε} (h : a.fault = some fault) (before : α)
    (rest : List (α × Attempt ε α)) :
    settle ((before, a) :: rest) = .fail (a.value :: rest.map Prod.fst) fault := by
  rw [settle, h]

theorem settle_of_done {a : Attempt ε α} (h : a.fault = none) (before : α)
    (rest : List (α × Attempt ε α)) :
    settle ((before, a) :: rest) = (settle rest).map (a.value :: ·) := by
  rw [settle, h]

theorem toExcept_settle (items : List (α × Attempt ε α)) :
    (settle items).toExcept = items.mapM fun item => item.2.toExcept := by
  induction items with
  | nil => rfl
  | cons item rest ih =>
      obtain ⟨before, value, fault⟩ := item
      rw [List.mapM_cons, ← ih]
      cases fault with
      | some e => rfl
      | none =>
          rw [settle_of_done rfl, toExcept_map]
          cases (settle rest).toExcept <;> rfl

theorem toExcept_settleKeyed (items : List (κ × α × Attempt ε α)) :
    (settleKeyed items).toExcept = Keyed.traverse (fun _ item => item.2.toExcept) items := by
  induction items with
  | nil => rfl
  | cons item rest ih =>
      obtain ⟨key, before, value, fault⟩ := item
      cases fault with
      | some e => rfl
      | none =>
          have hsettle : settleKeyed ((key, before, ⟨value, none⟩) :: rest) =
              (settleKeyed rest).map ((key, value) :: ·) := rfl
          rw [hsettle, toExcept_map, ih]
          simp only [Keyed.traverse, List.mapM_cons]
          cases rest.mapM fun p => (p.1, ·) <$> p.2.2.toExcept <;> rfl

end Attempt

end ManifestTypes
