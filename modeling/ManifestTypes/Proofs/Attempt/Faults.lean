import ManifestTypes.Proofs.Attempt.Outcomes

/-!
# First faults

The fault of a list of attempts is the first fault in it, in the order in which they are made.
-/

namespace ManifestTypes

namespace Manifest

variable {ε α β κ : Type}

def faultOf? : Except ε α → Option ε
  | .ok _ => none
  | .error e => some e

theorem faultOf?_eq_some_iff {x : Except ε α} {e : ε} : faultOf? x = some e ↔ x = .error e := by
  cases x <;> simp [faultOf?]

theorem faultOf?_eq_none_iff {x : Except ε α} : faultOf? x = none ↔ ∃ a, x = .ok a := by
  cases x <;> simp [faultOf?]

theorem faultOf?_map (f : α → β) (x : Except ε α) : faultOf? (f <$> x) = faultOf? x := by
  cases x <;> rfl

theorem faultOf?_bind_ok (x : Except ε α) (f : α → β) :
    faultOf? (x >>= fun a => .ok (f a)) = faultOf? x := by
  cases x <;> rfl

/-- A list of results fails with the first fault in it. -/
theorem faultOf?_mapM (f : α → Except ε β) (items : List α) :
    faultOf? (items.mapM f) = items.findSome? fun item => faultOf? (f item) := by
  induction items with
  | nil => rfl
  | cons item rest ih =>
      rw [List.mapM_cons, List.findSome?_cons, ← ih]
      cases f item with
      | error e => rfl
      | ok b => cases rest.mapM f <;> rfl

theorem faultOf?_traverse (f : κ → α → Except ε β) (entries : Keyed κ α) :
    faultOf? (Keyed.traverse f entries) = entries.findSome? fun p => faultOf? (f p.1 p.2) := by
  rw [Keyed.traverse, faultOf?_mapM]
  congr 1
  funext p
  cases f p.1 p.2 <;> rfl

/-! ## First hits -/

theorem findSome?_congr {f g : α → Option β} {items : List α}
    (h : ∀ item ∈ items, f item = g item) : items.findSome? f = items.findSome? g := by
  induction items with
  | nil => rfl
  | cons item rest ih =>
      rw [List.findSome?_cons, List.findSome?_cons, h item List.mem_cons_self,
        ih fun other hother => h other (List.mem_cons_of_mem item hother)]

theorem findSome?_flatMap {γ : Type} (f : β → Option γ) (g : α → List β) (items : List α) :
    (items.flatMap g).findSome? f = items.findSome? fun item => (g item).findSome? f := by
  induction items with
  | nil => rfl
  | cons item rest ih =>
      rw [List.flatMap_cons, List.findSome?_append, List.findSome?_cons, ih]
      cases (g item).findSome? f <;> rfl

end Manifest

theorem Attempt.faultOf?_toExcept {ε α : Type} (a : Attempt ε α) :
    Manifest.faultOf? a.toExcept = a.fault := by
  rcases a with ⟨_, _ | e⟩ <;> rfl

end ManifestTypes
