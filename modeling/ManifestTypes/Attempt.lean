/-!
# Attempts

A change of a tree that may come to a fault. What has been changed before the fault stays
changed, and what comes after it stays as it was.
-/

namespace ManifestTypes

/-- A result, complete if there is no fault, else as far as it goes. -/
structure Attempt (ε α : Type) where
  value : α
  fault : Option ε

namespace Attempt

variable {ε α β κ : Type}

def done (value : α) : Attempt ε α :=
  ⟨value, none⟩

def fail (value : α) (fault : ε) : Attempt ε α :=
  ⟨value, some fault⟩

def map (f : α → β) (a : Attempt ε α) : Attempt ε β :=
  ⟨f a.value, a.fault⟩

def toExcept (a : Attempt ε α) : Except ε α :=
  match a.fault with
  | none => .ok a.value
  | some fault => .error fault

/-- One attempt per item, each beside the item as it was. From the first fault on, the items stay
as they were. -/
def settle : List (α × Attempt ε α) → Attempt ε (List α)
  | [] => done []
  | (_, attempt) :: rest =>
    match attempt.fault with
    | some fault => fail (attempt.value :: rest.map Prod.fst) fault
    | none => (settle rest).map (attempt.value :: ·)

def settleKeyed : List (κ × α × Attempt ε α) → Attempt ε (List (κ × α))
  | [] => done []
  | (key, _, attempt) :: rest =>
    match attempt.fault with
    | some fault => fail ((key, attempt.value) :: rest.map fun r => (r.1, r.2.1)) fault
    | none => (settleKeyed rest).map ((key, attempt.value) :: ·)

end Attempt

end ManifestTypes
