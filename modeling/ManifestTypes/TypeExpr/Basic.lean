import ManifestTypes.TypeExpr.Lexeme

/-!
# Type expressions

A record type is a list of fields. The value of a field is an application: a chain of names such
as `Optional List`, which may end in a record or a union literal. Labels need not differ, and
fields stay in the order in which they are written.
-/

namespace ManifestTypes.TypeExpr

/-- The two kinds of literal. -/
inductive Shape where
  | record
  | union
  deriving DecidableEq

namespace Shape

def opening : Shape → Mark
  | .record => .openBrace
  | .union => .openAngle

def closing : Shape → Mark
  | .record => .closeBrace
  | .union => .closeAngle

def separator : Shape → Mark
  | .record => .comma
  | .union => .bar

def ofOpening? : Mark → Option Shape
  | .openBrace => some .record
  | .openAngle => some .union
  | _ => none

@[simp] theorem ofOpening?_opening (s : Shape) : ofOpening? s.opening = some s := by
  cases s <;> rfl

theorem ofOpening?_eq_some {m : Mark} {s : Shape} (h : ofOpening? m = some s) :
    m = s.opening := by
  unfold ofOpening? at h
  split at h <;> cases h <;> rfl

end Shape

/-- A labelled application, in a record or as the member of a union. A quoted label keeps its
quotes. -/
inductive Field where
  | plain (key : String) (atoms : List String)
  | literal (key : String) (atoms : List String) (shape : Shape) (fields : List Field)

/-- A record or union literal. -/
structure Literal where
  shape : Shape
  fields : List Field

/-- A chain of names and, in the last place, a literal if there is one. -/
structure Application where
  atoms : List String
  tail : Option Literal

/-- A complete type expression. -/
structure RecordType where
  fields : List Field

namespace Field

def key : Field → String
  | .plain key _ => key
  | .literal key _ _ _ => key

def value : Field → Application
  | .plain _ atoms => ⟨atoms, none⟩
  | .literal _ atoms shape fields => ⟨atoms, some ⟨shape, fields⟩⟩

def ofValue (key : String) : Application → Field
  | ⟨atoms, none⟩ => .plain key atoms
  | ⟨atoms, some ⟨shape, fields⟩⟩ => .literal key atoms shape fields

@[simp] theorem ofValue_value (f : Field) : ofValue f.key f.value = f := by
  cases f <;> rfl

def atoms (f : Field) : List String :=
  f.value.atoms

def tail (f : Field) : Option Literal :=
  f.value.tail

/-- The fields of the record that ends the application, if one does. -/
def record? (f : Field) : Option (List Field) :=
  match f.tail with
  | some ⟨.record, fields⟩ => some fields
  | _ => none

def find? (fields : List Field) (key : String) : Option Field :=
  List.find? (fun f => f.key == key) fields

def containsKey (fields : List Field) (key : String) : Bool :=
  fields.any fun f => f.key == key

mutual

def decEq : (f g : Field) → Decidable (f = g)
  | .plain k as, .plain k' as' =>
    if h : k = k' ∧ as = as' then .isTrue (by rw [h.1, h.2]) else .isFalse (by simpa using h)
  | .plain .., .literal .. => .isFalse (by simp)
  | .literal .., .plain .. => .isFalse (by simp)
  | .literal k as s fs, .literal k' as' s' fs' =>
    if h : k = k' ∧ as = as' ∧ s = s' then
      match decEqList fs fs' with
      | .isTrue hfs => .isTrue (by rw [h.1, h.2.1, h.2.2, hfs])
      | .isFalse hfs => .isFalse (by simp [hfs])
    else .isFalse fun heq => h (by cases heq; exact ⟨rfl, rfl, rfl⟩)

def decEqList : (fs gs : List Field) → Decidable (fs = gs)
  | [], [] => .isTrue rfl
  | [], _ :: _ => .isFalse (by simp)
  | _ :: _, [] => .isFalse (by simp)
  | f :: fs, g :: gs =>
    match decEq f g with
    | .isFalse h => .isFalse (by simp [h])
    | .isTrue h =>
      match decEqList fs gs with
      | .isTrue hs => .isTrue (by rw [h, hs])
      | .isFalse hs => .isFalse (by simp [hs])

end

instance : DecidableEq Field := decEq

end Field

deriving instance DecidableEq for Literal
deriving instance DecidableEq for Application
deriving instance DecidableEq for RecordType

end ManifestTypes.TypeExpr
