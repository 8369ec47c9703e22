import ManifestTypes.TypeExpr.Basic

/-!
# Paths of labels

Fields deep in a type expression are named by the labels on the way to them. Of several fields
with one label the first is meant.
-/

namespace ManifestTypes.TypeExpr

namespace Field

/-- The field at a path, which may lead through records and unions. No field is at the empty
path. -/
def atPath? (fields : List Field) : List String → Option Field
  | [] => none
  | [key] => find? fields key
  | key :: rest => do
    let field ← find? fields key
    let tail ← field.tail
    atPath? tail.fields rest

/-- The fields of the record at a path that leads through records only. -/
def recordAt? (fields : List Field) : List String → Option (List Field)
  | [] => some fields
  | key :: rest => do
    let field ← find? fields key
    let inner ← field.record?
    recordAt? inner rest

/-- Replaces the value of the first field with the label, where `change` allows it. -/
def modifyFirst (key : String) (change : Field → Option Field) : List Field → Option (List Field)
  | [] => none
  | f :: rest =>
    if f.key = key then (change f).map (· :: rest)
    else (modifyFirst key change rest).map (f :: ·)

def modifyAt? (fields : List Field) (change : List Field → List Field) :
    List String → Option (List Field)
  | [] => some (change fields)
  | key :: rest =>
    modifyFirst key (fun f => do
      let inner ← f.record?
      let changed ← modifyAt? inner change rest
      pure (.literal f.key f.atoms .record changed)) fields

def eraseKey (fields : List Field) (key : String) : List Field :=
  fields.filter fun f => f.key != key

end Field

namespace RecordType

def atPath? (r : RecordType) (path : List String) : Option Field :=
  Field.atPath? r.fields path

def recordAt? (r : RecordType) (path : List String) : Option RecordType :=
  (Field.recordAt? r.fields path).map .mk

def modifyAt? (r : RecordType) (path : List String) (change : List Field → List Field) :
    Option RecordType :=
  (Field.modifyAt? r.fields change path).map .mk

def containsKey (r : RecordType) (key : String) : Bool :=
  Field.containsKey r.fields key

end RecordType

end ManifestTypes.TypeExpr
