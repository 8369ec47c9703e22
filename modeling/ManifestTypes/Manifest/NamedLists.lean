import ManifestTypes.Attempt
import ManifestTypes.Manifest.Fault

/-!
# Lists of named objects

Manifests hold lists whose elements are objects with a name. As objects keyed by these names they
get a type that tells their elements apart.
-/

namespace ManifestTypes.Value

def name? (v : Value) : Option String :=
  v.getString? "name"

def isNamed (v : Value) : Bool :=
  v.name?.isSome

/-- A list is taken as a list of named objects if its first element is one. -/
def startsNamed (elements : List Value) : Bool :=
  elements.head?.any isNamed

def nameKey (v : Value) : String :=
  v.name?.getD ""

open Manifest (Fault)

mutual

/-- Turns the lists of named objects that are members of objects into objects, from the outside
to the inside. Of several elements with one name the last is kept, in the place of the first. All
elements of such a list must have a name. -/
def indexLists : Value → Attempt Fault Value
  | .list elements => (Attempt.settle (indexAll elements)).map .list
  | .object members => (Attempt.settleKeyed (indexEach members)).map .object
  | v => .done v

def indexAll : List Value → List (Value × Attempt Fault Value)
  | [] => []
  | v :: rest => (v, indexLists v) :: indexAll rest

def indexEach : List (String × Value) → List (String × Value × Attempt Fault Value)
  | [] => []
  | (key, v) :: rest => (key, v, indexMember key v) :: indexEach rest

def indexMember (key : String) : Value → Attempt Fault Value
  | .list elements =>
    if startsNamed elements then
      if elements.all isNamed then
        (Attempt.settleKeyed
          (Keyed.ofList ((elements.map nameKey).zip (indexAll elements)))).map .object
      else .fail (.list elements) (.mixedList key)
    else (Attempt.settle (indexAll elements)).map .list
  | .object members => (Attempt.settleKeyed (indexEach members)).map .object
  | v => .done v

end

end ManifestTypes.Value
