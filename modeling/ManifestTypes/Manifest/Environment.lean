import ManifestTypes.Manifest.NamedLists

/-!
# Environment variables in manifests

The order of the variables of a container means nothing, so they are kept sorted by name.
-/

namespace ManifestTypes.Value

/-- Sorts a list by the names of its elements, if all have one. Elements of one name keep their
order. -/
def sortByName : Value → Value
  | .list elements =>
    if elements.all isNamed then
      .list (elements.mergeSort fun a b => decide (nameKey a ≤ nameKey b))
    else .list elements
  | v => v

mutual

/-- Sorts every list that is a member `env` of an object. -/
def sortEnv : Value → Value
  | .list elements => .list (sortEnvAll elements)
  | .object members => .object (sortEnvEach members)
  | v => v

def sortEnvAll : List Value → List Value
  | [] => []
  | v :: rest => sortEnv v :: sortEnvAll rest

def sortEnvEach : List (String × Value) → List (String × Value)
  | [] => []
  | (key, v) :: rest =>
    (key, if key = "env" then sortByName (sortEnv v) else sortEnv v) :: sortEnvEach rest

end

end ManifestTypes.Value
