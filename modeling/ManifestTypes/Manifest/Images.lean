import ManifestTypes.Image

/-!
# Images in manifests

Image references are written as texts in manifests and as objects of their parts in the collected
record.
-/

namespace ManifestTypes.Value

def imageText? (key : String) (v : Value) : Option String :=
  if key = "image" then v.string? else none

mutual

/-- Replaces every image reference by the object of its parts. -/
def expandImages : Value → Value
  | .list elements => .list (expandImagesAll elements)
  | .object members => .object (expandImagesEach members)
  | v => v

def expandImagesAll : List Value → List Value
  | [] => []
  | v :: rest => expandImages v :: expandImagesAll rest

def expandImagesEach : List (String × Value) → List (String × Value)
  | [] => []
  | (key, v) :: rest =>
    let expanded := match imageText? key v with
      | some reference => (ImageReference.parse reference).toValue
      | none => expandImages v
    (key, expanded) :: expandImagesEach rest

end

end ManifestTypes.Value
