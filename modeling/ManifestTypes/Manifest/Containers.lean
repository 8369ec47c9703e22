import ManifestTypes.Manifest.Resource

/-!
# Containers of resources

The names of the containers that a workload runs.
-/

namespace ManifestTypes.Manifest

def workloadKinds : List String := ["Deployment", "StatefulSet", "DaemonSet"]

mutual

/-- The names of the first `containers` below an object, which are a list of named objects or an
object that is keyed by their names. Lists are not searched. -/
def containersIn? : Value → Option (List String)
  | .object members => containersAmong? members
  | _ => none

def containersAmong? : List (String × Value) → Option (List String)
  | [] => none
  | (key, v) :: rest =>
    let here :=
      if key = "containers" then
        match v with
        | .object containers => some (containers.map Prod.fst)
        | .list containers => containers.mapM Value.name?
        | _ => none
      else containersIn? v
    here.or (containersAmong? rest)

end

/-- What settings can be attached to: an empty object for each container of a workload. -/
def Resource.skeleton (r : Resource) : Value :=
  if r.kind ∈ workloadKinds then
    match containersIn? r.contents with
    | some names =>
      .object [("containers", Value.ofPairs (names.map fun name => (name, .object [])))]
    | none => .object []
  else .object []

end ManifestTypes.Manifest
