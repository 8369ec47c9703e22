import ManifestTypes.Manifest.Environment

/-!
# Resources

A manifest with the parts of it that tell it from others: its kind, its name and the component it
belongs to.
-/

namespace ManifestTypes.Manifest

def componentLabel : String := "app.kubernetes.io/component"

structure Resource where
  kind : String
  apiVersion : String
  name : String
  component : String
  contents : Value

namespace Resource

def requireString (v : Value) (key : String) (required : Requirement) : Except Fault String :=
  match v.getString? key with
  | some text => .ok text
  | none => .error (.missing required)

def labelledComponent? (metadata : Value) : Option String :=
  (metadata.get? "labels").bind (·.getString? componentLabel)

/-- Takes a manifest. Without a label its component is `fallback`. -/
def ofValue (contents : Value) (fallback : String) : Except Fault Resource := do
  let kind ← requireString contents "kind" .kind
  let apiVersion ← requireString contents "apiVersion" .apiVersion
  match contents.getMembers? "metadata" with
  | none => .error (.missing .metadata)
  | some members =>
    let metadata := Value.object members
    let name ← requireString metadata "name" .name
    .ok ⟨kind, apiVersion, name, (labelledComponent? metadata).getD fallback, contents⟩

def ofNode (document : Node) (fallback : String) : Except Fault Resource :=
  match Value.ofNode document with
  | .ok contents => ofValue contents fallback
  | .error e => .error (.value e)

def fileName (r : Resource) : String :=
  ".".intercalate [r.component, r.kind, r.name, "yaml"]

end Resource

end ManifestTypes.Manifest
