import ManifestTypes.Manifest.Resource

/-!
# Patching resources

Some manifests leave out what their type demands. It is filled in where a kind of resource is
known to need it.
-/

namespace ManifestTypes.Manifest

abbrev Members := Keyed String Value

/-- States the type of an object whose place in a manifest implies it. -/
def withTypeMeta (kind : String) (members : Members) : Members :=
  (members.insert "apiVersion" (.string "v1")).insert "kind" (.string kind)

def patchSpec (contents : Value) (change : Members → Attempt Fault Members) :
    Attempt Fault Value :=
  match contents with
  | .object members =>
    match Keyed.get? members "spec" with
    | some (.object spec) =>
      (change spec).map fun spec => .object (Keyed.modify members "spec" fun _ => .object spec)
    | _ => .fail contents (.missing .spec)
  | _ => .fail contents (.missing .spec)

def patchClaimTemplate : Value → Attempt Fault Value
  | .object members => .done (.object (withTypeMeta "PersistentVolumeClaim" members))
  | v => .fail v (.missing .claimTemplate)

def patchClaimTemplates (spec : Members) : Attempt Fault Members :=
  match spec.get? "volumeClaimTemplates" with
  | some (.list templates) =>
    (Attempt.settle (templates.map fun t => (t, patchClaimTemplate t))).map fun templates =>
      spec.modify "volumeClaimTemplates" fun _ => .list templates
  | _ => .done spec

def patchJobTemplate (spec : Members) : Attempt Fault Members :=
  match spec.get? "jobTemplate" with
  | some (.object template) =>
    match Keyed.get? template "metadata" with
    | some (.object _) => .done spec
    | _ => .done (spec.modify "jobTemplate" fun _ =>
        .object (Keyed.insert template "metadata" (.object [])))
  | _ => .fail spec (.missing .jobTemplate)

def patchClaimRef (spec : Members) : Attempt Fault Members :=
  match spec.get? "claimRef" with
  | some (.object claim) =>
    .done (spec.modify "claimRef" fun _ => .object (withTypeMeta "PersistentVolumeClaim" claim))
  | _ => .done spec

def patchTypes (kind : String) (contents : Value) : Attempt Fault Value :=
  if kind = "StatefulSet" then patchSpec contents patchClaimTemplates
  else if kind = "CronJob" then patchSpec contents patchJobTemplate
  else if kind = "PersistentVolume" then patchSpec contents patchClaimRef
  else .done contents

def sortsEnv (kind : String) : Bool :=
  kind == "StatefulSet" || kind == "Deployment"

/-- Fills in what is missing, and sorts variables where nothing was at fault. -/
def patchContents (kind : String) (contents : Value) : Attempt Fault Value :=
  let patched := patchTypes kind contents
  if patched.fault.isNone ∧ sortsEnv kind then patched.map Value.sortEnv else patched

def Resource.patch (r : Resource) : Attempt Fault Resource :=
  (patchContents r.kind r.contents).map fun contents => { r with contents }

end ManifestTypes.Manifest
