import ManifestTypes.Value.OfNode

/-!
# Faults of manifests
-/

namespace ManifestTypes.Manifest

inductive Requirement where
  | kind
  | apiVersion
  | metadata
  | name
  | spec
  | claimTemplate
  | jobTemplate
  deriving DecidableEq

def Requirement.path : Requirement → String
  | .kind => "kind"
  | .apiVersion => "apiVersion"
  | .metadata => "metadata"
  | .name => "metadata.name"
  | .spec => "spec"
  | .claimTemplate => "spec.volumeClaimTemplates[]"
  | .jobTemplate => "spec.jobTemplate"

inductive Level where
  | component
  | kind
  | resource
  deriving DecidableEq

def Level.name : Level → String
  | .component => "component"
  | .kind => "kind"
  | .resource => "resource"

/-- Why manifests cannot be taken in, changed or split. -/
inductive Fault where
  | missing (required : Requirement)
  | mixedList (key : String)
  | value (e : ValueError)
  | notComponents
  | notRecord (level : Level) (path : List String)

def Fault.message : Fault → String
  | .missing required => "manifest is missing `" ++ required.path ++ "`"
  | .mixedList key => "list `" ++ key ++ "` mixes named and unnamed elements"
  | .value _ => "unable to decode manifest"
  | .notComponents => "expected a record of components"
  | .notRecord level path =>
    level.name ++ " value for " ++ ".".intercalate path ++ " is not a record"

def Fault.messages : Fault → List String
  | .value e => [(Fault.value e).message, e.message]
  | fault => [fault.message]

end ManifestTypes.Manifest
