import ManifestTypes.Manifest.ResourceSet

/-!
# Types of sets of resources

Type expressions that refer to the schemas of the resource kinds.
-/

namespace ManifestTypes.Manifest

def defaultSchemaUrl : String :=
  "https://raw.githubusercontent.com/dhall-lang/dhall-kubernetes/a4126b7f8f0c0935e4d86f0f596176c41efbe6fe/1.18/schemas.dhall"

def isPlainLabel : List Char → Bool
  | [] => false
  | c :: rest =>
    (c.isAlpha || c == '_')
      && rest.all fun d => d.isAlphanum || d == '_' || d == '-' || d == '/'

def label (text : String) : String :=
  if isPlainLabel text.toList then text else "`" ++ text ++ "`"

/-- The type of the resources of one kind. -/
def kindType (schemaUrl kind : String) : String :=
  "(" ++ schemaUrl ++ ")." ++ kind ++ ".Type"

def Resource.type (r : Resource) (schemaUrl : String) : String :=
  kindType schemaUrl r.kind

def Resource.recordType (schemaUrl : String) (r : Resource) : String :=
  "\x7b " ++ label r.component ++ " : \x7b " ++ label r.kind ++ " : \x7b " ++ label r.name
    ++ " : " ++ r.type schemaUrl ++ " \x7d \x7d \x7d"

def ResourceSet.recordType (s : ResourceSet) (schemaUrl : String) : String :=
  " //\\\\ ".intercalate (s.resources.map (Resource.recordType schemaUrl))

/-- The kinds in the set, in order of their first resources. -/
def ResourceSet.kinds (s : ResourceSet) : List String :=
  (s.resources.map Resource.kind).eraseDups

def ResourceSet.unionType (s : ResourceSet) (schemaUrl : String) : String :=
  let alternatives := s.kinds.map fun kind => label kind ++ " : " ++ kindType schemaUrl kind
  "< " ++ " | ".intercalate alternatives ++ " >"

end ManifestTypes.Manifest
