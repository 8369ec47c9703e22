import ManifestTypes.Text.Split

/-!
# Paths

Paths are texts of names with slashes between them. They start at the root if a slash is their
first character, and at the work directory otherwise. The empty name and `.` stay where they are,
`..` leads one directory up.
-/

namespace ManifestTypes.Cli

/-- The names in a path. The first one is empty if the path starts at the root. -/
def pathNames (path : String) : List String :=
  (Text.splitAll '/' path.toList).map String.ofList

def joinPath (directory path : String) : String :=
  if path.toList.head? = some '/' ∨ directory.isEmpty then path
  else if directory.toList.getLast? = some '/' then directory ++ path
  else directory ++ "/" ++ path

def staysInPlace (name : String) : Bool :=
  name == "" || name == "."

/-- The longest to the shortest of the beginnings of a path that end in a name that leads
somewhere. The names of the path behind the first one are given from the last one on. -/
def beginnings (first : String) : List String → List String
  | [] => if first.isEmpty then [] else [first]
  | name :: before =>
    if staysInPlace name then beginnings first before
    else "/".intercalate (first :: (name :: before).reverse) :: beginnings first before

/-- The directories that a path leads through, from the innermost on. The root and the work
directory are not among them. -/
def enclosing (path : String) : List String :=
  match pathNames path with
  | [] => []
  | first :: rest => (beginnings first rest.reverse).tail

end ManifestTypes.Cli
