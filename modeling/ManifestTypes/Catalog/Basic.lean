import ManifestTypes.Value.Basic

/-!
# Import catalogs

A catalog says from which path each named type of a schema library is imported.
-/

namespace ManifestTypes

/-- Names with their import paths, in order. No name stands twice. -/
structure Catalog where
  entries : Keyed String String
  nodup : entries.keys.Nodup

namespace Catalog

def empty : Catalog :=
  ⟨[], List.nodup_nil⟩

/-- Adds an entry. A name that is there keeps its place and changes its path. -/
def insert (c : Catalog) (name path : String) : Catalog :=
  ⟨c.entries.insert name path, Keyed.nodup_keys_insert c.nodup name path⟩

def get? (c : Catalog) (name : String) : Option String :=
  c.entries.get? name

def ofList (entries : List (String × String)) : Catalog :=
  entries.foldl (fun c e => c.insert e.1 e.2) empty

def size (c : Catalog) : Nat :=
  c.entries.length

def toValue (c : Catalog) : Value :=
  .object (c.entries.map fun (name, path) => (name, .string path))

end Catalog

end ManifestTypes
