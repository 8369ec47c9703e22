import ManifestTypes.Manifest.Containers
import ManifestTypes.Manifest.Images

/-!
# Sets of resources

Resources are grouped by component. Components, and the resources of each, keep the order in
which they came. A set is written as a record of components, kinds and names, and such a record
can be split into resources again.
-/

namespace ManifestTypes.Manifest

structure ResourceSet where
  groups : Keyed String (List Resource)

namespace ResourceSet

def empty : ResourceSet :=
  ⟨[]⟩

def insert (s : ResourceSet) (r : Resource) : ResourceSet :=
  ⟨s.groups.upsert r.component fun group => group.getD [] ++ [r]⟩

def ofList (resources : List Resource) : ResourceSet :=
  resources.foldl insert empty

def resources (s : ResourceSet) : List Resource :=
  s.groups.flatMap Prod.snd

def size (s : ResourceSet) : Nat :=
  s.resources.length

def isEmpty (s : ResourceSet) : Bool :=
  s.groups.isEmpty

def byKind (leaf : Resource → Value) (resources : List Resource) :
    Keyed String (Keyed String Value) :=
  resources.foldl
    (fun kinds r => kinds.upsert r.kind fun names => (names.getD []).insert r.name (leaf r)) []

/-- One value for each resource, by component, kind and name. Where two resources agree in all
three the later one counts. -/
def group (leaf : Resource → Value) (s : ResourceSet) : Value :=
  .object <| s.groups.map fun (component, resources) =>
    (component, .object <| (byKind leaf resources).map fun (kind, names) =>
      (kind, .object names))

def record (s : ResourceSet) : Value :=
  s.group Resource.contents

/-- The record in which each kind of resource has one type: image references are objects, and
lists of named objects are objects too. -/
def normalized (s : ResourceSet) : Except Fault Value :=
  s.record.expandImages.indexLists.toExcept

def components (s : ResourceSet) : Value :=
  s.group Resource.skeleton

/-- A resource of the record. Its version is the one in the manifest, if it has one. -/
def resourceOf (component kind : String) (entry : String × Value) : Except Fault Resource :=
  match entry.2 with
  | .object _ =>
    .ok ⟨kind, (entry.2.getString? "apiVersion").getD "", entry.1, component, entry.2⟩
  | _ => .error (.notRecord .resource [component, kind, entry.1])

def resourcesOfKind (component : String) (entry : String × Value) :
    Except Fault (List Resource) :=
  match entry.2 with
  | .object names => names.mapM (resourceOf component entry.1)
  | _ => .error (.notRecord .kind [component, entry.1])

def resourcesOfComponent (entry : String × Value) : Except Fault (List Resource) :=
  match entry.2 with
  | .object kinds => do
    let groups ← kinds.mapM (resourcesOfKind entry.1)
    .ok groups.flatten
  | _ => .error (.notRecord .component [entry.1])

def ofRecord (record : Value) : Except Fault ResourceSet :=
  match record with
  | .object components => do
    let groups ← components.mapM resourcesOfComponent
    .ok (ofList groups.flatten)
  | _ => .error .notComponents

end ResourceSet

end ManifestTypes.Manifest
