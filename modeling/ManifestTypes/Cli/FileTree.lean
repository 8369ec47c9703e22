import ManifestTypes.Cli.Host
import ManifestTypes.Keyed

/-!
# Trees of files in memory

A host for commands that keeps files, streams and the work directory as values.
-/

namespace ManifestTypes.Cli

/-- The names on the way from the root. -/
abbrev Location := List String

def maxNameSize : Nat := 255

def maxPathSize : Nat := 4095

def checkSizedPath (path : String) : Except FileError Unit := do
  checkPath path
  if maxPathSize < path.utf8ByteSize then .error .nameTooLong

/-- Directories and the texts of files. The root is always there. -/
structure FileTree where
  directories : List Location
  files : Keyed Location String

namespace FileTree

def isDirectory (t : FileTree) (l : Location) : Bool :=
  l.isEmpty || t.directories.contains l

def exists? (t : FileTree) (l : Location) : Bool :=
  t.isDirectory l || (t.files.get? l).isSome

def base (work : Location) (names : List String) : Location :=
  if names.head? = some "" then [] else work

/-- Follows names from a location. Whatever is followed by a name must be a directory. -/
def walk (t : FileTree) (l : Location) : List String → Except FileError Location
  | [] => .ok l
  | name :: rest =>
    if t.isDirectory l = false then .error .notDirectory
    else if staysInPlace name then t.walk l rest
    else if name = ".." then t.walk l.dropLast rest
    else if maxNameSize < name.utf8ByteSize then .error .nameTooLong
    else if t.exists? (l ++ [name]) then t.walk (l ++ [name]) rest
    else .error .notFound

def follow (t : FileTree) (work : Location) (path : String) : Except FileError Location :=
  t.walk (base work (pathNames path)) (pathNames path)

/-- Where a path leads that is followed name by name and may have any size. -/
def resolve (t : FileTree) (work : Location) (path : String) : Except FileError Location := do
  checkPath path
  t.follow work path

def locate (t : FileTree) (work : Location) (path : String) : Except FileError Location := do
  checkSizedPath path
  t.follow work path

/-- The directory around the last name in a path, and that name. Slashes at the end do not count.
The root is in itself and has no name. -/
def place (t : FileTree) (work : Location) (path : String) :
    Except FileError (Location × String) := do
  checkSizedPath path
  match (pathNames path).reverse.dropWhile String.isEmpty with
  | [] => .ok ([], "")
  | name :: outer =>
    let l ← t.walk (base work (pathNames path)) outer.reverse
    if t.isDirectory l then .ok (l, name) else .error .notDirectory

def text (t : FileTree) (work : Location) (path : String) : Except FileError String := do
  let l ← t.locate work path
  if t.isDirectory l then .error .isDirectory
  else
    match t.files.get? l with
    | some text => .ok text
    | none => .error .notFound

def makeDirectory (t : FileTree) (work : Location) (path : String) :
    Except FileError FileTree := do
  let (l, name) ← t.place work path
  if staysInPlace name ∨ name = ".." then .error .exists
  else if maxNameSize < name.utf8ByteSize then .error .nameTooLong
  else if t.exists? (l ++ [name]) then .error .exists
  else .ok { t with directories := t.directories ++ [l ++ [name]] }

def write (t : FileTree) (work : Location) (path text : String) :
    Except FileError FileTree := do
  let (l, name) ← t.place work path
  if (pathNames path).getLast? = some "" ∨ staysInPlace name ∨ name = ".." then
    .error .isDirectory
  else if maxNameSize < name.utf8ByteSize then .error .nameTooLong
  else if t.isDirectory (l ++ [name]) then .error .isDirectory
  else .ok { t with files := t.files.insert (l ++ [name]) text }

/-- A tree without files that has a location and the directories on the way to it. -/
def withDirectory (l : Location) : FileTree where
  directories := (List.range l.length).map fun n => l.take (n + 1)
  files := []

end FileTree

structure Session where
  tree : FileTree
  work : Location
  input : String
  printed : String
  complaints : String

namespace Session

def path (l : Location) : String :=
  "/" ++ "/".intercalate l

def change (operation : FileTree → Location → Except FileError FileTree) :
    StateM Session (Except FileError Unit) := do
  let s ← get
  match operation s.tree s.work with
  | .error e => pure (.error e)
  | .ok tree =>
    set { s with tree }
    pure (.ok ())

def host : Host (StateM Session) where
  readInput := do
    let s ← get
    pure (.ok s.input)
  readFile path := do
    let s ← get
    pure (s.tree.text s.work path)
  resolve p := do
    let s ← get
    pure ((s.tree.resolve s.work p).map Session.path)
  enter p := do
    let s ← get
    match s.tree.locate s.work p with
    | .error e => pure (.error e)
    | .ok l =>
      if s.tree.isDirectory l then
        set { s with work := l }
        pure (.ok ())
      else pure (.error .notDirectory)
  isDirectory path := do
    let s ← get
    pure <| match s.tree.locate s.work path with
      | .ok l => s.tree.isDirectory l
      | .error _ => false
  makeDirectory path := change fun t work => t.makeDirectory work path
  writeFile path text := change fun t work => t.write work path text
  print text := modify fun s => { s with printed := s.printed ++ text }
  complain text := modify fun s => { s with complaints := s.complaints ++ text }

/-- Makes files and the directories they are in. Files that cannot be made are left out. -/
def addFiles (files : List (String × String)) : StateM Session Unit :=
  files.forM fun (path, text) => do
    discard (host.ensureDirectories (enclosing path))
    discard (host.writeFile path text)

def start (work : Location) (files : List (String × String)) (input : String) : Session :=
  ((addFiles files).run ⟨FileTree.withDirectory work, work, input, "", ""⟩).2

end Session

end ManifestTypes.Cli
