import ManifestTypes.Cli.Path

/-!
# What commands run on

The files and streams that a command works with, as operations of a monad.
-/

namespace ManifestTypes.Cli

/-- Why an operation on files fails. -/
inductive FileError where
  | notFound
  | exists
  | notDirectory
  | isDirectory
  | nameTooLong
  | nulInName
  | other (message : String)
  deriving DecidableEq

def FileError.message : FileError → String
  | .notFound => "No such file or directory (os error 2)"
  | .exists => "File exists (os error 17)"
  | .notDirectory => "Not a directory (os error 20)"
  | .isDirectory => "Is a directory (os error 21)"
  | .nameTooLong => "File name too long (os error 36)"
  | .nulInName => "file name contained an unexpected NUL byte"
  | .other message => message

def checkPath (path : String) : Except FileError Unit :=
  if path.toList.contains '\x00' then .error .nulInName
  else if path.isEmpty then .error .notFound
  else .ok ()

/-- A directory is made in one that is there. What exists is resolved to its path from the root. -/
structure Host (m : Type → Type) where
  readInput : m (Except FileError String)
  readFile : String → m (Except FileError String)
  resolve : String → m (Except FileError String)
  enter : String → m (Except FileError Unit)
  isDirectory : String → m Bool
  makeDirectory : String → m (Except FileError Unit)
  writeFile : String → String → m (Except FileError Unit)
  print : String → m Unit
  complain : String → m Unit

namespace Host

variable {m : Type → Type} [Monad m]

def ensureDirectory (host : Host m) (path : String) : m (Except FileError Unit) := do
  match ← host.makeDirectory path with
  | .error .exists =>
    if ← host.isDirectory path then pure (.ok ()) else pure (.error .exists)
  | result => pure result

/-- Makes the first of some directories if it is not there. The others are those on the way to it,
from the innermost on; they are made as far as they are missing. -/
def ensureDirectories (host : Host m) : List String → m (Except FileError Unit)
  | [] => pure (.ok ())
  | path :: outer => do
    match ← host.ensureDirectory path with
    | .error .notFound =>
      match ← host.ensureDirectories outer with
      | .ok () => host.ensureDirectory path
      | .error e => pure (.error e)
    | result => pure result

/-- Makes a directory and those on the way to it, as far as they are missing. A path to a missing
directory must end in the name of it. -/
def makeDirectories (host : Host m) (path : String) : m (Except FileError Unit) :=
  if path.isEmpty then pure (.ok ()) else host.ensureDirectories (path :: enclosing path)

end Host

end ManifestTypes.Cli
