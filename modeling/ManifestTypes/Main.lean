import ManifestTypes.Cli.Run

/-!
# The program

Runs commands on the files and streams of the system. The work directory is kept as a path that
every other path is joined to.
-/

namespace ManifestTypes.Cli

abbrev SystemM := StateT String IO

/-- The number of an error of the system. Some operations give it with a minus sign. -/
def errorNumber (code : UInt32) : UInt32 :=
  if code < 0x80000000 then code else -code

def FileError.ofSystem (e : IO.Error) : FileError :=
  match e with
  | .noFileOrDirectory .. => .notFound
  | .alreadyExists .. => .exists
  | .inappropriateType _ code _ => if errorNumber code = 21 then .isDirectory else .notDirectory
  | .invalidArgument _ code _ =>
    if errorNumber code = 36 then .nameTooLong else .other (toString e)
  | _ => .other (toString e)

def systemAttempt (operation : IO α) : SystemM (Except FileError α) := do
  try
    let result ← operation
    pure (.ok result)
  catch e => pure (.error (.ofSystem e))

/-- Runs an operation on the path that a path from the work directory stands for. -/
def systemAttemptAt (path : String) (operation : String → IO α) :
    SystemM (Except FileError α) := do
  match checkPath path with
  | .error e => pure (.error e)
  | .ok () => systemAttempt (operation (joinPath (← get) path))

def resolveOnSystem (path : String) : IO String := do
  let file := System.mkFilePath [path]
  try
    let resolved ← IO.FS.realPath file
    pure resolved.toString
  catch e =>
    -- This fails with the reason for which the path leads nowhere.
    let _ ← file.metadata
    throw e

def systemHost : Host SystemM where
  readInput := systemAttempt do
    let input ← IO.getStdin
    input.readToEnd
  readFile path := systemAttemptAt path fun p => IO.FS.readFile p
  resolve path := systemAttemptAt path resolveOnSystem
  enter path := do
    match ← systemAttemptAt path resolveOnSystem with
    | .error e => pure (.error e)
    | .ok resolved =>
      if ← (System.mkFilePath [resolved]).isDir then
        set resolved
        pure (.ok ())
      else pure (.error .notDirectory)
  isDirectory path := do
    match ← systemAttemptAt path fun p => (System.mkFilePath [p]).isDir with
    | .ok there => pure there
    | .error _ => pure false
  makeDirectory path := systemAttemptAt path fun p => IO.FS.createDir p
  writeFile path text := systemAttemptAt path fun p => IO.FS.writeFile p text
  print text := do
    let output ← IO.getStdout
    output.putStr text
  complain text := do
    let output ← IO.getStderr
    output.putStr text

end ManifestTypes.Cli

def main (arguments : List String) : IO UInt32 := do
  let work ← IO.currentDir
  let (code, _) ← (ManifestTypes.Cli.run ManifestTypes.Cli.systemHost arguments).run work.toString
  pure code
