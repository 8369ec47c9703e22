import ManifestTypes.Catalog.Parser
import ManifestTypes.Cli.Command
import ManifestTypes.Cli.Host
import ManifestTypes.Json.Writer
import ManifestTypes.Manifest.Patch
import ManifestTypes.TypeExpr.Parser
import ManifestTypes.TypeExpr.Printer
import ManifestTypes.TypeExpr.Strengthen
import ManifestTypes.Yaml.Flow

/-!
# Running commands

A command reads its input, computes and prints. It stops at the first failure, whose messages go
to the standard error, one per line, from what was tried to what went wrong.
-/

namespace ManifestTypes.Cli

open Manifest (Resource ResourceSet)

inductive Cause where
  | file (e : FileError)
  | typeExpression (e : TypeExpr.ParseError)
  | catalog (m : Mismatch)
  | yaml (message : String)
  | manifest (f : Manifest.Fault)
  | noManifests

def Cause.messages : Cause → List String
  | .file e => [e.message]
  | .typeExpression e => e.messages
  | .catalog m => [m.message]
  | .yaml message => [message]
  | .manifest f => f.messages
  | .noManifests => ["No manifests loaded"]

inductive Activity where
  | resolvingDirectory
  | entering
  | reading
  | loading
  | creating

def Activity.message (path : String) : Activity → String
  | .resolvingDirectory => "Failed to resolve path for -C/--directory " ++ path
  | .entering => "Failed to set work directory to " ++ path
  | .reading => "Failed to read " ++ path
  | .loading => "Failed to load manifests from " ++ path
  | .creating => "Failed to create " ++ path

structure Failure where
  context : Option (Activity × String)
  cause : Cause

def Failure.messages (f : Failure) : List String :=
  (f.context.map fun (activity, path) => activity.message path).toList ++ f.cause.messages

abbrev Action (m : Type → Type) := ExceptT Failure m

section Commands

variable {m : Type → Type} [Monad m] (yaml : Yaml.Library)

def attempt (context : Option (Activity × String)) (operation : m (Except FileError α)) :
    Action m α := do
  match ← (operation : Action m _) with
  | .ok result => pure result
  | .error e => throw ⟨context, .file e⟩

def require (context : Option (Activity × String)) (cause : ε → Cause) :
    Except ε α → Action m α
  | .ok result => pure result
  | .error e => throw ⟨context, cause e⟩

def enterAll (host : Host m) : List String → Action m Unit
  | [] => pure ()
  | path :: rest => do
    let resolved ← attempt (some (.resolvingDirectory, path)) (host.resolve path)
    attempt (some (.entering, resolved)) (host.enter resolved)
    enterAll host rest

def readSource (host : Host m) : Option String → Action m String
  | some path => attempt (some (.reading, path)) (host.readFile path)
  | none => attempt none host.readInput

def serialize : OutputFormat → Value → String
  | .json, v => Json.pretty 0 v
  | .yaml, v => yaml.write v

def typeText (raw : Bool) (r : TypeExpr.RecordType) : String :=
  (if raw then r else r.strengthen).render 1 ++ "\n"

def runType (host : Host m) (input : Option String) (raw : Bool) : Action m Unit := do
  let source ← readSource host input
  let record ← require none .typeExpression (TypeExpr.parse source)
  host.print (typeText raw record)

def runCatalog (host : Host m) (input : Option String) (format : OutputFormat) :
    Action m Unit := do
  let source ← readSource host input
  let catalog ← require none .catalog (Catalog.parse source)
  host.print (serialize yaml format catalog.toValue)

/-- The name of the directory that holds the file at a path from the root. -/
def directoryName (path : String) : String :=
  match (pathNames path).reverse with
  | _ :: directory :: _ => directory
  | _ => ""

def addDocument (fallback : String) (s : ResourceSet) (document : Except String Node) :
    Except Cause ResourceSet :=
  match document with
  | .error message => .error (.yaml message)
  | .ok .null => .ok s
  | .ok node =>
    match Resource.ofNode node fallback with
    | .error f => .error (.manifest f)
    | .ok r =>
      match r.patch.toExcept with
      | .error f => .error (.manifest f)
      | .ok r => .ok (s.insert r)

/-- Adds the manifests of a file. Those without a component label belong to the component that
is named like the directory of the file. -/
def loadFile (host : Host m) (s : ResourceSet) (path : String) : Action m ResourceSet := do
  let context := some (Activity.loading, path)
  let source ← attempt context (host.readFile path)
  let resolved ← attempt context (host.resolve path)
  require context id
    ((yaml.documents source).foldlM (addDocument (directoryName resolved)) s)

def collectionText (c : Collection) (s : ResourceSet) : Except Manifest.Fault String :=
  match c.emit with
  | .type => .ok (s.recordType c.schemaUrl ++ "\n")
  | .union => .ok (s.unionType c.schemaUrl ++ "\n")
  | .components => .ok (serialize yaml c.format s.components)
  | .record =>
    let record := if c.expandImages then s.record.expandImages else s.record
    let indexed := if c.indexLists then record.indexLists.toExcept else .ok record
    indexed.map (serialize yaml c.format)

def runManifests (host : Host m) (c : Collection) : Action m Unit := do
  let resources ← c.files.foldlM (loadFile yaml host) ResourceSet.empty
  if resources.isEmpty then throw ⟨none, .noManifests⟩
  let text ← require none .manifest (collectionText yaml c resources)
  host.print text

def writeResource (host : Host m) (outputDir : String) (r : Resource) : Action m Unit := do
  let directory := joinPath outputDir r.component
  attempt none (host.makeDirectories directory)
  let path := joinPath directory r.fileName
  attempt (some (.creating, path)) (host.writeFile path (yaml.write r.contents))

def runSplit (host : Host m) (input outputDir : Option String) : Action m Unit := do
  let source ← readSource host input
  let record ← require none .yaml (yaml.value source)
  let resources ← require none .manifest (ResourceSet.ofRecord record)
  match outputDir with
  | some directory => resources.resources.forM (writeResource yaml host directory)
  | none => resources.resources.forM fun r => host.print ("---\n" ++ yaml.write r.contents)

def runCommand (host : Host m) : Command → Action m Unit
  | .type input raw => runType host input raw
  | .catalog input format => runCatalog yaml host input format
  | .manifests c => runManifests yaml host c
  | .split input outputDir => runSplit yaml host input outputDir

def Invocation.run (host : Host m) (i : Invocation) : m UInt32 := do
  let result ← (do enterAll host i.directories; runCommand yaml host i.command : Action m Unit).run
  match result with
  | .ok () => pure 0
  | .error failure =>
    failure.messages.forM fun message => host.complain (message ++ "\n")
    pure 1

end Commands

def versionText : String := "kubedhall 0.1.0\n"

def usage : String :=
  "Usage: kubedhall [-C DIRECTORY]... <type|catalog|manifests|split> [OPTIONS]\n"

/-- Runs what the arguments ask for and gives the exit code, which is 2 if they are no proper
usage. -/
def run {m : Type → Type} [Monad m] (host : Host m) (arguments : List String)
    (yaml : Yaml.Library := Yaml.flow) : m UInt32 := do
  match Request.ofArguments? arguments with
  | some (.run i) => i.run yaml host
  | some .version => do host.print versionText; pure 0
  | some .help => do host.print usage; pure 0
  | none => do host.complain usage; pure 2

end ManifestTypes.Cli
