import ManifestTypes.Cli.Arguments
import ManifestTypes.Manifest.Schema

/-!
# Commands

What the command line asks for.
-/

namespace ManifestTypes.Cli

inductive OutputFormat where
  | json
  | yaml
  deriving DecidableEq

def OutputFormat.ofString? : String → Option OutputFormat
  | "json" => some .json
  | "yaml" => some .yaml
  | _ => none

inductive Emit where
  | record
  | type
  | union
  | components
  deriving DecidableEq

def Emit.ofString? : String → Option Emit
  | "record" => some .record
  | "type" => some .type
  | "union" => some .union
  | "components" => some .components
  | _ => none

/-- How manifests are collected. -/
structure Collection where
  files : List String
  schemaUrl : String
  emit : Emit
  indexLists : Bool
  expandImages : Bool
  format : OutputFormat

inductive Command where
  | type (input : Option String) (raw : Bool)
  | catalog (input : Option String) (format : OutputFormat)
  | manifests (c : Collection)
  | split (input : Option String) (outputDir : Option String)

/-- A command and the directories to change to, one after the other, before it runs. -/
structure Invocation where
  directories : List String
  command : Command

inductive Request where
  | run (i : Invocation)
  | help
  | version

structure Settings where
  directories : List String
  input : Option String
  raw : Option Unit
  format : Option OutputFormat
  schemaUrl : Option String
  emit : Option Emit
  noIndexLists : Option Unit
  noExpandImages : Option Unit
  outputDir : Option String
  files : List String

namespace Settings

def empty : Settings :=
  ⟨[], none, none, none, none, none, none, none, none, []⟩

def once (old : Option α) (new : Option α) : Option (Option α) :=
  match old, new with
  | none, some value => some (some value)
  | _, _ => none

def path? (text : String) : Option String :=
  if text.isEmpty then none else some text

/-- Adds an argument, or gives `none` if it is not acceptable. Only directories and files may be
given several times. -/
def add (s : Settings) : Argument → Option Settings
  | .positional text => do
    let file ← path? text
    some { s with files := s.files ++ [file] }
  | .option .directory value => do
    let directory ← path? value
    some { s with directories := s.directories ++ [directory] }
  | .option .inputFile value => do
    let input ← once s.input (path? value)
    some { s with input }
  | .option .raw _ => do
    let raw ← once s.raw (some ())
    some { s with raw }
  | .option .outputFormat value => do
    let format ← once s.format (OutputFormat.ofString? value)
    some { s with format }
  | .option .schemaUrl value => do
    let schemaUrl ← once s.schemaUrl (some value)
    some { s with schemaUrl }
  | .option .emit value => do
    let emit ← once s.emit (Emit.ofString? value)
    some { s with emit }
  | .option .noIndexLists _ => do
    let noIndexLists ← once s.noIndexLists (some ())
    some { s with noIndexLists }
  | .option .noExpandImages _ => do
    let noExpandImages ← once s.noExpandImages (some ())
    some { s with noExpandImages }
  | .option .outputDir value => do
    let outputDir ← once s.outputDir (path? value)
    some { s with outputDir }
  | .option .help _ => some s
  | .option .version _ => some s

def ofArguments? (arguments : List Argument) : Option Settings :=
  arguments.foldlM add empty

end Settings

inductive CommandName where
  | type
  | catalog
  | manifests
  | split
  deriving DecidableEq

namespace CommandName

def ofString? : String → Option CommandName
  | "type" => some .type
  | "catalog" => some .catalog
  | "manifests" => some .manifests
  | "mf" => some .manifests
  | "split" => some .split
  | _ => none

/-- The options of a command. Those for the work directory and for help go with each. -/
def options : CommandName → List Opt
  | .type => [.directory, .help, .inputFile, .raw]
  | .catalog => [.directory, .help, .inputFile, .outputFormat]
  | .manifests =>
    [.directory, .help, .schemaUrl, .emit, .noIndexLists, .noExpandImages, .outputFormat]
  | .split => [.directory, .help, .inputFile, .outputDir]

def takesPositionals : CommandName → Bool
  | .manifests => true
  | .type | .catalog | .split => false

def command? (name : CommandName) (s : Settings) : Option Command :=
  match name, s.files with
  | .type, [] => some (.type s.input s.raw.isSome)
  | .catalog, [] => some (.catalog s.input (s.format.getD .yaml))
  | .split, [] => some (.split s.input s.outputDir)
  | .manifests, _ :: _ =>
    some <| .manifests
      ⟨s.files, s.schemaUrl.getD Manifest.defaultSchemaUrl, s.emit.getD .record,
        s.noIndexLists.isNone, s.noExpandImages.isNone, s.format.getD .yaml⟩
  | _, _ => none

end CommandName

def helpRequest? : List String → Option Request
  | [] => some .help
  | [topic] =>
    if topic = "help" ∨ (CommandName.ofString? topic).isSome then some .help else none
  | _ => none

def finalOption? (arguments : List Argument) : Option Request :=
  match arguments.getLast? with
  | some (.option .help _) => some .help
  | some (.option .version _) => some .version
  | _ => none

/-- Reads the arguments of a command. Directories given with it replace those before it. -/
def commandRequest? (name : CommandName) (directories : List String) (arguments : List String) :
    Option Request := do
  let arguments ← readArguments name.options name.takesPositionals arguments
  let settings ← Settings.ofArguments? arguments
  match finalOption? arguments with
  | some request => some request
  | none =>
    let command ← name.command? settings
    let directories :=
      if settings.directories.isEmpty then directories else settings.directories
    some (.run ⟨directories, command⟩)

/-- What the arguments ask for, or `none` if they are no proper usage. -/
def Request.ofArguments? (arguments : List String) : Option Request := do
  let (options, command) ← readLeading [.directory, .help, .version] arguments
  let settings ← Settings.ofArguments? options
  match finalOption? options, command with
  | some request, _ => some request
  | none, none => none
  | none, some ("help", topics) => helpRequest? topics
  | none, some (name, rest) =>
    let name ← CommandName.ofString? name
    commandRequest? name settings.directories rest

end ManifestTypes.Cli
