/-!
# Command line arguments

An argument is an option, which may take the argument after it as its value, or it stands for
itself. Two dashes end the options.
-/

namespace ManifestTypes.Cli

inductive Opt where
  | directory
  | inputFile
  | raw
  | outputFormat
  | schemaUrl
  | emit
  | noIndexLists
  | noExpandImages
  | outputDir
  | help
  | version
  deriving DecidableEq

namespace Opt

def long : Opt → String
  | .directory => "directory"
  | .inputFile => "input-file"
  | .raw => "raw"
  | .outputFormat => "output-format"
  | .schemaUrl => "schema-url"
  | .emit => "emit"
  | .noIndexLists => "no-index-lists"
  | .noExpandImages => "no-expand-images"
  | .outputDir => "output-dir"
  | .help => "help"
  | .version => "version"

def short? : Opt → Option Char
  | .directory => some 'C'
  | .inputFile => some 'f'
  | .outputFormat => some 'F'
  | .emit => some 'e'
  | .outputDir => some 'o'
  | .help => some 'h'
  | .version => some 'V'
  | .raw | .schemaUrl | .noIndexLists | .noExpandImages => none

def takesValue : Opt → Bool
  | .directory | .inputFile | .outputFormat | .schemaUrl | .emit | .outputDir => true
  | .raw | .noIndexLists | .noExpandImages | .help | .version => false

def isFinal : Opt → Bool
  | .help | .version => true
  | _ => false

end Opt

inductive Argument where
  | option (o : Opt) (value : String)
  | positional (text : String)
  deriving DecidableEq

/-- What one argument is by itself. -/
inductive Reading where
  | complete (a : Argument)
  | awaitsValue (o : Opt)
  | endOfOptions
  | unknown

def readLong (allowed : List Opt) (text : List Char) : Reading :=
  let name := String.ofList (text.takeWhile (· != '='))
  match allowed.find? (fun o => o.long == name), text.dropWhile (· != '=') with
  | none, _ => .unknown
  | some o, [] => if o.takesValue then .awaitsValue o else .complete (.option o "")
  | some o, _ :: value =>
    if o.takesValue then .complete (.option o (String.ofList value)) else .unknown

/-- A short option, without its dash. Its value may follow at once or after an equals sign. -/
def readShort (allowed : List Opt) (c : Char) (rest : List Char) : Reading :=
  match allowed.find? (fun o => o.short? == some c), rest with
  | none, _ => .unknown
  | some o, [] => if o.takesValue then .awaitsValue o else .complete (.option o "")
  | some o, rest =>
    if o.takesValue then
      .complete (.option o (String.ofList (if rest.head? = some '=' then rest.drop 1 else rest)))
    else if o.isFinal then .complete (.option o "")
    else .unknown

def readArgument (allowed : List Opt) (argument : String) : Reading :=
  match argument.toList with
  | ['-', '-'] => .endOfOptions
  | '-' :: '-' :: rest => readLong allowed rest
  | '-' :: c :: rest => readShort allowed c rest
  | _ => .complete (.positional argument)

def isValue (argument : String) : Bool :=
  argument == "-" || argument.toList.head? != some '-'

/-- The arguments in order, up to one after which nothing counts, or `none` if one of them is
unknown or lacks its value, or stands for itself where none may. -/
def readArguments (allowed : List Opt) (takesPositionals : Bool) :
    List String → Option (List Argument)
  | [] => some []
  | argument :: rest =>
    match readArgument allowed argument, rest with
    | .unknown, _ => none
    | .endOfOptions, rest =>
      if takesPositionals ∨ rest.isEmpty then some (rest.map .positional) else none
    | .awaitsValue _, [] => none
    | .awaitsValue o, value :: rest =>
      if isValue value then
        (readArguments allowed takesPositionals rest).map (.option o value :: ·)
      else none
    | .complete (.option o value), rest =>
      if o.isFinal then some [.option o value]
      else (readArguments allowed takesPositionals rest).map (.option o value :: ·)
    | .complete (.positional text), rest =>
      if takesPositionals then
        (readArguments allowed takesPositionals rest).map (.positional text :: ·)
      else none

def readLeading (allowed : List Opt) :
    List String → Option (List Argument × Option (String × List String))
  | [] => some ([], none)
  | argument :: rest =>
    match readArgument allowed argument, rest with
    | .unknown, _ => none
    | .endOfOptions, _ => none
    | .awaitsValue _, [] => none
    | .awaitsValue o, value :: rest =>
      if isValue value then
        (readLeading allowed rest).map fun (options, command) =>
          (.option o value :: options, command)
      else none
    | .complete (.option o value), rest =>
      if o.isFinal then some ([.option o value], none)
      else
        (readLeading allowed rest).map fun (options, command) =>
          (.option o value :: options, command)
    | .complete (.positional name), rest => some ([], some (name, rest))

end ManifestTypes.Cli
