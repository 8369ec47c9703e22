import ManifestTypes.TypeExpr.Basic

/-!
# Strengthening

A type that was inferred from manifests is the loosest one that fits them. Some fields are known
to deserve a more precise one:

- `limits` and `requests` get the fixed record of container resources,
- `image` becomes a union of a text and a record of the parts of an image reference,
- `metadata` gains an optional `namespace`,
- the variables of an `env` become optional, and the outermost record gains `additionalEnv`.

A rule acts on fields that end in a record and on nothing inside them; records under any other
label are searched for such fields. Whatever ends in a union or in no literal stays as it is.
-/

namespace ManifestTypes.TypeExpr

def optionalTextField (key : String) : Field :=
  .plain key ["Optional", "Text"]

def textField (key : String) : Field :=
  .plain key ["Text"]

def containerResources : List Field :=
  [optionalTextField "cpu", optionalTextField "memory", optionalTextField "ephemeralStorage"]

def imageAlternatives : List Field :=
  [textField "asText",
    .literal "asRecord" [] .record
      [textField "name", textField "registry", textField "sha256", textField "version"]]

def namespaceField : Field :=
  optionalTextField "namespace"

def additionalEnv : Field :=
  .literal "additionalEnv" ["Optional", "List"] .record [textField "name", textField "value"]

/-! The texts in which these fields are given. -/

def containerResourcesSource : String :=
  "\n\x7b cpu : Optional Text\n, memory : Optional Text\n, ephemeralStorage : Optional Text\n\x7d\n"

def imageSource : String :=
  "\n\x7b image :\n    < asText : Text\n" ++
    "    | asRecord : \x7b name : Text, registry : Text, sha256 : Text, version : Text \x7d\n" ++
    "    >\n\x7d\n"

def additionalEnvSource : String :=
  "\x7b additionalEnv : Optional (List \x7b name : Text, value : Text \x7d) \x7d"

/-- What is done with a field that ends in a record. -/
inductive Rule where
  | containerResources
  | image
  | metadata
  | env
  | descend
  deriving DecidableEq

def Rule.ofKey (key : String) : Rule :=
  if key = "limits" ∨ key = "requests" then .containerResources
  else if key = "image" then .image
  else if key = "metadata" then .metadata
  else if key = "env" then .env
  else .descend

def withField (added : Field) (fields : List Field) : List Field :=
  if Field.containsKey fields added.key then fields else fields ++ [added]

def optional (atoms : List String) : List String :=
  if atoms.head? = some "Optional" then atoms else "Optional" :: atoms

/-- Makes the application of a field optional, unless it is already. -/
def Field.makeOptional : Field → Field
  | .plain key atoms => .plain key (optional atoms)
  | .literal key atoms shape fields => .literal key (optional atoms) shape fields

mutual

def Field.strengthen : Field → Field
  | .plain key atoms => .plain key atoms
  | .literal key atoms .union fields => .literal key atoms .union fields
  | .literal key atoms .record fields =>
    match Rule.ofKey key with
    | .containerResources => .literal key atoms .record containerResources
    | .image => .literal key atoms .union imageAlternatives
    | .metadata => .literal key atoms .record (withField namespaceField fields)
    | .env => .literal key atoms .record (fields.map Field.makeOptional)
    | .descend => .literal key atoms .record (strengthenAll fields)

def Field.strengthenAll : List Field → List Field
  | [] => []
  | f :: rest => f.strengthen :: strengthenAll rest

end

mutual

/-- Whether the rule for `env` acts on the field or inside it. -/
def Field.holdsEnv : Field → Bool
  | .plain _ _ => false
  | .literal _ _ .union _ => false
  | .literal key _ .record fields =>
    match Rule.ofKey key with
    | .env => true
    | .descend => anyHoldsEnv fields
    | _ => false

def Field.anyHoldsEnv : List Field → Bool
  | [] => false
  | f :: rest => f.holdsEnv || anyHoldsEnv rest

end

theorem Field.strengthenAll_eq_map (fields : List Field) :
    strengthenAll fields = fields.map Field.strengthen := by
  induction fields with
  | nil => rfl
  | cons f rest ih => simp [strengthenAll, ih]

theorem Field.anyHoldsEnv_eq_any (fields : List Field) :
    anyHoldsEnv fields = fields.any Field.holdsEnv := by
  induction fields with
  | nil => rfl
  | cons f rest ih => simp [anyHoldsEnv, ih]

def RecordType.strengthen (r : RecordType) : RecordType :=
  let fields := Field.strengthenAll r.fields
  ⟨if Field.anyHoldsEnv r.fields then withField additionalEnv fields else fields⟩

end ManifestTypes.TypeExpr
