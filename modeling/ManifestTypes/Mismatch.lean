/-!
# Mismatches

What a reader of type expressions or of import catalogs reports when a text does not continue as
its grammar demands.
-/

namespace ManifestTypes

/-- What a reader was looking for. -/
inductive Expectation where
  | mark (c : Char)
  | fieldLabel
  | typeName
  | importPath
  | nestingWithin (limit : Nat)
  | endOfInput
  deriving DecidableEq

def Expectation.description : Expectation → String
  | .mark c => "`" ++ c.toString ++ "`"
  | .fieldLabel => "field label"
  | .typeName => "type name"
  | .importPath => "import path"
  | .nestingWithin limit => "at most " ++ toString limit ++ " nested literals"
  | .endOfInput => "end of input"

/-- Where a text leaves its grammar, as an offset in bytes. Nothing is found at the end of it. -/
structure Mismatch where
  expected : Expectation
  found : Option String
  position : Nat
  deriving DecidableEq

def Mismatch.message (m : Mismatch) : String :=
  let found := match m.found with
    | some text => "`" ++ text ++ "`"
    | none => "end of input"
  "expected " ++ m.expected.description ++ ", found " ++ found ++ " at position "
    ++ toString m.position

end ManifestTypes
