import ManifestTypes.Decimal.Notation
import ManifestTypes.Node.Basic
import ManifestTypes.Text.Quoted

/-!
# Descriptions of nodes

How messages name a node.
-/

namespace ManifestTypes

def Number.decimalStyle : Decimal.Style := ⟨".nan", ".inf", false⟩

def Number.text : Number → String
  | .integer n => toString n
  | .decimal x => Decimal.render decimalStyle x

namespace Node

def booleanText (b : Bool) : String :=
  if b then "true" else "false"

mutual

def description : Node → String
  | .null => "Null"
  | .boolean b => "Bool(" ++ booleanText b ++ ")"
  | .number n => "Number(" ++ n.text ++ ")"
  | .string s => "String(" ++ Text.quoted s ++ ")"
  | .sequence elements => "Sequence [" ++ ", ".intercalate (descriptions elements) ++ "]"
  | .mapping entries => "Mapping \x7b" ++ ", ".intercalate (entryDescriptions entries) ++ "\x7d"
  | .tagged tag node =>
    "TaggedValue \x7b tag: !" ++ String.ofList (tagName tag) ++ ", value: " ++ description node
      ++ " \x7d"

def descriptions : List Node → List String
  | [] => []
  | node :: rest => description node :: descriptions rest

/-- Scalar keys stand without the name of their kind. -/
def entryDescriptions : List (Node × Node) → List String
  | [] => []
  | (key, node) :: rest =>
    let keyText := match key with
      | .boolean b => booleanText b
      | .number n => n.text
      | .string s => Text.quoted s
      | other => description other
    (keyText ++ ": " ++ description node) :: entryDescriptions rest

end

end Node

end ManifestTypes
