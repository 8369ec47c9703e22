import ManifestTypes.Node.Description
import ManifestTypes.Value.Basic
import ManifestTypes.Yaml.Scalar

/-!
# Writing YAML

Values as documents in block style. The elements of a list stand at the level of the key above
them, and the first member of an object that is an element stands in the line of its dash. Keys
of several lines and long keys stand behind a question mark, their values behind a colon in the
next line.
-/

namespace ManifestTypes.Yaml

def scalarText (indent : Nat) : Value → List Char
  | .null => "null".toList
  | .boolean b => (Node.booleanText b).toList
  | .integer n => (toString n.toInt).toList
  | .decimal x => (Number.text (.decimal x)).toList
  | .string s => stringText indent s.toList
  | .list _ => "[]".toList
  | .object _ => "\x7b\x7d".toList

def closeLine (text : List Char) : String :=
  String.ofList (if text.getLast?.any isBreak then text else text ++ ['\n'])

def indentation (indent : Nat) : String :=
  String.ofList (blanks indent)

/-- Whether a key stands in one line with what follows it: it has no line break and at most 128
bytes. -/
def isSimpleKey (key : String) : Bool :=
  !key.toList.any isBreak && key.utf8ByteSize ≤ 128

def innerIndent (indent : Nat) : Value → Nat
  | .list (_ :: _) => indent
  | _ => indent + 2

def lead (indent : Nat) : Value → String
  | .list (_ :: _) => "\n" ++ indentation indent
  | .object (_ :: _) => "\n" ++ indentation (indent + 2)
  | _ => " "

mutual

/-- A value from where its first line goes on to the end of its last line. The other lines are
moved in. -/
def body (indent : Nat) : Value → String
  | .list (v :: rest) =>
    (indentation indent).intercalate (elementTexts indent (v :: rest))
  | .object (m :: rest) =>
    (indentation indent).intercalate (memberTexts indent (m :: rest))
  | v => closeLine (scalarText indent v)

def elementTexts (indent : Nat) : List Value → List String
  | [] => []
  | v :: rest => ("- " ++ body (indent + 2) v) :: elementTexts indent rest

def memberTexts (indent : Nat) : List (String × Value) → List String
  | [] => []
  | (key, v) :: rest =>
    let keyText := stringText (indent + 2) key.toList
    let text :=
      if isSimpleKey key then
        String.ofList keyText ++ ":" ++ lead indent v ++ body (innerIndent indent v) v
      else
        "? " ++ closeLine keyText ++ indentation indent ++ ": " ++ body (indent + 2) v
    text :: memberTexts indent rest

end

/-- A document. The lines of a scalar that follow its first are moved in, those of a list or an
object are not. -/
def render (v : Value) : String :=
  match v with
  | .list _ | .object _ => body 0 v
  | _ => body 2 v

end ManifestTypes.Yaml
