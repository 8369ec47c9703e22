import ManifestTypes.Decimal.Notation
import ManifestTypes.Value.Basic

/-!
# Writing JSON

Values as JSON texts, on one line without blanks or over lines that are indented by two blanks a
level. Numbers that JSON cannot hold are written as `null`.
-/

namespace ManifestTypes.Json

def hexDigit (n : Nat) : Char :=
  Nat.digitChar n

def escape (c : Char) : List Char :=
  if c = '"' then ['\\', '"']
  else if c = '\\' then ['\\', '\\']
  else if c = '\x08' then ['\\', 'b']
  else if c = '\x0c' then ['\\', 'f']
  else if c = '\n' then ['\\', 'n']
  else if c = '\r' then ['\\', 'r']
  else if c = '\t' then ['\\', 't']
  else if c.toNat < 0x20 then
    ['\\', 'u', '0', '0', hexDigit (c.toNat / 16), hexDigit (c.toNat % 16)]
  else [c]

def quoted (s : String) : String :=
  String.ofList ('"' :: s.toList.flatMap escape ++ ['"'])

/-- Infinities and NaN have no number in JSON. -/
def decimalStyle : Decimal.Style := ⟨"null", "null", true⟩

def decimalText (x : Float) : String :=
  if x.isFinite then Decimal.render decimalStyle x else "null"

mutual

def compact : Value → String
  | .null => "null"
  | .boolean b => if b then "true" else "false"
  | .integer n => toString n.toInt
  | .decimal x => decimalText x
  | .string s => quoted s
  | .list elements => "[" ++ ",".intercalate (compactElements elements) ++ "]"
  | .object members => "\x7b" ++ ",".intercalate (compactMembers members) ++ "\x7d"

def compactElements : List Value → List String
  | [] => []
  | v :: rest => compact v :: compactElements rest

def compactMembers : List (String × Value) → List String
  | [] => []
  | (key, v) :: rest => (quoted key ++ ":" ++ compact v) :: compactMembers rest

end

def indentation (level : Nat) : String :=
  String.ofList (List.replicate (2 * level) ' ')

/-- Items in brackets, each on a line of its own. Without items the brackets stand together. -/
def spread (opening closing : String) (level : Nat) (items : List String) : String :=
  if items.isEmpty then opening ++ closing
  else
    let lines := items.map fun item => indentation (level + 1) ++ item
    opening ++ "\n" ++ ",\n".intercalate lines ++ "\n" ++ indentation level ++ closing

mutual

/-- Over lines. The first line is not indented. -/
def pretty (level : Nat) : Value → String
  | .list elements => spread "[" "]" level (prettyElements (level + 1) elements)
  | .object members => spread "\x7b" "\x7d" level (prettyMembers (level + 1) members)
  | v => compact v

def prettyElements (level : Nat) : List Value → List String
  | [] => []
  | v :: rest => pretty level v :: prettyElements level rest

def prettyMembers (level : Nat) : List (String × Value) → List String
  | [] => []
  | (key, v) :: rest => (quoted key ++ ": " ++ pretty level v) :: prettyMembers level rest

end

end ManifestTypes.Json
