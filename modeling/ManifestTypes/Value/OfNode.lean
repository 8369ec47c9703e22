import ManifestTypes.Node.Description
import ManifestTypes.Value.Basic

/-!
# Values of document nodes

A node becomes a value by dropping its tags and writing the keys of its mappings as texts. Keys
that have no such text and integers of more than 64 bits with sign are refused.
-/

namespace ManifestTypes

inductive ValueError where
  | unsupportedKey (key : Node)
  | integerOutOfRange (n : Int)

def ValueError.message : ValueError → String
  | .unsupportedKey key => "unsupported object key: " ++ key.description
  | .integerOutOfRange n => "integer out of range: " ++ toString n

def Node.keyText? : Node → Option String
  | .string s => some s
  | .number n => some n.text
  | .boolean b => some (booleanText b)
  | _ => none

namespace Value

def ofInteger? (n : Int) : Option Value :=
  if Int64.minValue.toInt ≤ n ∧ n ≤ Int64.maxValue.toInt then some (.integer (Int64.ofInt n))
  else none

mutual

/-- Nodes are taken in order, a key before its value, and the first fault is reported. -/
def ofNode : Node → Except ValueError Value
  | .null => .ok .null
  | .boolean b => .ok (.boolean b)
  | .number (.integer n) =>
    match ofInteger? n with
    | some v => .ok v
    | none => .error (.integerOutOfRange n)
  | .number (.decimal x) => .ok (.decimal x)
  | .string s => .ok (.string s)
  | .sequence elements => do
    let values ← ofNodes elements
    .ok (.list values)
  | .mapping entries => do
    let pairs ← ofEntries entries
    .ok (ofPairs pairs)
  | .tagged _ node => ofNode node

def ofNodes : List Node → Except ValueError (List Value)
  | [] => .ok []
  | node :: rest => do
    let value ← ofNode node
    let values ← ofNodes rest
    .ok (value :: values)

def ofEntries : List (Node × Node) → Except ValueError (List (String × Value))
  | [] => .ok []
  | (key, node) :: rest =>
    match key.keyText? with
    | none => .error (.unsupportedKey key)
    | some text => do
      let value ← ofNode node
      let pairs ← ofEntries rest
      .ok ((text, value) :: pairs)

end

end Value

end ManifestTypes
