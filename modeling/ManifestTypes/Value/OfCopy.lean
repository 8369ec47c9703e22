import ManifestTypes.Node.Copy
import ManifestTypes.Value.OfNode

/-!
# Values of copies

What is read from a node that is handed on part by part. Tags do not show in values, so a node that
has a value and repeats no key gives the same value. The faults of other nodes may differ.
-/

namespace ManifestTypes

inductive CopyError where
  | repeatedKey
  | value (e : ValueError)

def CopyError.message : CopyError → String
  | .repeatedKey => "duplicate entry in YAML map"
  | .value e => e.message

/-- The whole node is copied before the copy is taken as a value. -/
def Value.ofCopy (node : Node) : Except CopyError Value :=
  match node.copy? with
  | none => .error .repeatedKey
  | some copy => (ofNode copy).mapError .value

end ManifestTypes
