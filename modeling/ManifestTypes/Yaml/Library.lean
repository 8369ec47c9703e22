import ManifestTypes.Value.OfNode

/-!
# Libraries for YAML

What commands need to read and write YAML. Which texts are documents is left to the library, and so
is how a value is written. What is wrong with a text is told by a message.
-/

namespace ManifestTypes.Yaml

/-- How the documents of a stream are read, up to the first that cannot be read, and the document
of a stream that holds no other, and how a value is written. -/
structure Library where
  documents : String → List (Except String Node)
  document : String → Except String Node
  write : Value → String

/-- The value in a stream. A document may be read that is no value. -/
def Library.value (yaml : Library) (source : String) : Except String Value := do
  let node ← yaml.document source
  (Value.ofNode node).mapError ValueError.message

end ManifestTypes.Yaml
