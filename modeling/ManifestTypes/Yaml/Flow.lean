import ManifestTypes.Yaml.Library
import ManifestTypes.Yaml.Stream
import ManifestTypes.Yaml.Writer

/-!
# YAML in flow style

A library that reads documents in brackets, with strings in double quotes or without any, as JSON
writes them. Documents in block style, single quotes, comments, tags and anchors are not read. It
writes block style.
-/

namespace ManifestTypes.Yaml

def flow : Library where
  documents source := (documents source).map (Except.mapError Error.message)
  document source := (document source).mapError Error.message
  write := render

end ManifestTypes.Yaml
