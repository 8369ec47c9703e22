import ManifestTypes.Text.Split
import ManifestTypes.Value.Basic

/-!
# Image references

`registry/name:version@sha256:digest`, of which all but the name may be missing. The first
segment of the path is a registry only if it looks like a host.
-/

namespace ManifestTypes

structure ImageReference where
  registry : Option String
  name : String
  version : Option String
  sha256 : Option String
  deriving DecidableEq

namespace ImageReference

/-- Whether a path segment names a host: it has a dot or a colon, or is the local host. -/
def isRegistry (segment : List Char) : Bool :=
  segment.contains '.' || segment.contains ':' || segment == "localhost".toList

def splitDigest (text : List Char) : List Char × Option (List Char) :=
  match Text.splitFirst? "@sha256:".toList text with
  | some (rest, digest) => (rest, some digest)
  | none => (text, none)

/-- What comes before a version, and the version. A colon before a slash belongs to the host. -/
def splitVersion (text : List Char) : List Char × Option (List Char) :=
  match Text.splitLast? ':' text with
  | some (rest, tag) => if tag.contains '/' then (text, none) else (rest, some tag)
  | none => (text, none)

def splitRegistry (text : List Char) : Option (List Char) × List Char :=
  match Text.splitFirst? ['/'] text with
  | some (segment, path) => if isRegistry segment then (some segment, path) else (none, text)
  | none => (none, text)

/-- Every text is an image reference. -/
def parse (reference : String) : ImageReference :=
  let (rest, digest) := splitDigest reference.toList
  let (rest, version) := splitVersion rest
  let (registry, name) := splitRegistry rest
  ⟨registry.map String.ofList, String.ofList name, version.map String.ofList,
    digest.map String.ofList⟩

def render (i : ImageReference) : String :=
  let registry := match i.registry with
    | some registry => registry ++ "/"
    | none => ""
  let version := match i.version with
    | some version => ":" ++ version
    | none => ""
  let digest := match i.sha256 with
    | some digest => "@sha256:" ++ digest
    | none => ""
  registry ++ i.name ++ version ++ digest

/-- The parts as an object. Missing parts are empty. -/
def toValue (i : ImageReference) : Value :=
  .object [("name", .string i.name), ("registry", .string (i.registry.getD "")),
    ("sha256", .string (i.sha256.getD "")), ("version", .string (i.version.getD ""))]

end ImageReference

end ManifestTypes
