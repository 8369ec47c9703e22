import ManifestTypes.Text.Alphabetic
import ManifestTypes.Text.Blank
import ManifestTypes.Text.Bytes
import ManifestTypes.Text.Numeric

/-!
# Words of import catalogs

Names, paths and hashes are words; every other character that is no white space is a symbol of
its own. Each text can be read.
-/

namespace ManifestTypes.Catalog

inductive Word where
  | word (text : String)
  | symbol (c : Char)
  deriving DecidableEq

def Word.text : Word → String
  | .word text => text
  | .symbol c => c.toString

structure Placed where
  word : Word
  position : Nat
  deriving DecidableEq

def isWordStart (c : Char) : Bool :=
  Text.isAlphabetic c || c == '.'

/-- Words go on with letters, numbers and a few signs, so that a path or a hash is one word. -/
def isWordRest (c : Char) : Bool :=
  Text.isAlphabetic c || Text.isNumeric c || c == '.' || c == '_' || c == '-' || c == ':'
    || c == '/'

/-- The word or symbol at the start of a text that starts with no white space, and the text
after it. -/
def word? : List Char → Option (Word × List Char)
  | [] => none
  | c :: rest =>
    if isWordStart c then
      some (.word (String.ofList (c :: rest.takeWhile isWordRest)), rest.dropWhile isWordRest)
    else some (.symbol c, rest)

/-- A word is the beginning of the text it is read from. -/
theorem word?_text {text rest : List Char} {w : Word} (h : word? text = some (w, rest)) :
    w.text.toList ++ rest = text := by
  unfold word? at h
  split at h
  · cases h
  · split at h <;> cases h <;> simp [Word.text, List.takeWhile_append_dropWhile]

theorem word?_length {text rest : List Char} {w : Word} (h : word? text = some (w, rest)) :
    rest.length < text.length := by
  unfold word? at h
  split at h
  · cases h
  · split at h <;> cases h
    · exact Nat.lt_succ_of_le (List.dropWhile_suffix _).length_le
    · exact Nat.lt_succ_self _

/-- The words and symbols of a text whose first byte is at `start`. -/
def words (start : Nat) (text : List Char) : List Placed :=
  let position := start + Text.byteLength (text.takeWhile Text.isBlank)
  match _hread : word? (text.dropWhile Text.isBlank) with
  | none => []
  | some (w, rest) => ⟨w, position⟩ :: words (position + w.text.utf8ByteSize) rest
termination_by text.length
decreasing_by
  exact Nat.lt_of_lt_of_le (word?_length _hread) (List.dropWhile_suffix _).length_le

end ManifestTypes.Catalog
