import ManifestTypes.Yaml.Character

/-!
# Places in a text

Messages tell places by line and column. Characters are read together with their places, so that
nothing has to be counted twice.
-/

namespace ManifestTypes.Yaml

/-- A place in a text, counted from zero. The offset counts bytes, the column characters. -/
structure Mark where
  offset : Nat
  line : Nat
  column : Nat
  deriving DecidableEq

namespace Mark

def start : Mark := ⟨0, 0, 0⟩

def behind (m : Mark) (c : Char) : Mark :=
  let offset := m.offset + c.utf8Size
  if isBreak c then ⟨offset, m.line + 1, 0⟩ else ⟨offset, m.line, m.column + 1⟩

/-- How messages name a place. The start of a text is not named. -/
def location (m : Mark) : String :=
  if m.line = 0 ∧ m.column = 0 then ""
  else " at line " ++ toString (m.line + 1) ++ " column " ++ toString (m.column + 1)

/-- Whether something that starts here may be the key of a colon that stands there: on the same
line, and at most 1024 bytes further on. -/
def reaches (m colon : Mark) : Bool :=
  m.line == colon.line && colon.offset ≤ m.offset + 1024

end Mark

structure Located where
  char : Char
  mark : Mark

/-- The characters of a text with their places. A carriage return and a line feed behind it are
one line break. -/
def locate (m : Mark) : List Char → List Located
  | [] => []
  | '\r' :: '\n' :: rest => ⟨'\n', m⟩ :: locate { m.behind '\n' with offset := m.offset + 2 } rest
  | c :: rest => ⟨c, m⟩ :: locate (m.behind c) rest

def markOf (stop : Mark) : List Located → Mark
  | [] => stop
  | c :: _ => c.mark

def endMark (text : List Located) : Mark :=
  match text.getLast? with
  | some c => c.mark.behind c.char
  | none => .start

def Located.isBlank (c : Located) : Bool :=
  Yaml.isBlank c.char

def Located.isBreak (c : Located) : Bool :=
  Yaml.isBreak c.char

/-- Whether a line starts here with three of a sign, with nothing or white space behind them. -/
def startsMarker (sign : Char) : List Located → Bool
  | a :: b :: c :: rest =>
    a.mark.column == 0 && a.char == sign && b.char == sign && c.char == sign
      && rest.head?.all fun d => d.isBlank || d.isBreak
  | _ => false

end ManifestTypes.Yaml
