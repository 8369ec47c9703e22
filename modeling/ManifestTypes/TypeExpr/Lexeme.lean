/-!
# Lexemes of type expressions

The words and signs that type expressions are made of.
-/

namespace ManifestTypes.TypeExpr

inductive Mark where
  | colon
  | comma
  | bar
  | openBrace
  | closeBrace
  | openAngle
  | closeAngle
  deriving DecidableEq

def Mark.char : Mark → Char
  | .colon => ':'
  | .comma => ','
  | .bar => '|'
  | .openBrace => '{'
  | .closeBrace => '}'
  | .openAngle => '<'
  | .closeAngle => '>'

def Mark.ofChar? : Char → Option Mark
  | ':' => some .colon
  | ',' => some .comma
  | '|' => some .bar
  | '{' => some .openBrace
  | '}' => some .closeBrace
  | '<' => some .openAngle
  | '>' => some .closeAngle
  | _ => none

@[simp] theorem Mark.ofChar?_char (m : Mark) : Mark.ofChar? m.char = some m := by
  cases m <;> rfl

theorem Mark.char_of_ofChar? {c : Char} {m : Mark} (h : Mark.ofChar? c = some m) :
    m.char = c := by
  unfold Mark.ofChar? at h
  split at h <;> cases h <;> rfl

/-- The back-quote, which encloses labels that are no identifiers. -/
def quote : Char := '\x60'

/-- A unit of a type expression, with the text it is written by. -/
inductive Lexeme where
  | identifier (text : String)
  | quotedLabel (text : String)
  | mark (m : Mark)
  deriving DecidableEq

def Lexeme.text : Lexeme → String
  | .identifier text => text
  | .quotedLabel text => text
  | .mark m => m.char.toString

def Lexeme.label? : Lexeme → Option String
  | .identifier text => some text
  | .quotedLabel text => some text
  | .mark _ => none

/-- A lexeme and its offset in bytes. -/
structure Token where
  lexeme : Lexeme
  position : Nat
  deriving DecidableEq

structure LexError where
  position : Nat
  unexpected : String
  deriving DecidableEq

def LexError.message (e : LexError) : String :=
  "unexpected `" ++ e.unexpected ++ "` at position " ++ toString e.position

end ManifestTypes.TypeExpr
