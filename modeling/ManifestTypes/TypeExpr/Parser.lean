import ManifestTypes.Mismatch
import ManifestTypes.TypeExpr.Basic
import ManifestTypes.TypeExpr.Lexer

/-!
# Reading type expressions

```
record      := '{' [ field (',' field)* ] '}'
union       := '<' [ field ('|' field)* ] '>'
field       := label ':' application
application := identifier* [ record | union ]
```

The reader takes one token after the other and keeps the literals that are still open on a stack.
It never goes back, so the first token that cannot follow is reported, and a text whose tokens end
too early is reported at its end. Tokens are judged before the text behind them is looked at: a
lexical fault counts only once every token before it has been accepted.
-/

namespace ManifestTypes.TypeExpr

/-- Most literals that may be open at a time, the outermost record included. -/
def maxNesting : Nat := 256

/-- A field whose application ends in a literal that is still open, and the literal around it. -/
structure Enclosing where
  shape : Shape
  fields : Array Field
  key : String
  atoms : Array String

/-- Where the reader stands in the innermost open literal. -/
inductive Place where
  | opened
  | separated
  | labelled (key : String)
  | applying (key : String) (atoms : Array String)
  | closed

inductive State where
  | start
  | inside (outer : List Enclosing) (shape : Shape) (fields : Array Field) (place : Place)
  | complete (record : RecordType)

namespace State

def expected : State → Expectation
  | .start => .mark Mark.openBrace.char
  | .inside _ _ _ .opened => .fieldLabel
  | .inside _ _ _ .separated => .fieldLabel
  | .inside _ _ _ (.labelled _) => .mark Mark.colon.char
  | .inside _ shape _ (.applying ..) => .mark shape.closing.char
  | .inside _ shape _ .closed => .mark shape.closing.char
  | .complete _ => .endOfInput

def close (outer : List Enclosing) (shape : Shape) (fields : Array Field) : State :=
  match outer with
  | [] => .complete ⟨fields.toList⟩
  | e :: rest =>
    .inside rest e.shape
      (e.fields.push (.literal e.key e.atoms.toList shape fields.toList)) .closed

def step (s : State) (l : Lexeme) : Except Expectation State :=
  match s with
  | .start =>
    if l = .mark .openBrace then .ok (.inside [] .record #[] .opened) else .error s.expected
  | .complete _ => .error s.expected
  | .inside outer shape fields place =>
    match place with
    | .opened =>
      match l.label? with
      | some key => .ok (.inside outer shape fields (.labelled key))
      | none =>
        if l = .mark shape.closing then .ok (close outer shape fields) else .error s.expected
    | .separated =>
      match l.label? with
      | some key => .ok (.inside outer shape fields (.labelled key))
      | none => .error s.expected
    | .labelled key =>
      if l = .mark .colon then .ok (.inside outer shape fields (.applying key #[]))
      else .error s.expected
    | .applying key atoms =>
      match l with
      | .identifier atom => .ok (.inside outer shape fields (.applying key (atoms.push atom)))
      | .quotedLabel _ => .error s.expected
      | .mark m =>
        match Shape.ofOpening? m with
        | some inner =>
          if outer.length + 1 < maxNesting then
            .ok (.inside (⟨shape, fields, key, atoms⟩ :: outer) inner #[] .opened)
          else .error (.nestingWithin maxNesting)
        | none =>
          let fields := fields.push (.plain key atoms.toList)
          if m = shape.separator then .ok (.inside outer shape fields .separated)
          else if m = shape.closing then .ok (close outer shape fields)
          else .error s.expected
    | .closed =>
      if l = .mark shape.separator then .ok (.inside outer shape fields .separated)
      else if l = .mark shape.closing then .ok (close outer shape fields)
      else .error s.expected

def run (s : State) : List Token → Except Mismatch State
  | [] => .ok s
  | t :: rest =>
    match s.step t.lexeme with
    | .ok next => next.run rest
    | .error expected => .error ⟨expected, some t.lexeme.text, t.position⟩

end State

/-- Why a text is no type expression. -/
inductive ParseError where
  | lexical (fault : LexError)
  | mismatch (m : Mismatch)
  deriving DecidableEq

namespace ParseError

def lexicalSummary : String := "unable to tokenize type expression"

def mismatchSummary : String := "unable to parse type expression"

def messages : ParseError → List String
  | .lexical fault => [lexicalSummary, fault.message]
  | .mismatch m => [mismatchSummary, m.message]

end ParseError

/-- The record type that a text holds, and nothing else. -/
def parse (source : String) : Except ParseError RecordType :=
  let reading := read source.toList
  match State.start.run reading.tokens with
  | .error m => .error (.mismatch m)
  | .ok s =>
    match reading.fault? with
    | some fault => .error (.lexical fault)
    | none =>
      match s with
      | .complete record => .ok record
      | _ => .error (.mismatch ⟨s.expected, none, source.utf8ByteSize⟩)

end ManifestTypes.TypeExpr
