import ManifestTypes.TypeExpr.Basic

/-!
# The grammar of type expressions

The lexemes that a record type is written by, and how deep its literals are nested.
-/

namespace ManifestTypes.TypeExpr

def Lexeme.ofLabel (key : String) : Lexeme :=
  if key.toList.head? = some quote then .quotedLabel key else .identifier key

mutual

/-- `label ':' identifier* [ literal ]` -/
def Field.lexemes : Field → List Lexeme
  | .plain key atoms => .ofLabel key :: .mark .colon :: atoms.map .identifier
  | .literal key atoms shape fields =>
    .ofLabel key :: .mark .colon :: atoms.map .identifier
      ++ .mark shape.opening :: Field.lexemesAll shape true fields ++ [.mark shape.closing]

def Field.lexemesAll (shape : Shape) (isFirst : Bool) : List Field → List Lexeme
  | [] => []
  | f :: rest =>
    (if isFirst then [] else [.mark shape.separator]) ++ f.lexemes
      ++ Field.lexemesAll shape false rest

end

def RecordType.lexemes (r : RecordType) : List Lexeme :=
  .mark .openBrace :: Field.lexemesAll .record true r.fields ++ [.mark .closeBrace]

mutual

/-- How many literals lie within each other in a field. -/
def Field.nesting : Field → Nat
  | .plain _ _ => 0
  | .literal _ _ _ fields => Field.nestingAll fields + 1

def Field.nestingAll : List Field → Nat
  | [] => 0
  | f :: rest => max f.nesting (Field.nestingAll rest)

end

def RecordType.nesting (r : RecordType) : Nat :=
  Field.nestingAll r.fields + 1

end ManifestTypes.TypeExpr
