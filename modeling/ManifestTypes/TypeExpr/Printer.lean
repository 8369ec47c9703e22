import ManifestTypes.TypeExpr.Basic

/-!
# Writing type expressions

A literal starts a line for every field and for its closing bracket. Lines are indented by tabs,
and a line that continues a literal starts with the separator. An application of more than two
parts is written with parentheses that lean to the right and close together at its end:
`Optional ( List ( Text ) )`.
-/

namespace ManifestTypes.TypeExpr

def tabs (level : Nat) : String :=
  String.ofList (List.replicate level '\t')

/-- A record that ends an application stands one level further in than a union does. -/
def Shape.inset : Shape → Nat
  | .record => 1
  | .union => 0

def Shape.continuation : Shape → String
  | .record => ", "
  | .union => " | "

def bracketed (shape : Shape) (level : Nat) (fields : String) : String :=
  shape.opening.char.toString ++ "\n" ++ fields ++ tabs (level - 1)
    ++ shape.closing.char.toString

/-- A chain of names and the text of its tail. From three parts on, each name but the first
opens a parenthesis. -/
def chain (atoms : List String) (tail : Option String) : String :=
  if atoms.length + tail.toList.length ≤ 2 then " ".intercalate (atoms ++ tail.toList)
  else
    match atoms with
    | [] => String.join tail.toList
    | first :: rest =>
      first ++ String.join (rest.map fun atom => " ( " ++ atom)
        ++ String.join (tail.toList.map fun text => " " ++ text)
        ++ String.join (rest.map fun _ => " )")

mutual

def Field.render (level : Nat) : Field → String
  | .plain key atoms => key ++ ": " ++ chain atoms none ++ "\n"
  | .literal key atoms shape fields =>
    let inner := level + 1 + shape.inset
    key ++ ": "
      ++ chain atoms (some (bracketed shape inner (renderFields shape inner true fields)))
      ++ "\n"

/-- The lines of a literal's fields; only the first stands without a separator. -/
def Field.renderFields (shape : Shape) (level : Nat) (isFirst : Bool) : List Field → String
  | [] => ""
  | f :: rest =>
    tabs level ++ (if isFirst then "" else shape.continuation) ++ f.render level
      ++ renderFields shape level false rest

end

def Literal.render (level : Nat) (l : Literal) : String :=
  bracketed l.shape level (Field.renderFields l.shape level true l.fields)

def RecordType.render (level : Nat) (r : RecordType) : String :=
  Literal.render level ⟨.record, r.fields⟩

def Literal.renderTail (level : Nat) (l : Literal) : String :=
  l.render (level + l.shape.inset)

def Application.render (level : Nat) (a : Application) : String :=
  chain a.atoms (a.tail.map (Literal.renderTail (level + 1)))

theorem Field.render_eq (level : Nat) (f : Field) :
    f.render level = f.key ++ ": " ++ f.value.render level ++ "\n" := by
  cases f <;> simp [Field.render, Field.key, Field.value, Application.render, Literal.renderTail,
    Literal.render]

end ManifestTypes.TypeExpr
