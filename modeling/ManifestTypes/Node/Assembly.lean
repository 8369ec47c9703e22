import ManifestTypes.Node.Basic

/-!
# Assembling nodes

A document in brackets is taken one symbol after the other. The lists and objects that are still
open are kept on a stack, each with its origin, the place of its opening bracket. A key that an
object has already is refused where it stands, and so is a bracket inside too many others.
-/

namespace ManifestTypes.Assembly

/-- One unit of a document. -/
inductive Symbol where
  | openList
  | closeList
  | openObject
  | closeObject
  | comma
  | colon
  | scalar (node : Node)

inductive Step where
  | element (index : Nat)
  | member (key : String)
  deriving DecidableEq

/-- A list or object that waits for the value inside it. -/
inductive Frame (α : Type) where
  | list (origin : α) (elements : Array Node)
  | object (origin : α) (entries : Array (String × Node)) (key : String)

def Frame.step {α : Type} : Frame α → Step
  | .list _ elements => .element elements.size
  | .object _ _ key => .member key

/-- Why a symbol is refused. -/
inductive Trouble (α : Type) where
  | unexpected
  | duplicateKey (key : String) (way : List Step) (origin : α)
  | tooDeep (origin : α)

/-- What has been read, with the frames around it. -/
inductive State (α : Type) where
  | value (outer : List (Frame α))
  | listOpened (outer : List (Frame α)) (origin : α)
  | objectOpened (outer : List (Frame α)) (origin : α)
  | element (outer : List (Frame α)) (origin : α) (elements : Array Node)
  | entry (outer : List (Frame α)) (origin : α) (entries : Array (String × Node))
  | nextKey (outer : List (Frame α)) (origin : α) (entries : Array (String × Node))
  | keyed (outer : List (Frame α)) (origin : α) (entries : Array (String × Node)) (key : String)
  | complete (node : Node)

def objectNode (entries : Array (String × Node)) : Node :=
  .mapping (entries.toList.map fun (key, node) => (.string key, node))

namespace State

variable {α : Type}

/-- Puts a finished node into the frame around it. -/
def deliver (outer : List (Frame α)) (node : Node) : State α :=
  match outer with
  | [] => .complete node
  | .list origin elements :: rest => .element rest origin (elements.push node)
  | .object origin entries key :: rest => .entry rest origin (entries.push (key, node))

/-- Takes the first symbol of a value. At most `limit` brackets may be open. -/
def begin (limit : Nat) (outer : List (Frame α)) (place : α) :
    Symbol → Except (Trouble α) (State α)
  | .openList =>
    if outer.length < limit then .ok (.listOpened outer place) else .error (.tooDeep place)
  | .openObject =>
    if outer.length < limit then .ok (.objectOpened outer place) else .error (.tooDeep place)
  | .scalar node => .ok (deliver outer node)
  | _ => .error .unexpected

def readKey (outer : List (Frame α)) (origin : α) (entries : Array (String × Node))
    (key : String) : Except (Trouble α) (State α) :=
  if entries.any fun e => e.1 == key then
    .error (.duplicateKey key (outer.map Frame.step) origin)
  else .ok (.keyed outer origin entries key)

def step (limit : Nat) (place : α) : State α → Symbol → Except (Trouble α) (State α)
  | .value outer, s => begin limit outer place s
  | .listOpened outer _, .closeList => .ok (deliver outer (.sequence []))
  | .listOpened outer origin, s => begin limit (.list origin #[] :: outer) place s
  | .objectOpened outer _, .closeObject => .ok (deliver outer (objectNode #[]))
  | .objectOpened outer origin, .scalar (.string key) => readKey outer origin #[] key
  | .element outer origin elements, .comma => .ok (.value (.list origin elements :: outer))
  | .element outer _ elements, .closeList => .ok (deliver outer (.sequence elements.toList))
  | .entry outer origin entries, .comma => .ok (.nextKey outer origin entries)
  | .entry outer _ entries, .closeObject => .ok (deliver outer (objectNode entries))
  | .nextKey outer origin entries, .scalar (.string key) => readKey outer origin entries key
  | .keyed outer origin entries key, .colon => .ok (.value (.object origin entries key :: outer))
  | _, _ => .error .unexpected

/-- The way from the inside out to the value that may follow. -/
def way : State α → List Step
  | .value outer => outer.map Frame.step
  | .listOpened outer _ => .element 0 :: outer.map Frame.step
  | _ => []

end State

end ManifestTypes.Assembly
