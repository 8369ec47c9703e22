import ManifestTypes.Json.Token
import ManifestTypes.Node.Assembly
import ManifestTypes.Text.Quoted
import ManifestTypes.Value.OfNode

/-!
# Reading JSON

The tokens of a JSON text are assembled to a document node, and the node is taken as a value.
-/

namespace ManifestTypes.Json

/-- Why a text is no document. -/
inductive ReadError where
  | malformed
  | numberOutOfRange
  | escape (e : EscapeFault)
  | duplicateKey (key : String)
  | tooDeep

def ReadError.message : ReadError → String
  | .malformed => "malformed text"
  | .numberOutOfRange => "number out of range"
  | .escape e => e.message
  | .duplicateKey key => "duplicate entry with key " ++ Text.quoted key
  | .tooDeep => "recursion limit exceeded"

def ReadError.ofTrouble : Assembly.Trouble Unit → ReadError
  | .unexpected => .malformed
  | .duplicateKey key _ _ => .duplicateKey key
  | .tooDeep _ => .tooDeep

def maxNesting : Nat := 127

def Token.symbol : Token → Except ReadError Assembly.Symbol
  | .openList => .ok .openList
  | .closeList => .ok .closeList
  | .openObject => .ok .openObject
  | .closeObject => .ok .closeObject
  | .comma => .ok .comma
  | .colon => .ok .colon
  | .null => .ok (.scalar .null)
  | .boolean b => .ok (.scalar (.boolean b))
  | .string s => .ok (.scalar (.string s))
  | .brokenString e => .error (.escape e)
  | .number n =>
    match n.number? with
    | some value => .ok (.scalar (.number value))
    | none => .error .numberOutOfRange

def step (limit : Nat) (state : Assembly.State Unit) (token : Token) :
    Except ReadError (Assembly.State Unit) := do
  let symbol ← token.symbol
  (state.step limit () symbol).mapError .ofTrouble

def readNode (limit : Nat) (source : String) : Except ReadError Node :=
  match tokens? source.toList with
  | none => .error .malformed
  | some tokens => do
    match ← tokens.foldlM (step limit) (.value []) with
    | .complete node => .ok node
    | _ => .error .malformed

inductive Error where
  | read (e : ReadError)
  | value (e : ValueError)

def Error.message : Error → String
  | .read e => e.message
  | .value e => e.message

/-- The value that a JSON text holds, with at most `limit` lists and objects open at a time. -/
def readWithin (limit : Nat) (source : String) : Except Error Value :=
  match readNode limit source with
  | .error e => .error (.read e)
  | .ok node =>
    match Value.ofNode node with
    | .ok v => .ok v
    | .error e => .error (.value e)

def read (source : String) : Except Error Value :=
  readWithin maxNesting source

end ManifestTypes.Json
