import ManifestTypes.Node.Assembly
import ManifestTypes.Text.Bytes
import ManifestTypes.Text.Quoted
import ManifestTypes.Yaml.Resolution
import ManifestTypes.Yaml.Token

/-!
# YAML streams

A stream holds documents, each behind a line of three dashes, which the first document may go
without. The documents are read in flow style, as JSON writes them.
-/

namespace ManifestTypes.Yaml

open Assembly (State Step Symbol)

inductive Error where
  | forbiddenCharacter (offset : Nat)
  | fault (f : Fault)
  | duplicateKey (key : String) (way : List Step) (object : Mark)
  | longInteger (n : Int) (way : List Step) (place : Mark)
  | tooDeep (place : Mark)
  | severalDocuments

def wayText : List Step → String
  | [] => "."
  | .element index :: outer => wayText outer ++ "[" ++ toString index ++ "]"
  | [.member key] => key
  | .member key :: outer => wayText outer ++ "." ++ key

def messageAt (way : List Step) (place : Mark) (message : String) : String :=
  (if wayText way = "." then "" else wayText way ++ ": ") ++ message ++ place.location

def Error.message : Error → String
  | .forbiddenCharacter offset =>
    "control characters are not allowed"
      ++ if offset = 0 then "" else " at position " ++ toString offset
  | .fault f => f.message
  | .duplicateKey key way object =>
    messageAt way object ("duplicate entry with key " ++ Text.quoted key)
  | .longInteger n way place =>
    messageAt way place <|
      "invalid type: integer \x60" ++ toString n ++ "\x60 as " ++ (if n < 0 then "i128" else "u128")
        ++ ", expected any YAML value"
  | .tooDeep place => "recursion limit exceeded" ++ place.location
  | .severalDocuments =>
    "deserializing from YAML containing more than one document is not supported"

def maxNesting : Nat := 128

def isShort (n : Int) : Bool :=
  -Int.pow 2 63 ≤ n && n < Int.pow 2 64

def symbol (state : State Mark) (p : Placed) : Except Error Symbol :=
  match p.token with
  | .documentStart => .error (.fault ⟨.missingNode, p.start, some (.node, p.start)⟩)
  | .openList => .ok .openList
  | .closeList => .ok .closeList
  | .openObject => .ok .openObject
  | .closeObject => .ok .closeObject
  | .comma => .ok .comma
  | .colon inReach =>
    match inReach, state with
    | false, .keyed _ object _ _ => .error (.fault ⟨.lateColon, p.start, some (.object, object)⟩)
    | _, _ => .ok .colon
  | .quoted text => .ok (.scalar (.string (String.ofList text)))
  | .plain text =>
    match Meaning.ofText text with
    | .null => .ok (.scalar .null)
    | .boolean b => .ok (.scalar (.boolean b))
    | .integer n =>
      if isShort n then .ok (.scalar (.number (.integer n)))
      else .error (.longInteger n state.way p.start)
    | .decimal x => .ok (.scalar (.number (.decimal x)))
    | .text => .ok (.scalar (.string (String.ofList text)))

def step (state : State Mark) (p : Placed) : Except Error (State Mark) := do
  match state.step maxNesting p.start (← symbol state p) with
  | .ok next => .ok next
  | .error .unexpected => .error (.fault ⟨.missingNode, p.start, some (.node, p.start)⟩)
  | .error (.duplicateKey key way object) => .error (.duplicateKey key way object)
  | .error (.tooDeep place) => .error (.tooDeep place)

def run (state : State Mark) : List Placed → Except Error (State Mark × List Placed)
  | [] => .ok (state, [])
  | p :: rest =>
    match state with
    | .complete node => .ok (.complete node, p :: rest)
    | _ => do
      let next ← step state p
      run next rest

/-- The tokens before the first line of dashes, and those behind each. -/
def sections : List Placed → List Placed × List (List Placed)
  | [] => ([], [])
  | p :: rest =>
    let (first, others) := sections rest
    match p.token with
    | .documentStart => ([], first :: others)
    | _ => (p :: first, others)

/-- The documents in the tokens between two lines of dashes, of which there should be one. Where
there are no tokens it is null. A fault is met at the end of the tokens. -/
def sectionDocuments (fault : Option Fault) (tokens : List Placed) :
    List (Except Error Node) :=
  match run (.value []) tokens, fault with
  | .error e, _ => [.error e]
  | .ok (.complete node, p :: _), _ =>
    [.ok node, .error (.fault ⟨.missingDocumentStart, p.start, none⟩)]
  | .ok _, some f => [.error (.fault f)]
  | .ok (.complete node, []), none => [.ok node]
  | .ok _, none =>
    if tokens.isEmpty then [.ok .null]
    else [.error (.fault ⟨.missingNode, .start, some (.node, .start)⟩)]

def sectionsDocuments (fault : Option Fault) : List (List Placed) → List (Except Error Node)
  | [] => []
  | [tokens] => sectionDocuments fault tokens
  | tokens :: rest => sectionDocuments none tokens ++ sectionsDocuments fault rest

/-- The documents of a stream, up to the first that cannot be read to its end. There is always
one: a stream without any holds null. -/
def documents (source : String) : List (Except Error Node) :=
  let text := source.toList
  if text.all isAllowed then
    let (tokens, fault) := tokens text
    match sections tokens with
    | ([], first :: others) => sectionsDocuments fault (first :: others)
    | (first, others) => sectionsDocuments fault (first :: others)
  else [.error (.forbiddenCharacter (Text.byteLength (text.takeWhile isAllowed)))]

def document (source : String) : Except Error Node :=
  match documents source with
  | [] => .ok .null
  | .error e :: _ => .error e
  | .ok _ :: _ :: _ => .error .severalDocuments
  | [.ok node] => .ok node

end ManifestTypes.Yaml
