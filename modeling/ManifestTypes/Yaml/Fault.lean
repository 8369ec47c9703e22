import ManifestTypes.Yaml.Mark

/-!
# Faults of streams

Why a text is no stream of documents, and where.
-/

namespace ManifestTypes.Yaml

/-- What is wrong at a place. -/
inductive Problem where
  | noToken
  | unknownEscape
  | missingDigits
  | noCharacter
  | marker
  | endOfText
  | lateColon
  | missingNode
  | missingDocumentStart
  deriving DecidableEq

def Problem.message : Problem → String
  | .noToken => "found character that cannot start any token"
  | .unknownEscape => "found unknown escape character"
  | .missingDigits => "did not find expected hexdecimal number"
  | .noCharacter => "found invalid Unicode character escape code"
  | .marker => "found unexpected document indicator"
  | .endOfText => "found unexpected end of stream"
  | .lateColon => "did not find expected ',' or '\x7d'"
  | .missingNode => "did not find expected node content"
  | .missingDocumentStart => "did not find expected <document start>"

inductive Activity where
  | nextToken
  | quotedText
  | escape
  | object
  | node
  deriving DecidableEq

def Activity.message : Activity → String
  | .nextToken => "while scanning for the next token"
  | .quotedText => "while scanning a quoted scalar"
  | .escape => "while parsing a quoted scalar"
  | .object => "while parsing a flow mapping"
  | .node => "while parsing a flow node"

structure Fault where
  problem : Problem
  mark : Mark
  context : Option (Activity × Mark)
  deriving DecidableEq

/-- The context is placed only where it starts somewhere else than at the problem. -/
def Fault.message (f : Fault) : String :=
  let context := match f.context with
    | none => ""
    | some (activity, mark) =>
      ", " ++ activity.message
        ++ if mark.line = f.mark.line ∧ mark.column = f.mark.column then "" else mark.location
  f.problem.message ++ f.mark.location ++ context

end ManifestTypes.Yaml
