import ManifestTypes.Yaml.Quoted

/-!
# Tokens of streams

The brackets, signs and scalars of documents in flow style, and the lines of dashes between
documents. Reading stops at the first fault. A token that may turn out to be a key is held back
until what follows it settles whether it is one, so a fault also hides tokens before it, from the
first one on that is not settled.
-/

namespace ManifestTypes.Yaml

inductive Token where
  | documentStart
  | openList
  | closeList
  | openObject
  | closeObject
  | comma
  | colon (inReach : Bool)
  | plain (text : List Char)
  | quoted (text : List Char)

def Token.isOpening : Token → Bool
  | .openList | .openObject => true
  | _ => false

def Token.canBeKey : Token → Bool
  | .openList | .openObject | .plain _ | .quoted _ => true
  | _ => false

structure Placed where
  token : Token
  start : Mark
  stop : Mark
  mayBeKey : Bool

/-- What the tokens so far mean for those that follow: how many brackets are open, whether a key may
follow, and where the last token starts. -/
structure Context where
  depth : Nat
  keyAllowed : Bool
  last : Mark

namespace Context

def start : Context := ⟨0, true, .start⟩

/-- Outside of brackets a key may stand at the start of each line. -/
def newLine (s : Context) : Context :=
  if s.depth = 0 then { s with keyAllowed := true } else s

def after (s : Context) (token : Token) (place : Mark) : Context :=
  match token with
  | .openList | .openObject => ⟨s.depth + 1, true, place⟩
  | .closeList | .closeObject => ⟨s.depth - 1, false, place⟩
  | .comma => ⟨s.depth, true, place⟩
  | .documentStart | .colon _ | .plain _ | .quoted _ => ⟨s.depth, false, place⟩

end Context

/-- Leaves out the white space before a token. Where a key may stand outside of brackets there is
no tab, for it would be taken as a level of the document. A byte order mark may start the text. -/
def skipGap (s : Context) : List Located → Except Fault (Context × List Located)
  | [] => .ok (s, [])
  | c :: rest =>
    if c.char = ' ' then skipGap s rest
    else if c.char = '\t' then
      if s.depth = 0 ∧ s.keyAllowed then .error ⟨.noToken, c.mark, some (.nextToken, c.mark)⟩
      else skipGap s rest
    else if c.isBreak then skipGap s.newLine rest
    else if c.char = '\ufeff' ∧ c.mark.offset = 0 then skipGap s rest
    else .ok (s, c :: rest)

def sign? (last place : Mark) : Char → Option Token
  | '[' => some .openList
  | ']' => some .closeList
  | '{' => some .openObject
  | '}' => some .closeObject
  | ',' => some .comma
  | ':' => some (.colon (last.reaches place))
  | _ => none

/-- Whether a character ends a scalar without quotes: white space, or the start of another
token. -/
def endsPlain (c : Located) : Bool :=
  isGap c || ['[', ']', '{', '}', ',', ':', '"'].contains c.char

/-- The token that starts with a character, and what is left behind it. White space behind a
scalar without quotes goes with it. -/
def readToken (stop : Mark) (s : Context) (c : Located) (rest : List Located) :
    Except Fault (Token × List Located) :=
  if startsMarker '-' (c :: rest) then .ok (.documentStart, rest.drop 2)
  else
    match sign? s.last c.mark c.char with
    | some token => .ok (token, rest)
    | none =>
      if c.char = '"' then (quotedRest stop c.mark rest).map fun (cs, more) => (.quoted cs, more)
      else
        .ok (.plain ((c :: rest.takeWhile (!endsPlain ·)).map Located.char),
          (rest.dropWhile (!endsPlain ·)).dropWhile isGap)

theorem skipGap_length {s t : Context} {text rest : List Located}
    (h : skipGap s text = .ok (t, rest)) : rest.length ≤ text.length := by
  fun_induction skipGap s text with
  | case1 => cases h; exact Nat.le_refl _
  | case2 _ _ _ _ ih => exact Nat.le_succ_of_le (ih h)
  | case3 => cases h
  | case4 _ _ _ _ _ _ ih => exact Nat.le_succ_of_le (ih h)
  | case5 _ _ _ _ _ _ ih => exact Nat.le_succ_of_le (ih h)
  | case6 _ _ _ _ _ _ _ ih => exact Nat.le_succ_of_le (ih h)
  | case7 => cases h; exact Nat.le_refl _

theorem readToken_length {stop : Mark} {s : Context} {c : Located} {rest more : List Located}
    {token : Token} (h : readToken stop s c rest = .ok (token, more)) :
    more.length ≤ rest.length := by
  unfold readToken at h
  split at h
  · cases h
    simp
  · split at h
    · cases h
      exact Nat.le_refl _
    · split at h
      · cases hread : quotedRest stop c.mark rest with
        | error => rw [hread] at h; cases h
        | ok r => rw [hread] at h; cases h; exact Nat.le_of_lt (quotedRest_length hread)
      · cases h
        exact Nat.le_trans (List.dropWhile_suffix _).length_le (List.dropWhile_suffix _).length_le

def scan (stop : Mark) (s : Context) (text : List Located) : List Placed × Option Fault :=
  match _hskip : skipGap s text with
  | .error fault => ([], some fault)
  | .ok (_, []) => ([], none)
  | .ok (s, c :: rest) =>
    match _hread : readToken stop s c rest with
    | .error fault => ([], some fault)
    | .ok (token, more) =>
      let placed : Placed := ⟨token, c.mark, markOf stop more, s.keyAllowed && token.canBeKey⟩
      let (others, fault) := scan stop (s.after token c.mark) more
      (placed :: others, fault)
termination_by text.length
decreasing_by
  exact Nat.lt_of_le_of_lt (readToken_length _hread) (skipGap_length _hskip)

/-- Whether the tokens behind one settle that it is a key or that it is none: something follows
at its level, or its level ends. `depth` is the number of brackets opened since. -/
def settles (depth : Nat) : List Placed → Bool
  | [] => false
  | p :: rest =>
    match p.token with
    | .openList | .openObject => settles (depth + 1) rest
    | .closeList | .closeObject => depth == 0 || settles (depth - 1) rest
    | .comma | .colon _ => depth == 0 || settles depth rest
    | .documentStart => true
    | .plain _ | .quoted _ => settles depth rest

def Placed.isSettled (p : Placed) (place : Mark) (rest : List Placed) : Bool :=
  !p.mayBeKey || !p.start.reaches place || settles (if p.token.isOpening then 1 else 0) rest

/-- The tokens before the first one that is not settled at the end of all of them. -/
def settled (place : Mark) : List Placed → List Placed
  | [] => []
  | p :: rest => if p.isSettled place rest then p :: settled place rest else []

/-- The tokens of a text as far as a fault does not hide them, and that fault. -/
def tokens (text : List Char) : List Placed × Option Fault :=
  let located := locate .start text
  match scan (endMark located) .start located with
  | (placed, none) => (placed, none)
  | (placed, some fault) =>
    let place := match placed.getLast? with
      | some p => p.stop
      | none => .start
    (settled place placed, some fault)

end ManifestTypes.Yaml
