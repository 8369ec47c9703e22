import ManifestTypes.Yaml.Character
import ManifestTypes.Yaml.Resolution

/-!
# Written scalars

A string stands without quotes where a reader takes it as the same string again. It is quoted if
it would be taken for a value of another type or if its characters would be taken for structure.
A string of several lines is written over several lines.
-/

namespace ManifestTypes.Yaml

/-- How a string is written. -/
inductive Style where
  | plain
  | singleQuoted
  | doubleQuoted
  | literal
  deriving DecidableEq

/-- The style that suits what a text would stand for without quotes. -/
def Style.wanted (text : List Char) : Style :=
  if text.contains '\n' then .literal
  else
    match Meaning.ofText text with
    | .text => if isPadded (Text.sign text).2 then .singleQuoted else .plain
    | _ => .singleQuoted

def isIndicator (c : Char) : Bool :=
  ['#', ',', '[', ']', '{', '}', '&', '*', '!', '|', '>', '\'', '"', '%', '@', '\x60'].contains c

def startsStructure (text : List Char) : Bool :=
  match text with
  | '-' :: '-' :: '-' :: _ => true
  | '.' :: '.' :: '.' :: _ => true
  | [c] => isIndicator c || c == '-' || c == '?' || c == ':'
  | c :: d :: _ => isIndicator c || ((c == '-' || c == '?' || c == ':') && d == ' ')
  | [] => false

/-- Whether a colon before a blank or a number sign after one ends the scalar. -/
def endsEarly : List Char → Bool
  | [] => false
  | [c] => c == ':'
  | c :: d :: rest => (c == ':' && d == ' ') || (c == ' ' && d == '#') || endsEarly (d :: rest)

def adjoins (before after : Char → Bool) : List Char → Bool
  | c :: d :: rest => (before c && after d) || adjoins before after (d :: rest)
  | _ => false

/-- Whether a text can be written in a style. Blanks next to a line break would be lost between
quotes, as would blanks at the end of a line. -/
def Style.suits (text : List Char) : Style → Bool
  | .plain =>
    text.all isPrintable && !text.any isBreak && !startsStructure text && !endsEarly text
      && text.head? != some ' ' && text.getLast? != some ' '
  | .singleQuoted =>
    text.all isPrintable && !adjoins (· == ' ') isBreak text && !adjoins isBreak (· == ' ') text
  | .literal =>
    text.all isPrintable && !adjoins (· == ' ') isBreak text && text.getLast? != some ' '
  | .doubleQuoted => true

def Style.fallbacks : Style → List Style
  | .plain => [.plain, .singleQuoted]
  | .singleQuoted => [.singleQuoted]
  | .literal => [.literal]
  | .doubleQuoted => []

def Style.ofText (text : List Char) : Style :=
  ((wanted text).fallbacks.find? fun style => style.suits text).getD .doubleQuoted

def codePoint (width : Nat) (c : Char) : List Char :=
  let ds := (Nat.toDigits 16 c.toNat).map Char.toUpper
  List.replicate (width - ds.length) '0' ++ ds

def escape (c : Char) : List Char :=
  match shortEscapes.find? fun e => e.2 == c with
  | some (short, _) => ['\\', short]
  | none =>
    if c.toNat < 0x100 then '\\' :: 'x' :: codePoint 2 c
    else if c.toNat < 0x10000 then '\\' :: 'u' :: codePoint 4 c
    else '\\' :: 'U' :: codePoint 8 c

def needsEscape (c : Char) : Bool :=
  !isPrintable c || isBreak c || c == '"' || c == '\\'

def doubleQuoted (text : List Char) : List Char :=
  '"' :: text.flatMap (fun c => if needsEscape c then escape c else [c]) ++ ['"']

def blanks (count : Nat) : List Char :=
  List.replicate count ' '

/-- Puts blanks before each line that is not empty. `atStart` tells whether the text starts a
line. -/
def moveIn (indent : Nat) (atStart : Bool) : List Char → List Char
  | [] => []
  | c :: rest =>
    if isBreak c then c :: moveIn indent true rest
    else (if atStart then blanks indent else []) ++ c :: moveIn indent false rest

/-- A text in single quotes. A quote inside is written twice. -/
def singleQuoted (indent : Nat) (text : List Char) : List Char :=
  let doubled := text.flatMap fun c => if c = '\'' then ['\'', '\''] else [c]
  '\'' :: moveIn indent false (doubled ++ ['\''])

/-- What the bar before the lines of a text tells: how far they are moved in, where their own
blanks or breaks would hide that, and which line breaks at the end belong to the text. -/
def literalHints (text : List Char) : List Char :=
  let width := match text with
    | c :: _ => if c = ' ' ∨ isBreak c then ['2'] else []
    | [] => []
  let ending := match text.reverse with
    | c :: before =>
      if isBreak c = false then ['-'] else if before.head?.all isBreak then ['+'] else []
    | [] => ['-']
  width ++ ending

def literal (indent : Nat) (text : List Char) : List Char :=
  '|' :: literalHints text ++ '\n' :: moveIn indent true text

def stringText (indent : Nat) (text : List Char) : List Char :=
  match Style.ofText text with
  | .plain => text
  | .singleQuoted => singleQuoted indent text
  | .doubleQuoted => doubleQuoted text
  | .literal => literal indent text

end ManifestTypes.Yaml
