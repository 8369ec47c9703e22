import ManifestTypes.Text.Blank
import ManifestTypes.Text.Bytes
import ManifestTypes.TypeExpr.Lexeme

/-!
# Reading lexemes

A text is taken apart into lexemes and the gaps before them. White space and round parentheses
only separate, so `Optional (List Text)` and `Optional List Text` have the same lexemes. Reading
stops where no lexeme starts. `Reading.text_read` says that nothing of the text is lost.
-/

namespace ManifestTypes.TypeExpr

/-- White space and round parentheses, which stand between lexemes and mean nothing. -/
def isIgnored (c : Char) : Bool :=
  Text.isBlank c || c == '(' || c == ')'

def isIdentifierRest (c : Char) : Bool :=
  c.isAlphanum || c == '_' || c == '-'

/-- What may stand in a quoted label: all but the quote and the line feed. -/
def isQuotable (c : Char) : Bool :=
  c != quote && c != '\n'

/-- The rest of a quoted label, after its opening quote. It must not be empty and ends on its
line. -/
def quotedRest? (text : List Char) : Option (Lexeme × List Char) :=
  match text.takeWhile isQuotable, text.dropWhile isQuotable with
  | b :: body, c :: rest =>
    if c = quote then
      some (.quotedLabel (String.ofList (quote :: b :: body ++ [quote])), rest)
    else none
  | _, _ => none

/-- The lexeme at the start of a text, as long as possible, and the text after it. Identifiers
start with a letter of ASCII. -/
def lexeme? : List Char → Option (Lexeme × List Char)
  | [] => none
  | c :: rest =>
    if c.isAlpha then
      some (.identifier (String.ofList (c :: rest.takeWhile isIdentifierRest)),
        rest.dropWhile isIdentifierRest)
    else if c = quote then quotedRest? rest
    else (Mark.ofChar? c).map fun m => (.mark m, rest)

theorem quotedRest?_text {text rest : List Char} {l : Lexeme}
    (h : quotedRest? text = some (l, rest)) :
    l.text.toList ++ rest = quote :: text ∧ rest.length < text.length := by
  unfold quotedRest? at h
  have hsplit := List.takeWhile_append_dropWhile (p := isQuotable) (l := text)
  split at h
  · next b body c tail hbody htail =>
    split at h
    · next hc =>
      cases h
      rw [hbody, htail] at hsplit
      subst hc
      rw [← hsplit]
      exact ⟨by simp [Lexeme.text], by simp; omega⟩
    · cases h
  · cases h

/-- A lexeme is the beginning of the text it is read from. -/
theorem lexeme?_text {text rest : List Char} {l : Lexeme} (h : lexeme? text = some (l, rest)) :
    l.text.toList ++ rest = text := by
  unfold lexeme? at h
  split at h
  · cases h
  · next c tail =>
    split at h
    · cases h
      simp [Lexeme.text, List.takeWhile_append_dropWhile]
    · split at h
      · next hc => rw [hc]; exact (quotedRest?_text h).1
      · obtain ⟨m, hm, heq⟩ := Option.map_eq_some_iff.mp h
        cases heq
        simp [Lexeme.text, Mark.char_of_ofChar? hm]

theorem lexeme?_length {text rest : List Char} {l : Lexeme} (h : lexeme? text = some (l, rest)) :
    rest.length < text.length := by
  unfold lexeme? at h
  split at h
  · cases h
  · next c tail =>
    split at h
    · cases h
      exact Nat.lt_succ_of_le (List.dropWhile_suffix _).length_le
    · split at h
      · exact Nat.lt_succ_of_lt (quotedRest?_text h).2
      · obtain ⟨m, hm, heq⟩ := Option.map_eq_some_iff.mp h
        cases heq
        exact Nat.lt_succ_self _

structure Spaced where
  gap : List Char
  lexeme : Lexeme
  deriving DecidableEq

/-- A text taken apart up to where no lexeme starts. -/
structure Reading where
  items : List Spaced
  trailing : List Char
  unread : List Char
  deriving DecidableEq

def read (text : List Char) : Reading :=
  let gap := text.takeWhile isIgnored
  let rest := text.dropWhile isIgnored
  match _hread : lexeme? rest with
  | none => ⟨[], gap, rest⟩
  | some (l, rest') =>
    let reading := read rest'
    { reading with items := ⟨gap, l⟩ :: reading.items }
termination_by text.length
decreasing_by
  exact Nat.lt_of_lt_of_le (lexeme?_length _hread) (List.dropWhile_suffix _).length_le

def Spaced.text (s : Spaced) : List Char :=
  s.gap ++ s.lexeme.text.toList

def Reading.consumed (r : Reading) : List Char :=
  r.items.flatMap Spaced.text ++ r.trailing

/-- Nothing of a text is lost by taking it apart. -/
theorem Reading.text_read (text : List Char) :
    (read text).consumed ++ (read text).unread = text := by
  induction hn : text.length using Nat.strongRecOn generalizing text with
  | ind n ih =>
    have hsplit := List.takeWhile_append_dropWhile (p := isIgnored) (l := text)
    rw [read]
    split
    · simp [Reading.consumed]
    · next l rest h =>
      have hlt : rest.length < n :=
        hn ▸ Nat.lt_of_lt_of_le (lexeme?_length h) (List.dropWhile_suffix _).length_le
      have hrest := ih _ hlt rest rfl
      have htext := lexeme?_text h
      simp only [Reading.consumed, Spaced.text, List.flatMap_cons, List.append_assoc] at hrest ⊢
      rw [hrest, htext, hsplit]

def place (start : Nat) : List Spaced → List Token
  | [] => []
  | s :: rest =>
    ⟨s.lexeme, start + Text.byteLength s.gap⟩ :: place (start + Text.byteLength s.text) rest

def Reading.tokens (r : Reading) : List Token :=
  place 0 r.items

/-- The first line of a text, without the line feed or the carriage return and line feed that
end it. -/
def firstLine (text : List Char) : List Char :=
  let line := text.takeWhile (· != '\n')
  if line.length < text.length ∧ line.getLast? = some '\r' then line.dropLast else line

/-- What cannot be read: the rest of the line from a quote on, else one character. -/
def unexpectedText : List Char → List Char
  | [] => []
  | c :: rest => if c = quote then firstLine (c :: rest) else [c]

def Reading.fault? (r : Reading) : Option LexError :=
  if r.unread = [] then none
  else some ⟨Text.byteLength r.consumed, String.ofList (unexpectedText r.unread)⟩

def tokenize (source : String) : Except LexError (List Token) :=
  let reading := read source.toList
  match reading.fault? with
  | none => .ok reading.tokens
  | some fault => .error fault

end ManifestTypes.TypeExpr
