import ManifestTypes.Json.Numeral

/-!
# JSON tokens

The units of a JSON text: brackets and signs, numbers, strings and the three words.
-/

namespace ManifestTypes.Json

open Text (hexValue?)

inductive EscapeFault where
  | loneSurrogate
  | cutShort
  deriving DecidableEq

def EscapeFault.message : EscapeFault → String
  | .loneSurrogate => "lone leading surrogate in hex escape"
  | .cutShort => "unexpected end of hex escape"

inductive Token where
  | openList
  | closeList
  | openObject
  | closeObject
  | comma
  | colon
  | null
  | boolean (b : Bool)
  | number (n : Numeral)
  | string (s : String)
  | brokenString (e : EscapeFault)

def isBlank (c : Char) : Bool :=
  c == ' ' || c == '\t' || c == '\n' || c == '\r'

def unit? : List Char → Option (Nat × List Char)
  | a :: b :: c :: d :: rest => do
    let a ← hexValue? a
    let b ← hexValue? b
    let c ← hexValue? c
    let d ← hexValue? d
    some (((a * 16 + b) * 16 + c) * 16 + d, rest)
  | _ => none

def escapedUnit? : List Char → Option (Nat × List Char)
  | '\\' :: 'u' :: rest => unit? rest
  | _ => none

def unicode? (text : List Char) : Option (Except EscapeFault Char × List Char) := do
  let (unit, rest) ← unit? text
  if 0xD800 ≤ unit ∧ unit < 0xDC00 then
    match escapedUnit? rest with
    | none => some (.error .cutShort, rest)
    | some (low, rest) =>
      if 0xDC00 ≤ low ∧ low < 0xE000 then
        some (.ok (Char.ofNat (0x10000 + (unit - 0xD800) * 0x400 + (low - 0xDC00))), rest)
      else some (.error .loneSurrogate, rest)
  else if 0xDC00 ≤ unit ∧ unit < 0xE000 then some (.error .loneSurrogate, rest)
  else some (.ok (Char.ofNat unit), rest)

def shortEscape? : Char → Option Char
  | '"' => some '"'
  | '\\' => some '\\'
  | '/' => some '/'
  | 'b' => some '\x08'
  | 'f' => some '\x0c'
  | 'n' => some '\n'
  | 'r' => some '\r'
  | 't' => some '\t'
  | _ => none

def escaped? : List Char → Option (Except EscapeFault Char × List Char)
  | [] => none
  | c :: rest => if c = 'u' then unicode? rest else (shortEscape? c).map fun d => (.ok d, rest)

theorem unit?_length {text rest : List Char} {n : Nat} (h : unit? text = some (n, rest)) :
    rest.length < text.length := by
  unfold unit? at h
  split at h
  · simp only [Option.bind_eq_bind, Option.bind_eq_some_iff, Option.some.injEq,
      Prod.mk.injEq] at h
    obtain ⟨_, _, _, _, _, _, _, _, _, rfl⟩ := h
    simp only [List.length_cons]
    omega
  · cases h

theorem escapedUnit?_length {text rest : List Char} {n : Nat}
    (h : escapedUnit? text = some (n, rest)) : rest.length < text.length := by
  unfold escapedUnit? at h
  split at h
  · exact Nat.lt_succ_of_lt (Nat.lt_succ_of_lt (unit?_length h))
  · cases h

theorem unicode?_length {text rest : List Char} {c : Except EscapeFault Char}
    (h : unicode? text = some (c, rest)) : rest.length < text.length := by
  unfold unicode? at h
  obtain ⟨⟨unit, more⟩, hunit, h⟩ := Option.bind_eq_some_iff.mp h
  have hlt : more.length < text.length := unit?_length hunit
  dsimp only at h
  split at h
  · split at h
    · cases h
      exact hlt
    · next hlow =>
      have hlow := Nat.lt_trans (escapedUnit?_length hlow) hlt
      split at h <;> (cases h; exact hlow)
  · split at h <;> (cases h; exact hlt)

theorem escaped?_length {text rest : List Char} {c : Except EscapeFault Char}
    (h : escaped? text = some (c, rest)) : rest.length < text.length := by
  unfold escaped? at h
  split at h
  · cases h
  · split at h
    · exact Nat.lt_succ_of_lt (unicode?_length h)
    · simp only [Option.map_eq_some_iff, Prod.mk.injEq] at h
      obtain ⟨_, _, _, rfl⟩ := h
      exact Nat.lt_succ_self _

/-- Puts a character before others, unless one of them is broken. The first fault counts. -/
def consChar (c : Except EscapeFault Char) (cs : Except EscapeFault (List Char)) :
    Except EscapeFault (List Char) := do
  let c ← c
  let cs ← cs
  .ok (c :: cs)

/-- The characters of a string, read behind its opening quote. Control characters must be
escaped. -/
def stringRest? (text : List Char) : Option (Except EscapeFault (List Char) × List Char) :=
  match text with
  | [] => none
  | c :: rest =>
    if c = '"' then some (.ok [], rest)
    else if c = '\\' then
      match _hread : escaped? rest with
      | none => none
      | some (d, rest') => (stringRest? rest').map fun (ds, rest) => (consChar d ds, rest)
    else if c.toNat < 0x20 then none
    else (stringRest? rest).map fun (ds, rest) => (consChar (.ok c) ds, rest)
termination_by text.length
decreasing_by
  · exact Nat.lt_succ_of_lt (escaped?_length _hread)
  · exact Nat.lt_succ_self _

theorem stringRest?_length {text rest : List Char} {s : Except EscapeFault (List Char)}
    (h : stringRest? text = some (s, rest)) : rest.length < text.length := by
  fun_induction stringRest? text generalizing s with
  | case1 => cases h
  | case2 tail => cases h; exact Nat.lt_succ_self _
  | case3 => cases h
  | case4 tail d rest' hread _ ih =>
    obtain ⟨⟨ds, more⟩, hds, heq⟩ := Option.map_eq_some_iff.mp h
    cases heq
    have := ih hds
    have := escaped?_length hread
    simp only [List.length_cons]
    omega
  | case5 => cases h
  | case6 c tail _ _ _ ih =>
    obtain ⟨⟨ds, more⟩, hds, heq⟩ := Option.map_eq_some_iff.mp h
    cases heq
    exact Nat.lt_succ_of_lt (ih hds)

def stringToken : Except EscapeFault (List Char) → Token
  | .ok cs => .string (String.ofList cs)
  | .error e => .brokenString e

def afterWord? (word text : List Char) : Option (List Char) :=
  if word.isPrefixOf text then some (text.drop word.length) else none

def word? (text : List Char) : Option (Token × List Char) :=
  let word (token : Token) (spelling : String) : Option (Token × List Char) :=
    (afterWord? spelling.toList text).map (token, ·)
  (word .null "null").or ((word (.boolean true) "true").or (word (.boolean false) "false"))

def sign? : Char → Option Token
  | '[' => some .openList
  | ']' => some .closeList
  | '{' => some .openObject
  | '}' => some .closeObject
  | ',' => some .comma
  | ':' => some .colon
  | _ => none

def token? (text : List Char) : Option (Token × List Char) :=
  match text with
  | [] => none
  | c :: rest =>
    match sign? c with
    | some token => some (token, rest)
    | none =>
      if c = '"' then (stringRest? rest).map fun (s, rest) => (stringToken s, rest)
      else
        (word? (c :: rest)).or
          ((numeral? (c :: rest)).map fun (n, rest) => (.number n, rest))

theorem word?_length {text rest : List Char} {t : Token} (h : word? text = some (t, rest)) :
    rest.length < text.length := by
  have after {t' : Token} {spelling : String} (hs : spelling.toList ≠ [])
      (h : (afterWord? spelling.toList text).map (t', ·) = some (t, rest)) :
      rest.length < text.length := by
    obtain ⟨_, h, heq⟩ := Option.map_eq_some_iff.mp h
    cases heq
    unfold afterWord? at h
    split at h
    · next hprefix =>
      cases h
      have := (List.isPrefixOf_iff_prefix.mp hprefix).length_le
      have := List.length_pos_iff.mpr hs
      simp only [List.length_drop]
      omega
    · cases h
  simp only [word?, Option.or_eq_some_iff] at h
  rcases h with h | ⟨-, h | ⟨-, h⟩⟩ <;> exact after (by decide) h

theorem token?_length {text rest : List Char} {t : Token} (h : token? text = some (t, rest)) :
    rest.length < text.length := by
  unfold token? at h
  split at h
  · cases h
  · split at h
    · cases h
      exact Nat.lt_succ_self _
    · split at h
      · obtain ⟨_, hs, heq⟩ := Option.map_eq_some_iff.mp h
        cases heq
        exact Nat.lt_succ_of_lt (stringRest?_length hs)
      · rcases Option.or_eq_some_iff.mp h with h | ⟨-, h⟩
        · exact word?_length h
        · obtain ⟨_, hn, heq⟩ := Option.map_eq_some_iff.mp h
          cases heq
          exact numeral?_length hn

def tokens? (text : List Char) : Option (List Token) :=
  if text.all isBlank then some []
  else
    match _hread : token? (text.dropWhile isBlank) with
    | none => none
    | some (token, rest) => (tokens? rest).map (token :: ·)
termination_by text.length
decreasing_by
  exact Nat.lt_of_lt_of_le (token?_length _hread) (List.dropWhile_suffix _).length_le

end ManifestTypes.Json
