import ManifestTypes.Text.Digits
import ManifestTypes.Yaml.Fault

/-!
# Quoted texts

Texts in double quotes, as they are read. Line breaks inside fold, together with the blanks
around them; characters that are given by escapes never do.
-/

namespace ManifestTypes.Yaml

/-- A line break as it is kept. All but two are the same. -/
def keptBreak (c : Char) : Char :=
  if c = '\u2028' ∨ c = '\u2029' then c else '\n'

/-- What blanks and line breaks between other characters stand for: a single line feed is a
space, and the first of several is dropped. -/
def folded (run : List Char) : List Char :=
  match (run.filter isBreak).map keptBreak with
  | [] => run
  | ['\n'] => [' ']
  | '\n' :: breaks => breaks
  | breaks => breaks

def digitCount? : Char → Option Nat
  | 'x' => some 2
  | 'u' => some 4
  | 'U' => some 8
  | _ => none

def readCodePoint (stop start : Mark) (width : Nat) (text : List Located) :
    Except Fault (Char × List Located) :=
  let ds := (text.take width).map Located.char
  match if ds.length = width then Text.number? 16 ds else none with
  | none => .error ⟨.missingDigits, markOf stop text, some (.escape, start)⟩
  | some n =>
    if n.isValidChar then .ok (Char.ofNat n, text.drop width)
    else .error ⟨.noCharacter, markOf stop text, some (.escape, start)⟩

def readEscape (stop start backslash : Mark) :
    List Located → Except Fault (Char × List Located)
  | [] => .error ⟨.unknownEscape, backslash, some (.escape, start)⟩
  | c :: rest =>
    match digitCount? c.char, shortEscapes.find? fun e => e.1 == c.char with
    | some width, _ => readCodePoint stop start width rest
    | none, some (_, d) => .ok (d, rest)
    | none, none => .error ⟨.unknownEscape, backslash, some (.escape, start)⟩

theorem readCodePoint_length {stop start : Mark} {width : Nat} {text rest : List Located}
    {c : Char} (h : readCodePoint stop start width text = .ok (c, rest)) :
    rest.length ≤ text.length := by
  unfold readCodePoint at h
  dsimp only at h
  split at h
  · cases h
  · split at h
    · cases h
      simp
    · cases h

theorem readEscape_length {stop start backslash : Mark} {text rest : List Located} {c : Char}
    (h : readEscape stop start backslash text = .ok (c, rest)) : rest.length ≤ text.length := by
  unfold readEscape at h
  split at h
  · cases h
  · split at h
    · exact Nat.le_succ_of_le (readCodePoint_length h)
    · cases h
      exact Nat.le_succ _
    · cases h

def isGap (c : Located) : Bool :=
  c.isBlank || c.isBreak

/-- The characters of a quoted text, read behind its opening quote, which is at `start`, and the
text behind its closing quote. -/
def quotedRest (stop start : Mark) (text : List Located) :
    Except Fault (List Char × List Located) :=
  match text with
  | [] => .error ⟨.endOfText, stop, some (.quotedText, start)⟩
  | c :: rest =>
    if startsMarker '-' (c :: rest) || startsMarker '.' (c :: rest) then
      .error ⟨.marker, c.mark, some (.quotedText, start)⟩
    else if isGap c then
      (quotedRest stop start (rest.dropWhile isGap)).map fun (cs, more) =>
        (folded ((c :: rest.takeWhile isGap).map Located.char) ++ cs, more)
    else if c.char = '"' then .ok ([], rest)
    else if c.char = '\\' then
      match _hread : readEscape stop start c.mark rest with
      | .error fault => .error fault
      | .ok (d, rest) => (quotedRest stop start rest).map fun (cs, rest) => (d :: cs, rest)
    else (quotedRest stop start rest).map fun (cs, rest) => (c.char :: cs, rest)
termination_by text.length
decreasing_by
  · exact Nat.lt_succ_of_le (List.dropWhile_suffix _).length_le
  · exact Nat.lt_succ_of_le (readEscape_length _hread)
  · exact Nat.lt_succ_self _

/-- What is left is left alone where only characters are put before the others. -/
theorem ok_of_map {read : Except Fault (List Char × List Located)}
    {add : List Char → List Char} {cs : List Char} {rest : List Located}
    (h : (read.map fun (ds, more) => (add ds, more)) = .ok (cs, rest)) :
    ∃ ds, read = .ok (ds, rest) := by
  cases read with
  | error => cases h
  | ok r => cases h; exact ⟨r.1, rfl⟩

theorem quotedRest_length {stop start : Mark} {text rest : List Located} {cs : List Char}
    (h : quotedRest stop start text = .ok (cs, rest)) : rest.length < text.length := by
  fun_induction quotedRest stop start text generalizing cs with
  | case1 => cases h
  | case2 => cases h
  | case3 c tail _ _ ih =>
    obtain ⟨ds, hds⟩ := ok_of_map h
    have := ih hds
    have := (List.dropWhile_suffix isGap (l := tail)).length_le
    simp only [List.length_cons]
    omega
  | case4 => cases h; exact Nat.lt_succ_self _
  | case5 => cases h
  | case6 c tail _ _ _ _ d more hread ih =>
    obtain ⟨ds, hds⟩ := ok_of_map h
    have := ih hds
    have := readEscape_length hread
    simp only [List.length_cons]
    omega
  | case7 c tail _ _ _ _ ih =>
    obtain ⟨ds, hds⟩ := ok_of_map h
    exact Nat.lt_succ_of_lt (ih hds)

end ManifestTypes.Yaml
