/-!
# Digits

Signs and digits at the start of a text, and the numbers that digits stand for in bases up to
sixteen.
-/

namespace ManifestTypes.Text

def digits? (text : List Char) : Option (List Char × List Char) :=
  match text.takeWhile Char.isDigit with
  | [] => none
  | ds => some (ds, text.dropWhile Char.isDigit)

/-- Whether there is a minus sign, and the text behind the sign if there is one. -/
def sign : List Char → Bool × List Char
  | '-' :: rest => (true, rest)
  | '+' :: rest => (false, rest)
  | text => (false, text)

def digitValue (c : Char) : Nat :=
  c.toNat - '0'.toNat

def digitsValue (ds : List Char) : Nat :=
  ds.foldl (fun n c => 10 * n + digitValue c) 0

/-- The value of a digit. The letters from `a` to `f`, small or large, go on after nine. -/
def hexValue? (c : Char) : Option Nat :=
  if c.isDigit then some (digitValue c)
  else if 'a' ≤ c ∧ c ≤ 'f' then some (c.toNat - 'a'.toNat + 10)
  else if 'A' ≤ c ∧ c ≤ 'F' then some (c.toNat - 'A'.toNat + 10)
  else none

/-- The number with one more digit in a base, if the character is a digit of that base. -/
def addDigit? (base n : Nat) (c : Char) : Option Nat :=
  (hexValue? c).bind fun d => if d < base then some (base * n + d) else none

def number? (base : Nat) (text : List Char) : Option Nat :=
  if text.isEmpty then none else text.foldlM (addDigit? base) 0

theorem digits?_length {text ds rest : List Char} (h : digits? text = some (ds, rest)) :
    rest.length < text.length := by
  unfold digits? at h
  split at h
  · cases h
  · next hne =>
    cases h
    have := congrArg List.length (List.takeWhile_append_dropWhile (p := Char.isDigit) (l := text))
    have := List.length_pos_iff.mpr hne
    simp only [List.length_append] at *
    omega

theorem sign_length (text : List Char) : (sign text).2.length ≤ text.length := by
  unfold sign
  split <;> simp

end ManifestTypes.Text
