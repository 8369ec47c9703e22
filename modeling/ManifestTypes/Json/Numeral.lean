import ManifestTypes.Node.Basic
import ManifestTypes.Text.Digits

/-!
# JSON numbers

A number without point and exponent is an integer as long as it fits 64 bits, with or without
sign; every other number is a floating-point number.
-/

namespace ManifestTypes.Json

open Text (digits? digits?_length digitValue digitsValue sign sign_length)

structure Numeral where
  negative : Bool
  whole : List Char
  fraction : List Char
  exponent : Int
  isWhole : Bool

def fraction? : List Char → Option (List Char × List Char)
  | '.' :: rest => digits? rest
  | text => some ([], text)

/-- The exponent, if there is one, and whether there is one. -/
def exponent? : List Char → Option (Int × Bool × List Char)
  | c :: rest =>
    if c = 'e' ∨ c = 'E' then
      let (negative, rest) := sign rest
      (digits? rest).map fun (ds, rest) =>
        (if negative then Int.negOfNat (digitsValue ds) else digitsValue ds, true, rest)
    else some (0, false, c :: rest)
  | [] => some (0, false, [])

def minus : List Char → Bool × List Char
  | '-' :: rest => (true, rest)
  | text => (false, text)

/-- The number at the start of a text. No zero stands before other digits. -/
def numeral? (text : List Char) : Option (Numeral × List Char) := do
  let (whole, rest) ← digits? (minus text).2
  if whole.head? = some '0' ∧ whole ≠ ['0'] then none else
  let (fraction, rest) ← fraction? rest
  let (exponent, hasExponent, rest) ← exponent? rest
  some (⟨(minus text).1, whole, fraction, exponent, fraction.isEmpty && !hasExponent⟩, rest)

theorem fraction?_length {text ds rest : List Char} (h : fraction? text = some (ds, rest)) :
    rest.length ≤ text.length := by
  unfold fraction? at h
  split at h
  · exact Nat.le_succ_of_le (Nat.le_of_lt (digits?_length h))
  · cases h
    exact Nat.le_refl _

theorem exponent?_length {text rest : List Char} {e : Int} {b : Bool}
    (h : exponent? text = some (e, b, rest)) : rest.length ≤ text.length := by
  unfold exponent? at h
  split at h
  · next c tail =>
    split at h
    · obtain ⟨⟨ds, more⟩, hds, heq⟩ := Option.map_eq_some_iff.mp h
      cases heq
      have : rest.length < (sign tail).2.length := digits?_length hds
      have := sign_length tail
      simp only [List.length_cons]
      omega
    · cases h
      exact Nat.le_refl _
  · cases h
    exact Nat.le_refl _

theorem numeral?_length {text rest : List Char} {n : Numeral}
    (h : numeral? text = some (n, rest)) : rest.length < text.length := by
  unfold numeral? at h
  have hminus : (minus text).2.length ≤ text.length := by
    unfold minus
    split <;> simp
  obtain ⟨⟨whole, t₁⟩, hwhole, h⟩ := Option.bind_eq_some_iff.mp h
  have := digits?_length hwhole
  dsimp only at h
  split at h
  · cases h
  · obtain ⟨⟨ds, t₂⟩, hds, h⟩ := Option.bind_eq_some_iff.mp h
    have : t₂.length ≤ t₁.length := fraction?_length hds
    obtain ⟨⟨e, b, t₃⟩, he, h⟩ := Option.bind_eq_some_iff.mp h
    have : t₃.length ≤ t₂.length := exponent?_length he
    cases h
    show t₃.length < text.length
    omega

/-- The leading digits of a number as far as they fit 64 bits. It is full once a digit does not. -/
structure Significand where
  value : Nat
  exponent : Int
  full : Bool

namespace Significand

/-- A digit before the point. If it does not fit, it only counts. -/
def addWhole (s : Significand) (c : Char) : Significand :=
  let value := 10 * s.value + digitValue c
  if s.full ∨ Nat.pow 2 64 ≤ value then { s with exponent := s.exponent + 1, full := true }
  else { s with value }

/-- A digit behind the point. If it does not fit, it is dropped. -/
def addFraction (s : Significand) (c : Char) : Significand :=
  let value := 10 * s.value + digitValue c
  if s.full ∨ Nat.pow 2 64 ≤ value then { s with full := true }
  else { s with value, exponent := s.exponent - 1 }

/-- Multiplies a floating-point number by a power of ten. Powers below the least of the format
are reached by several divisions. -/
def scale (x : Float) (exponent : Int) : Float :=
  if 0 ≤ exponent then
    if exponent ≤ 308 then x * Float.ofScientific 1 false exponent.toNat
    else if x == 0 then x else x / 0
  else if -308 ≤ exponent then x / Float.ofScientific 1 false (-exponent).toNat
  else if x == 0 then x
  else scale (x / Float.ofScientific 1 false 308) (exponent + 308)
termination_by (-exponent).toNat
decreasing_by omega

end Significand

def Numeral.toFloat (n : Numeral) : Float :=
  let whole := n.whole.foldl Significand.addWhole ⟨0, 0, false⟩
  let all := n.fraction.foldl Significand.addFraction { whole with full := false }
  let magnitude := Significand.scale (Float.ofNat all.value) (all.exponent + n.exponent)
  if n.negative then -magnitude else magnitude

/-- The value of a number, or `none` if it is too large for any. A zero with a sign is a
floating-point number. -/
def Numeral.number? (n : Numeral) : Option Number :=
  let magnitude := digitsValue n.whole
  if n.isWhole ∧ n.negative = false ∧ magnitude < Nat.pow 2 64 then some (.integer magnitude)
  else if n.isWhole ∧ n.negative = true ∧ magnitude = 0 then some (.decimal (-0.0))
  else if n.isWhole ∧ n.negative = true ∧ magnitude ≤ Nat.pow 2 63 then
    some (.integer (Int.negOfNat magnitude))
  else if n.toFloat.isFinite then some (.decimal n.toFloat)
  else none

end ManifestTypes.Json
