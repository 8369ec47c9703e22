import ManifestTypes.Decimal.Shortest

/-!
# Nearest binary numbers

A decimal is read as the floating-point number that is nearest to it, and of two that are as near
as the one whose mantissa is even. All arithmetic is exact.
-/

namespace ManifestTypes.Decimal

/-- A quotient rounded to the nearest whole number. A half goes to the even one. -/
def roundQuotient (numerator denominator : Nat) : Nat :=
  let quotient := numerator / denominator
  match compare (2 * (numerator % denominator)) denominator with
  | .lt => quotient
  | .gt => quotient + 1
  | .eq => quotient + quotient % 2

/-- The bits of the floating-point number that is nearest to a positive quotient. A mantissa that
is rounded up to the next power of two carries over into the exponent. -/
def quotientBits (numerator denominator : Nat) : Nat :=
  let scaled (k : Int) : Nat × Nat :=
    (numerator * Nat.pow 2 (-k).toNat, denominator * Nat.pow 2 k.toNat)
  let least := max ((numerator.log2 : Int) - denominator.log2 - 53) (-1074)
  let (a, b) := scaled least
  let exponent := if a / b < Nat.pow 2 53 then least else least + 1
  let (a, b) := scaled exponent
  (exponent + 1074).toNat * Nat.pow 2 52 + roundQuotient a b

def infinityBits : Nat := 2047 * Nat.pow 2 52

/-- The floating-point number that is nearest to a decimal, unless that is infinity. Decimals
far outside of the range of the format are told by their size alone. -/
def nearest? (d : Decimal) : Option Float :=
  let size := (Binary.digitCount d.coefficient : Int) + d.exponent
  if d.coefficient = 0 ∨ size < -400 then some 0
  else if 400 < size then none
  else
    let bits :=
      quotientBits (d.coefficient * Nat.pow 10 d.exponent.toNat) (Nat.pow 10 (-d.exponent).toNat)
    if bits < infinityBits then some (Float.ofBits (UInt64.ofNat bits)) else none

end ManifestTypes.Decimal
