/-!
# Shortest decimals

A finite binary number is written by the fewest decimal digits that still lie nearer to it than
to any other binary number of its format. All arithmetic is exact.
-/

namespace ManifestTypes

/-- The number `coefficient * 10 ^ exponent`. -/
structure Decimal where
  coefficient : Nat
  exponent : Int
  deriving DecidableEq

namespace Decimal

/-- A positive binary number `mantissa * 2 ^ exponent`. It is narrow below if the next smaller number
is half as far away as the next larger one. -/
structure Binary where
  mantissa : Nat
  exponent : Int
  narrowBelow : Bool
  deriving DecidableEq

inductive Parts where
  | nan
  | infinite (negative : Bool)
  | zero (negative : Bool)
  | finite (negative : Bool) (magnitude : Binary)
  deriving DecidableEq

def Parts.ofBits (bits : UInt64) : Parts :=
  let n := bits.toNat
  let negative := n ≥ Nat.pow 2 63
  let biased : Nat := n / Nat.pow 2 52 % Nat.pow 2 11
  let fraction := n % Nat.pow 2 52
  if biased = 2047 then if fraction = 0 then .infinite negative else .nan
  else if biased = 0 then
    if fraction = 0 then .zero negative else .finite negative ⟨fraction, -1074, false⟩
  else
    .finite negative
      ⟨Nat.pow 2 52 + fraction, (biased : Int) - 1075, fraction = 0 ∧ biased > 1⟩

namespace Binary

/-- Compares `a * 2 ^ (b.exponent - 2)` with `c * 10 ^ k`, in whole numbers. -/
def compareQuarters (b : Binary) (a : Nat) (c : Nat) (k : Int) : Ordering :=
  let e := b.exponent - 2
  compare (a * Nat.pow 2 e.toNat * Nat.pow 10 (-k).toNat)
    (c * Nat.pow 10 k.toNat * Nat.pow 2 (-e).toNat)

/-- Whether `c * 10 ^ k` is read as this number: it lies between the midpoints to the two
neighbours, or on one of them if the mantissa is even. -/
def readsBack (b : Binary) (c : Nat) (k : Int) : Bool :=
  let lower := 4 * b.mantissa - (if b.narrowBelow then 1 else 2)
  let upper := 4 * b.mantissa + 2
  let above := b.compareQuarters lower c k
  let below := b.compareQuarters upper c k
  if b.mantissa % 2 = 0 then above != .gt && below != .lt else above == .lt && below == .gt

/-- The largest multiple of `10 ^ k` that is not above this number, divided by `10 ^ k`. -/
def floorAt (b : Binary) (k : Int) : Nat :=
  b.mantissa * Nat.pow 2 b.exponent.toNat * Nat.pow 10 (-k).toNat
    / (Nat.pow 10 k.toNat * Nat.pow 2 (-b.exponent).toNat)

def digitCount (n : Nat) : Nat :=
  (Nat.toDigits 10 n).length

def leadingExponent (b : Binary) : Int :=
  let whole := b.floorAt 0
  if 0 < whole then (digitCount whole : Int) - 1
  else
    let inverse := (Nat.pow 2 (-b.exponent).toNat + b.mantissa - 1) / b.mantissa
    Int.negOfNat (digitCount (inverse - 1))

/-- The multiple of `10 ^ k` that is read as this number. Of two the nearer is taken, and the
even one if both are as near. -/
def onGrid? (b : Binary) (k : Int) : Option Decimal :=
  let below := b.floorAt k
  match b.readsBack below k, b.readsBack (below + 1) k with
  | false, false => none
  | true, false => some ⟨below, k⟩
  | false, true => some ⟨below + 1, k⟩
  | true, true =>
    match b.compareQuarters (8 * b.mantissa) (2 * below + 1) k with
    | .lt => some ⟨below, k⟩
    | .gt => some ⟨below + 1, k⟩
    | .eq => some ⟨if below % 2 = 0 then below else below + 1, k⟩

end Binary

def trimZeros (coefficient : Nat) (exponent : Int) : Decimal :=
  if 0 < coefficient ∧ coefficient % 10 = 0 then trimZeros (coefficient / 10) (exponent + 1)
  else ⟨coefficient, exponent⟩
termination_by coefficient
decreasing_by omega

/-- The shortest decimal that is read as the number, and of those the nearest. Seventeen digits
are always enough. -/
def shortest (b : Binary) : Decimal :=
  let leading := b.leadingExponent
  let found := (List.range 17).findSome? fun (more : Nat) => b.onGrid? (leading - more)
  let d := found.getD ⟨b.floorAt (leading - 16), leading - 16⟩
  trimZeros d.coefficient d.exponent

end Decimal

end ManifestTypes
