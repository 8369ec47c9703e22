import ManifestTypes.Decimal.Shortest

/-!
# Decimal notation

The text of a floating-point number in documents.
-/

namespace ManifestTypes.Decimal

/-- Decimals whose point stands at most this many digits behind the first digit are written
without an exponent. -/
def mostPlaces : Int := 16

/-- Decimals below one with fewer zeros than this between the point and the first digit are
written without an exponent. -/
def mostZeros : Int := 5

def digits (n : Nat) : List Char :=
  Nat.toDigits 10 n

structure Style where
  nan : String
  infinity : String
  signsExponent : Bool

def Style.exponentText (style : Style) (n : Int) : String :=
  if style.signsExponent ∧ 0 ≤ n then "+" ++ toString n else toString n

/-- A positive decimal. There is always a point, except before an exponent after a single
digit. -/
def layout (style : Style) (d : Decimal) : String :=
  let ds := digits d.coefficient
  let point := (ds.length : Int) + d.exponent
  String.ofList <|
    if 0 ≤ d.exponent ∧ point ≤ mostPlaces then
      ds ++ List.replicate d.exponent.toNat '0' ++ ['.', '0']
    else if 0 < point ∧ point ≤ mostPlaces then
      ds.take point.toNat ++ '.' :: ds.drop point.toNat
    else if -mostZeros < point ∧ point ≤ 0 then
      '0' :: '.' :: List.replicate (-point).toNat '0' ++ ds
    else
      let mantissa := match ds with
        | first :: second :: rest => first :: '.' :: second :: rest
        | short => short
      mantissa ++ 'e' :: (style.exponentText (point - 1)).toList

def render (style : Style) (x : Float) : String :=
  let sign (negative : Bool) := if negative then "-" else ""
  match Parts.ofBits x.toBits with
  | .nan => style.nan
  | .infinite negative => sign negative ++ style.infinity
  | .zero negative => sign negative ++ "0.0"
  | .finite negative magnitude => sign negative ++ layout style (shortest magnitude)

end ManifestTypes.Decimal
