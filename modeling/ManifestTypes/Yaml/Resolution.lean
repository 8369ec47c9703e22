import ManifestTypes.Decimal.Nearest
import ManifestTypes.Text.Digits

/-!
# Texts without quotes

A text without quotes may stand for nothing, a truth value or a number. Integers have up to 128
bits, in four bases; a number that no floating-point number comes near to is text.
-/

namespace ManifestTypes.Yaml

open Text (sign number? digitsValue)

/-- What a text without quotes stands for. -/
inductive Meaning where
  | null
  | boolean (b : Bool)
  | integer (n : Int)
  | decimal (x : Float)
  | text

def isNull (text : String) : Bool :=
  ["", "~", "null", "Null", "NULL"].contains text

def boolean? (text : String) : Option Bool :=
  if ["true", "True", "TRUE"].contains text then some true
  else if ["false", "False", "FALSE"].contains text then some false
  else none

/-- Whether there are only digits, of which the first is a zero that is not needed. -/
def isPadded (text : List Char) : Bool :=
  1 < text.length && text.head? == some '0' && text.all Char.isDigit

/-- A whole number without its sign. Letters tell the bases other than ten. -/
def magnitude? : List Char → Option Nat
  | '0' :: 'x' :: rest => number? 16 rest
  | '0' :: 'o' :: rest => number? 8 rest
  | '0' :: 'b' :: rest => number? 2 rest
  | text => if isPadded text then none else number? 10 text

def integer? (text : List Char) : Option Int :=
  let (negative, rest) := sign text
  (magnitude? rest).bind fun n =>
    if negative then if n ≤ Nat.pow 2 127 then some (Int.negOfNat n) else none
    else if n < Nat.pow 2 128 then some n
    else none

def exponent? : List Char → Option Int
  | [] => some 0
  | c :: rest =>
    if c = 'e' ∨ c = 'E' then
      let (negative, ds) := sign rest
      (number? 10 ds).map fun n => if negative then Int.negOfNat n else n
    else none

def fraction : List Char → List Char × List Char
  | '.' :: rest => (rest.takeWhile Char.isDigit, rest.dropWhile Char.isDigit)
  | text => ([], text)

/-- A decimal without its sign. There must be a digit before the point or behind it. -/
def decimal? (text : List Char) : Option Decimal :=
  let whole := text.takeWhile Char.isDigit
  let (places, rest) := fraction (text.dropWhile Char.isDigit)
  if whole.isEmpty ∧ places.isEmpty then none
  else
    (exponent? rest).map fun exponent => ⟨digitsValue (whole ++ places), exponent - places.length⟩

def unsignedFloat? (text : List Char) : Option Float :=
  if [".inf", ".Inf", ".INF"].contains (String.ofList text) then some (1 / 0)
  else if isPadded text then none
  else (decimal? text).bind Decimal.nearest?

/-- A floating-point number. Only what is no number at all has no sign. -/
def float? (text : List Char) : Option Float :=
  if [".nan", ".NaN", ".NAN"].contains (String.ofList text) then some (0 / 0)
  else
    let (negative, rest) := sign text
    (unsignedFloat? rest).map fun x => if negative then -x else x

def Meaning.ofText (text : List Char) : Meaning :=
  if isNull (String.ofList text) then .null
  else if let some b := boolean? (String.ofList text) then .boolean b
  else if let some n := integer? text then .integer n
  else if let some x := float? text then .decimal x
  else .text

end ManifestTypes.Yaml
