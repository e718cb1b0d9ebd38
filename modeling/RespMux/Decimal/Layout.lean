import RespMux.Decimal.Integer
import RespMux.Decimal.Shortest

/-!
# Doubles as text

A double is written in the way that is shortest for the server to read. A whole number in the
32-bit range is written as an integer, so a negative zero is `0`. Any other finite number is its
shortest decimal: with an exponent from `1e16` upwards and below `1e-5`, with a point otherwise.
-/

set_option autoImplicit false

namespace RespMux.Decimal

/-- The digits of a decimal with its point in place and no exponent. -/
def positional (d : Scaled) : String :=
  let digits := Nat.toDigits 10 d.digits
  if 0 ≤ d.exponent then
    String.ofList (digits ++ List.replicate d.exponent.toNat '0')
  else
    let places := (-d.exponent).toNat
    let padded := List.replicate (places + 1 - digits.length) '0' ++ digits
    let whole := padded.length - places
    String.ofList (padded.take whole ++ '.' :: padded.drop whole)

/-- One digit, the others after the point, and the exponent of the first digit. -/
def exponential (d : Scaled) : String :=
  let digits := Nat.toDigits 10 d.digits
  let order := d.exponent + (digits.length - 1 : Nat)
  let point := if digits.length ≤ 1 then [] else '.' :: digits.drop 1
  String.ofList (digits.take 1 ++ point) ++ "e" ++ intText order

/-- The smallest double that is written with an exponent again, `1e16`. -/
def exponentFrom : Double := ⟨0x4341C37937E08000⟩

/-- The smallest double that is written with a point, `1e-5`. -/
def pointFrom : Double := ⟨0x3EE4F8B588E368F1⟩

/-- A finite double is written with an exponent. -/
def isExponential (x : Double) : Bool :=
  exponentFrom.magnitudeBits ≤ x.magnitudeBits ||
    (x.magnitudeBits != 0 && x.magnitudeBits < pointFrom.magnitudeBits)

/-- The whole number that a double is written as: those of the 32-bit range. -/
def shortWhole? (x : Double) : Option Int :=
  x.whole?.filter fun n => Int32.minValue.toInt ≤ n && n ≤ Int32.maxValue.toInt

/-- The text of a double. -/
def doubleText (x : Double) : String :=
  match shortWhole? x with
  | some n => intText n
  | none =>
      let sign := if x.isNegative then "-" else ""
      if x.isNaN then "NaN"
      else if x.isInfinite then sign ++ "inf"
      else if isExponential x then sign ++ exponential (shortest x)
      else sign ++ positional (shortest x)

end RespMux.Decimal
