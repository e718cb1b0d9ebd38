/-!
# Binary64 numbers

A double is its 64 bits: a sign, eleven bits of exponent and fifty-two of fraction. A finite one
has the exact value `± significand * 2 ^ exponent`; `whole?` is that value when it is an integer.
-/

set_option autoImplicit false

namespace RespMux

/-- A binary64 floating point number, as its bits. -/
structure Double where
  bits : UInt64
  deriving DecidableEq, Repr, Inhabited

namespace Double

/-! ## Fields -/

/-- The sign bit, `2 ^ 63`. -/
def signBit : Nat := 0x8000000000000000

/-- The lowest bit of the exponent field, `2 ^ 52`; in a significand it is the leading bit. -/
def leadingBit : Nat := 0x10000000000000

/-- The sign bit is set. -/
def isNegative (x : Double) : Bool := signBit ≤ x.bits.toNat

/-- The bits without the sign. -/
def magnitudeBits (x : Double) : Nat := x.bits.toNat % signBit

/-- The exponent field, from 0 to 2047. -/
def exponentField (x : Double) : Nat := x.magnitudeBits / leadingBit

/-- The fraction field. -/
def fraction (x : Double) : Nat := x.magnitudeBits % leadingBit

/-- The double with the given sign and other bits. -/
def ofMagnitude (negative : Bool) (magnitude : Nat) : Double :=
  ⟨UInt64.ofNat ((if negative then signBit else 0) + magnitude)⟩

/-- The bits of infinity; everything above them is no number. -/
def infinityBits : Nat := 0x7FF0000000000000

/-- Infinity of either sign. -/
def infinity (negative : Bool) : Double := ofMagnitude negative infinityBits

/-- A value that is no number. -/
def notANumber (negative : Bool) : Double := ofMagnitude negative 0x7FF8000000000000

/-- No number. -/
def isNaN (x : Double) : Bool := infinityBits < x.magnitudeBits

/-- One of the infinities. -/
def isInfinite (x : Double) : Bool := x.magnitudeBits == infinityBits

/-- A finite number. -/
def isFinite (x : Double) : Bool := x.magnitudeBits < infinityBits

/-! ## Exact value -/

/-- The integer factor of a finite value; below the normal range the leading bit is missing. -/
def significand (x : Double) : Nat :=
  if x.exponentField = 0 then x.fraction else leadingBit + x.fraction

/-- The power of two of a finite value. -/
def exponent (x : Double) : Int := (max x.exponentField 1 : Nat) - 1075

/-- The value of a finite double that is a whole number. -/
def whole? (x : Double) : Option Int :=
  if !x.isFinite then none
  else
    let scale := 1 <<< (-x.exponent).toNat
    let magnitude := x.significand <<< x.exponent.toNat
    if magnitude % scale = 0 then
      let n : Int := (magnitude / scale : Nat)
      some (if x.isNegative then -n else n)
    else none

/-! ## Rounding -/

/-- The quotient rounded to the nearest integer, a tie to the even one. -/
def roundDiv (num den : Nat) : Nat :=
  let q := num / den
  let twice := 2 * (num % den)
  if twice < den then q
  else if den < twice then q + 1
  else q + q % 2

/-- The largest `k` with `2 ^ k ≤ num / den`, for positive `num` and `den`. -/
def binaryOrder (num den : Nat) : Int :=
  let k : Int := (num.log2 : Int) - den.log2
  if num <<< (-k).toNat < den <<< k.toNat then k - 1 else k

/-- The double nearest to `num / den`, a tie to the even significand; what lies half a step or
more above the largest double is infinite. -/
def ofRatio (negative : Bool) (num den : Nat) : Double :=
  if num = 0 then ofMagnitude negative 0
  else
    let e : Int := max (binaryOrder num den - 52) (-1074)
    let q := roundDiv (num <<< (-e).toNat) (den <<< e.toNat)
    -- the leading bit of a normal significand is worth one step of the exponent field
    let magnitude := q + (e + 1074).toNat * leadingBit
    ofMagnitude negative (min magnitude infinityBits)

/-- The double nearest to an integer. -/
def ofInt (n : Int) : Double := ofRatio (n < 0) n.natAbs 1

end Double

end RespMux
