import RespMux.Decimal.Integer
import RespMux.Double

/-!
# Reading a double

The text of a double is an optional sign and then `inf`, `infinity` or `nan` in any case, or a
decimal: digits with an optional point among or beside them, at least one digit in all, and an
optional exponent. The value is the double nearest to the decimal, a tie going to the even
significand.
-/

set_option autoImplicit false

namespace RespMux.Decimal

/-! ## Words -/

/-- An ASCII letter in lower case; every other byte as it is. -/
def lowerByte (b : UInt8) : UInt8 := if 65 ≤ b ∧ b ≤ 90 then b + 32 else b

/-- The double that a word stands for. -/
def word? (negative : Bool) (bs : Bytes) : Option Double :=
  let w := bs.map lowerByte
  if w = Bytes.ofText "inf" ∨ w = Bytes.ofText "infinity" then some (Double.infinity negative)
  else if w = Bytes.ofText "nan" then some (Double.notANumber negative)
  else none

/-! ## Decimals -/

/-- The digits of an exponent; those after it has passed 65536 do not count any more, as the
value is zero or infinite by then. -/
def exponentOf (ds : List Nat) : Nat :=
  ds.foldl (fun n d => if n < 0x10000 then n * 10 + d else n) 0

/-- The part after the digits: nothing, or an exponent. -/
def exponent? : Bytes → Option Int
  | [] => some 0
  | mark :: bs =>
      if lowerByte mark ≠ 101 then none
      else
        let (negative, bs) :=
          match bs with
          | 45 :: rest => (true, rest)
          | 43 :: rest => (false, rest)
          | rest => (false, rest)
        match spanDigits bs with
        | ([], _) => none
        | (ds, []) => some (if negative then -(exponentOf ds : Int) else exponentOf ds)
        | (_, _ :: _) => none

/-- The digits of a decimal, how many of them come after the point, and what follows. -/
def spanDecimal (bs : Bytes) : List Nat × Nat × Bytes :=
  match spanDigits bs with
  | (whole, 46 :: rest) =>
      let (places, rest) := spanDigits rest
      (whole ++ places, places.length, rest)
  | (whole, rest) => (whole, 0, rest)

/-- The double nearest to the number that the digits spell times `10 ^ exponent`. Outside the
range of doubles, which reaches from `1e-324` to `1e309`, the power is not computed. -/
def nearest (negative : Bool) (digits : List Nat) (exponent : Int) : Double :=
  let digits := digits.dropWhile (· == 0)
  let order : Int := digits.length + exponent
  if digits = [] ∨ order < -330 then Double.ofRatio negative 0 1
  else if 310 < order then Double.infinity negative
  else
    Double.ofRatio negative (number digits * Nat.pow 10 exponent.toNat)
      (Nat.pow 10 (-exponent).toNat)

/-- A decimal without a sign. -/
def decimal? (negative : Bool) (bs : Bytes) : Option Double :=
  match spanDecimal bs with
  | ([], _, _) => none
  | (ds, places, rest) => (exponent? rest).map fun e => nearest negative ds (e - places)

/-- Reads a double. -/
def readDouble? (bs : Bytes) : Option Double :=
  let (negative, bs) :=
    match bs with
    | 45 :: rest => (true, rest)
    | 43 :: rest => (false, rest)
    | rest => (false, rest)
  (word? negative bs).orElse fun _ => decimal? negative bs

end RespMux.Decimal
