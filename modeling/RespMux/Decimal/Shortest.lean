import RespMux.Double

/-!
# The shortest decimal of a double

The reals that round to a positive finite double form an interval around it: it reaches half way
to each neighbour, and its ends belong to it exactly when the significand is even. The shortest
decimal is the one with the fewest digits inside the interval; of two with equally many digits
the one nearer to the value is taken, and of two equally near the larger one.
-/

set_option autoImplicit false

namespace RespMux.Decimal

/-- A decimal number, `digits * 10 ^ exponent`. -/
structure Scaled where
  digits : Nat
  exponent : Int
  deriving DecidableEq, Repr

/-- Compares `a * 10 ^ i` with `n * 2 ^ j`. -/
def compareScaled (a : Nat) (i : Int) (n : Nat) (j : Int) : Ordering :=
  compare ((a * Nat.pow 10 i.toNat) <<< (-j).toNat) ((n * Nat.pow 10 (-i).toNat) <<< j.toNat)

/-- The gap to the double below is half the gap to the one above. -/
def narrowBelow (x : Double) : Bool := x.fraction == 0 && 1 < x.exponentField

/-- `d` lies among the reals that round to the magnitude of `x`. -/
def readsBack (x : Double) (d : Scaled) : Bool :=
  let low := if narrowBelow x then 4 * x.significand - 1 else 4 * x.significand - 2
  let high := 4 * x.significand + 2
  let closed := x.significand % 2 == 0
  let below := compareScaled d.digits d.exponent low (x.exponent - 2)
  let above := compareScaled d.digits d.exponent high (x.exponent - 2)
  (below == .gt || (closed && below == .eq)) && (above == .lt || (closed && above == .eq))

/-- `k` and its neighbours, searched for the least power of ten above the magnitude of `x`. -/
def leastAbove (x : Double) : Nat → Int → Int
  | 0, k => k
  | steps + 1, k =>
      if compareScaled 1 k x.significand x.exponent == .gt then k else leastAbove x steps (k + 1)

/-- The least `k` with `x < 10 ^ k`, for a positive finite `x`. The start is below it by at most
two: `1233 / 4096` is a little less than the logarithm of two to base ten. -/
def decimalOrder (x : Double) : Int :=
  leastAbove x 4 (((x.significand.log2 : Int) + x.exponent) * 1233 / 4096 - 1)

/-- The integer part of the magnitude of `x` divided by `10 ^ i`. -/
def floorOnGrid (x : Double) (i : Int) : Nat :=
  (x.significand * Nat.pow 10 (-i).toNat) <<< x.exponent.toNat
    / (Nat.pow 10 i.toNat <<< (-x.exponent).toNat)

/-- The best multiple of `10 ^ i` that reads back to `x`, if one does. -/
def onGrid? (x : Double) (i : Int) : Option Scaled :=
  let n := floorOnGrid x i
  let lower : Scaled := ⟨n, i⟩
  let upper : Scaled := ⟨n + 1, i⟩
  match readsBack x lower, readsBack x upper with
  | true, true =>
      -- the middle of the two, against twice the value
      if compareScaled (2 * n + 1) i x.significand (x.exponent + 1) == .gt then some lower
      else some upper
  | true, false => some lower
  | false, true => some upper
  | false, false => none

/-- Moves factors of ten from the digits into the exponent. -/
def stripZeros : Nat → Scaled → Scaled
  | 0, d => d
  | steps + 1, d =>
      if d.digits % 10 = 0 ∧ d.digits ≠ 0 then stripZeros steps ⟨d.digits / 10, d.exponent + 1⟩
      else d

/-- The exact value of the magnitude of `x`. -/
def exactly (x : Double) : Scaled :=
  ⟨(x.significand * Nat.pow 5 (-x.exponent).toNat) <<< x.exponent.toNat, min x.exponent 0⟩

/-- The shortest decimal that reads back to the magnitude of a finite double. -/
def shortest (x : Double) : Scaled :=
  if x.significand = 0 then ⟨0, 0⟩
  else
    let k := decimalOrder x
    let found := (List.range 17).findSome? fun n => onGrid? x (k - (n + 1 : Nat))
    stripZeros 800 (found.getD (exactly x))

end RespMux.Decimal
