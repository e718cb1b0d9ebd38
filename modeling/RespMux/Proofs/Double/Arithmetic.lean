import Mathlib.Algebra.Order.Ring.Cast
import Mathlib.Data.Rat.Lemmas
import RespMux.Proofs.Double.Rounding

/-!
# Whole parts and differences

What stands after the point of a double is found on its bits: the bits behind the point are cleared
(`trunc`), and the rest is subtracted from the double (`fract`). A difference is rounded, but all
doubles are multiples of the smallest step, and so much is not rounded away. So the part after the
point is zero exactly if the value is a whole number (`fract_equals_zero_iff`), and a whole number
that is not too large is kept as an integer (`toInt64_of_value`).
-/

set_option autoImplicit false

namespace RespMux.Double

/-! ## Whole numbers -/

/-- The whole part of the magnitude. -/
def wholePart (x : Double) : Nat :=
  x.significand <<< x.exponent.toNat / 1 <<< (-x.exponent).toNat

theorem magnitude_eq_div (x : Double) :
    x.magnitude = (x.significand <<< x.exponent.toNat : ℕ) / (1 <<< (-x.exponent).toNat : ℕ) := by
  have hshift := shifted_div x.significand 1 (-x.exponent)
  rw [neg_neg] at hshift
  rw [hshift, Nat.cast_one, div_one, zpow_neg, div_inv_eq_mul, magnitude]

theorem magnitude_eq_natCast_iff {x : Double} {k : ℕ} :
    x.magnitude = k ↔
      x.significand <<< x.exponent.toNat % 1 <<< (-x.exponent).toNat = 0 ∧ x.wholePart = k := by
  have hpos : 0 < 1 <<< (-x.exponent).toNat := shiftLeft_pos Nat.one_pos _
  have hcast : ((1 <<< (-x.exponent).toNat : ℕ) : ℚ) ≠ 0 := by exact_mod_cast hpos.ne'
  rw [magnitude_eq_div, div_eq_iff hcast, wholePart]
  generalize x.significand <<< x.exponent.toNat = num at *
  generalize 1 <<< (-x.exponent).toNat = den at *
  constructor
  · intro h
    have hnum : num = k * den := by exact_mod_cast h
    rw [hnum, Nat.mul_mod_left, Nat.mul_div_cancel k hpos]
    exact ⟨rfl, rfl⟩
  · rintro ⟨hmod, rfl⟩
    exact_mod_cast (Nat.div_mul_cancel (Nat.dvd_of_mod_eq_zero hmod)).symm

theorem natAbs_of_value {x : Double} {n : ℤ} (h : x.value = n) : x.magnitude = n.natAbs := by
  have habs : |x.value| = x.magnitude := by
    unfold value
    split
    · rw [abs_neg, abs_of_nonneg x.magnitude_nonneg]
    · exact abs_of_nonneg x.magnitude_nonneg
  rw [← habs, h, Nat.cast_natAbs, Int.cast_abs]

/-- The whole part with the sign in front. -/
def signedPart (x : Double) : ℤ := if x.isNegative then -(x.wholePart : ℤ) else x.wholePart

theorem value_eq_signedPart {x : Double} (h : x.magnitude = x.wholePart) :
    x.value = x.signedPart := by
  rw [value, h, signedPart]
  push_cast
  rfl

theorem signedPart_of_value {x : Double} {n : ℤ} (h : x.value = n) : x.signedPart = n := by
  have hmagnitude := natAbs_of_value h
  rw [← (magnitude_eq_natCast_iff.mp hmagnitude).2] at hmagnitude
  rw [value_eq_signedPart hmagnitude] at h
  exact_mod_cast h

/-- A finite double is a whole number if its value is one. -/
theorem whole?_eq_some_iff {x : Double} {n : ℤ} :
    x.whole? = some n ↔ x.isFinite = true ∧ x.value = n := by
  unfold whole?
  by_cases hfinite : x.isFinite = true
  · simp only [hfinite, Bool.not_true, Bool.false_eq_true, if_false, true_and]
    constructor
    · intro h
      split at h
      · rename_i hmod
        rw [← Option.some.inj h]
        exact value_eq_signedPart (magnitude_eq_natCast_iff.mpr ⟨hmod, rfl⟩)
      · cases h
    · intro h
      rw [if_pos (magnitude_eq_natCast_iff.mp (natAbs_of_value h)).1]
      exact congrArg some (signedPart_of_value h)
  · simp [hfinite]

/-! ## The whole part as a double -/

/-- The double without what stands after its point: the bits behind the point are cleared. -/
def trunc (x : Double) : Double :=
  if 1075 ≤ x.exponentField then x
  else if x.exponentField < 1023 then ofMagnitude x.isNegative 0
  else
    let behind := 2 ^ (1075 - x.exponentField)
    ofMagnitude x.isNegative (x.magnitudeBits / behind * behind)

theorem trunc_isNegative (x : Double) : (trunc x).isNegative = x.isNegative := by
  unfold trunc
  split
  · rfl
  · split
    · exact isNegative_ofMagnitude _ (by decide)
    · exact isNegative_ofMagnitude _ (Nat.lt_of_le_of_lt (Nat.div_mul_le_self _ _) x.magnitudeBits_lt)

theorem trunc_magnitudeBits_le (x : Double) : (trunc x).magnitudeBits ≤ x.magnitudeBits := by
  have hzero : 0 < signBit := by decide
  unfold trunc
  split
  · exact Nat.le_refl _
  · split
    · rw [magnitudeBits_ofMagnitude _ hzero]
      exact Nat.zero_le _
    · have hle := Nat.div_mul_le_self x.magnitudeBits (2 ^ (1075 - x.exponentField))
      rw [magnitudeBits_ofMagnitude _ (Nat.lt_of_le_of_lt hle x.magnitudeBits_lt)]
      exact hle

/-- The bits behind the point are bits of the fraction, so they are cleared in the significand and the
exponent stays. -/
theorem cleared_magnitude {x y : Double} {behind : Nat} (hfield : x.exponentField + behind = 1075)
    (hpos : 0 < behind) (hle : behind ≤ 52)
    (hy : y.magnitudeBits = x.magnitudeBits / 2 ^ behind * 2 ^ behind) :
    y.magnitude = x.wholePart := by
  have hpow : 0 < 2 ^ behind := Nat.pow_pos (by decide)
  have hsplit : leadingBit = 2 ^ behind * 2 ^ (52 - behind) := by
    rw [leadingBit_eq, ← pow_add]
    congr 1
    omega
  have hkept : x.fraction / 2 ^ behind * 2 ^ behind < leadingBit :=
    Nat.lt_of_le_of_lt (Nat.div_mul_le_self _ _) x.fraction_lt
  have hbits : y.magnitudeBits
      = leadingBit * x.exponentField + x.fraction / 2 ^ behind * 2 ^ behind := by
    have hx : leadingBit * x.exponentField + x.fraction = x.magnitudeBits :=
      Nat.div_add_mod x.magnitudeBits leadingBit
    rw [hy, ← hx, hsplit, Nat.mul_assoc, Nat.mul_add_div hpow, Nat.add_mul, Nat.mul_comm (2 ^ behind)]
  have hyfield : y.exponentField = x.exponentField := by
    rw [exponentField, hbits, Nat.mul_add_div (by decide), Nat.div_eq_of_lt hkept, Nat.add_zero]
  have hyfraction : y.fraction = x.fraction / 2 ^ behind * 2 ^ behind := by
    rw [fraction, hbits, Nat.mul_add_mod, Nat.mod_eq_of_lt hkept]
  have hexponent : x.exponent = -(behind : ℤ) := by
    unfold exponent
    omega
  have hyexponent : y.exponent = -(behind : ℤ) := by
    rw [← hexponent, exponent, exponent, hyfield]
  have hpart : x.wholePart = 2 ^ (52 - behind) + x.fraction / 2 ^ behind := by
    have hleft : x.exponent.toNat = 0 := by omega
    have hright : (-x.exponent).toNat = behind := by omega
    rw [wholePart, hleft, hright, Nat.shiftLeft_zero, Nat.shiftLeft_eq, Nat.one_mul, significand,
      if_neg (by omega), hsplit, Nat.mul_add_div hpow]
  have hysignificand : y.significand = x.wholePart * 2 ^ behind := by
    rw [hpart, significand, if_neg (by omega), hyfraction, hsplit, Nat.add_mul, Nat.mul_comm (2 ^ behind)]
  rw [magnitude, hysignificand, hyexponent, zpow_neg, zpow_natCast]
  push_cast
  rw [mul_assoc, mul_inv_cancel₀ (by positivity), mul_one]

/-- What is left is the whole part. -/
theorem trunc_magnitude (x : Double) : (trunc x).magnitude = x.wholePart := by
  have hle := trunc_magnitudeBits_le x
  unfold trunc at hle ⊢
  split
  · -- there is nothing behind the point
    rename_i hhigh
    refine magnitude_eq_natCast_iff.mpr ⟨?_, rfl⟩
    have hright : (-x.exponent).toNat = 0 := by
      unfold exponent
      omega
    rw [hright, Nat.shiftLeft_zero, Nat.mod_one]
  · split
    · -- the value is less than one
      rename_i hlow
      have hleft : x.exponent.toNat = 0 := by
        unfold exponent
        omega
      have hsmall : x.significand < 1 <<< (-x.exponent).toNat := by
        have hright : 53 ≤ (-x.exponent).toNat := by
          unfold exponent
          omega
        rw [Nat.shiftLeft_eq, Nat.one_mul]
        exact Nat.lt_of_lt_of_le (Decimal.significand_lt x) (Nat.pow_le_pow_right (by decide) hright)
      rw [wholePart, hleft, Nat.shiftLeft_zero, Nat.div_eq_of_lt hsmall, Nat.cast_zero,
        magnitude_eq_zero_iff, magnitudeBits_ofMagnitude _ (by decide)]
    · have hlt := Nat.lt_of_le_of_lt
        (Nat.div_mul_le_self x.magnitudeBits (2 ^ (1075 - x.exponentField))) x.magnitudeBits_lt
      have hfield : x.exponentField + (1075 - x.exponentField) = 1075 := by omega
      exact cleared_magnitude hfield (by omega) (by omega) (magnitudeBits_ofMagnitude _ hlt)

/-! ## Differences -/

/-- The double nearest to a rational number. -/
def ofRat (q : ℚ) : Double := ofRatio (q < 0) q.num.natAbs q.den

/-- The difference of two doubles. Infinities of one sign have none; a difference of zero is negative
only if it is that of a negative zero and a positive one. -/
def sub (x y : Double) : Double :=
  if x.isNaN || y.isNaN then notANumber false
  else if x.isInfinite then
    if y.isInfinite && x.isNegative == y.isNegative then notANumber false else x
  else if y.isInfinite then infinity !y.isNegative
  else if x.value = y.value then ofMagnitude (x.isNegative && !y.isNegative) 0
  else ofRat (x.value - y.value)

/-- What stands after the point. -/
def fract (x : Double) : Double := sub x (trunc x)

/-- Zero. -/
def zero : Double := ofMagnitude false 0

theorem equals_zero_iff {x : Double} : equals x zero = true ↔ x.magnitudeBits = 0 := by
  have hnumber : zero.isNaN = false := by decide
  have hzero : zero.rank = 0 := by decide
  have hrank : x.rank = 0 ↔ x.magnitudeBits = 0 := by
    unfold rank
    split <;> omega
  have hnan : x.magnitudeBits = 0 → x.isNaN = false := by
    intro h
    rw [isNaN, h]
    rfl
  simp only [equals, hnumber, hzero, hrank, Bool.not_false, Bool.and_true, Bool.and_eq_true,
    Bool.not_eq_true', decide_eq_true_eq]
  exact ⟨And.right, fun h => ⟨hnan h, h⟩⟩

/-- Every value is a multiple of the smallest step. -/
theorem exists_steps (x : Double) : ∃ k : ℤ, x.value = k * 2 ^ (-1074 : ℤ) := by
  have hrange := (Decimal.exponent_range x).1
  have hsteps : x.magnitude
      = ((x.significand * 2 ^ (x.exponent + 1074).toNat : ℤ) : ℚ) * 2 ^ (-1074 : ℤ) := by
    rw [magnitude, Int.cast_mul, Int.cast_pow, Int.cast_natCast, Int.cast_ofNat, mul_assoc,
      ← zpow_natCast, Int.toNat_of_nonneg (by omega), ← zpow_add₀ (by norm_num)]
    congr 2
    omega
  unfold value
  split
  · exact ⟨-_, by rw [hsteps, Int.cast_neg, neg_mul]⟩
  · exact ⟨_, hsteps⟩

/-- Two different values are at least the smallest step apart. -/
theorem step_le_abs_sub {x y : Double} (h : x.value ≠ y.value) :
    (2 : ℚ) ^ (-1074 : ℤ) ≤ |x.value - y.value| := by
  obtain ⟨k, hk⟩ := x.exists_steps
  obtain ⟨l, hl⟩ := y.exists_steps
  have hpos := two_zpow_pos (-1074)
  have hne : k - l ≠ 0 := by
    intro heq
    exact h (by rw [hk, hl, sub_eq_zero.mp heq])
  have hone : (1 : ℚ) ≤ |((k - l : ℤ) : ℚ)| := by exact_mod_cast Int.one_le_abs hne
  calc (2 : ℚ) ^ (-1074 : ℤ)
      = 1 * 2 ^ (-1074 : ℤ) := (one_mul _).symm
    _ ≤ |((k - l : ℤ) : ℚ)| * 2 ^ (-1074 : ℤ) := mul_le_mul_of_nonneg_right hone hpos.le
    _ = |x.value - y.value| := by
        rw [hk, hl, ← sub_mul, abs_mul, abs_of_pos hpos, Int.cast_sub]

theorem abs_eq_natAbs_div (q : ℚ) : |q| = q.num.natAbs / q.den := by
  have hden : |(q.den : ℚ)| = q.den := Nat.abs_cast q.den
  rw [Nat.cast_natAbs, Int.cast_abs, ← hden, ← abs_div, Rat.num_div_den]

/-- A difference of finite doubles is not rounded to zero unless it is zero. -/
theorem sub_equals_zero_iff {x y : Double} (hx : x.isFinite = true) (hy : y.isFinite = true) :
    equals (sub x y) zero = true ↔ x.value = y.value := by
  rw [equals_zero_iff]
  unfold sub
  simp only [isNaN_of_isFinite hx, isNaN_of_isFinite hy, isInfinite_of_isFinite hx,
    isInfinite_of_isFinite hy, Bool.or_self, Bool.false_eq_true, if_false]
  split
  · rename_i heq
    simp only [heq, iff_true]
    exact magnitudeBits_ofMagnitude _ (by decide)
  · rename_i hne
    simp only [hne, iff_false]
    refine ofRatio_ne_zero (Rat.den_pos _) ?_ _
    rw [← abs_eq_natAbs_div]
    exact step_le_abs_sub hne

/-- What is not finite has nothing after the point that could be compared. -/
theorem fract_isNaN {x : Double} (hx : x.isFinite = false) : (fract x).isNaN = true := by
  have hfield : 1075 ≤ x.exponentField := by
    have hinfinity : infinityBits = 2047 * leadingBit := by decide
    simp only [isFinite, hinfinity, decide_eq_false_iff_not, not_lt] at hx
    rw [exponentField, Nat.le_div_iff_mul_le (by decide)]
    exact Nat.le_trans (Nat.mul_le_mul_right _ (by decide)) hx
  have htrunc : trunc x = x := if_pos hfield
  have hnan : (notANumber false).isNaN = true := by decide
  simp only [isFinite, decide_eq_false_iff_not, not_lt] at hx
  rcases hx.eq_or_lt with hinf | hnumber
  · have hinfinite : x.isInfinite = true := by simp [isInfinite, hinf]
    rw [fract, htrunc]
    simp [sub, hinfinite, hnan]
  · have hxnan : x.isNaN = true := by simpa [isNaN] using hnumber
    rw [fract, htrunc]
    simp [sub, hxnan, hnan]

/-- There is nothing after the point exactly if the value is a whole number. -/
theorem fract_equals_zero_iff {x : Double} :
    equals (fract x) zero = true ↔ x.isFinite = true ∧ ∃ n : ℤ, x.value = n := by
  by_cases hx : x.isFinite = true
  · have htrunc : (trunc x).isFinite = true := by
      simp only [isFinite, decide_eq_true_eq] at hx ⊢
      exact Nat.lt_of_le_of_lt (trunc_magnitudeBits_le x) hx
    have hvalue : (trunc x).value = x.signedPart := by
      rw [value, trunc_isNegative, trunc_magnitude, signedPart]
      push_cast
      rfl
    rw [fract, sub_equals_zero_iff hx htrunc, hvalue]
    constructor
    · intro h
      exact ⟨hx, _, h⟩
    · rintro ⟨_, n, hn⟩
      rw [signedPart_of_value hn, hn]
  · have hnan := fract_isNaN (Bool.eq_false_iff.mpr hx)
    simp [equals, hnan, hx]

/-! ## Conversion to integers -/

/-- The whole part as a 64-bit integer, or the limit that is nearest to it. NaN gives zero. -/
def toInt64 (x : Double) : Int64 :=
  if x.isNaN then 0
  else Int64.ofInt (max Int64.minValue.toInt (min Int64.maxValue.toInt x.signedPart))

/-- A whole number in range is converted to itself. -/
theorem toInt64_of_value {x : Double} (hx : x.isNaN = false) {i : Int64} (h : x.value = i.toInt) :
    x.toInt64 = i := by
  have hpart := signedPart_of_value h
  unfold toInt64
  rw [hx, hpart, min_eq_right i.toInt_le, max_eq_right i.minValue_le_toInt, Int64.ofInt_toInt]
  rfl

end RespMux.Double
