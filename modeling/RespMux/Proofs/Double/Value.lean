import Mathlib.Algebra.Order.Field.Power
import Mathlib.Algebra.Order.Field.Rat
import Mathlib.Tactic.Linarith
import Mathlib.Tactic.NormNum
import Mathlib.Tactic.Positivity
import RespMux.Proofs.Decimal.Written

/-!
# The exact value of a double

The value of a finite double is the rational number `± significand * 2 ^ exponent`. The same formula
gives infinity the value `± 2 ^ 1024`, where the finite numbers end. The bits without the sign grow
with the magnitude, so doubles are compared by their bits (`rank`): the order of the ranks is that
of the values.
-/

set_option autoImplicit false

namespace RespMux.Double

/-! ## Powers -/

/-- A power is a fraction of which one side is one. -/
theorem zpow_eq_div {b : ℚ} (hb : b ≠ 0) (e : ℤ) : b ^ e = b ^ e.toNat / b ^ (-e).toNat := by
  rw [eq_div_iff (pow_ne_zero _ hb), ← zpow_natCast, ← zpow_natCast, ← zpow_add₀ hb]
  congr 1
  omega

theorem two_zpow_pos (e : ℤ) : (0 : ℚ) < 2 ^ e := by positivity

theorem two_zpow_succ (e : ℤ) : (2 : ℚ) ^ (e + 1) = 2 * 2 ^ e := by
  rw [zpow_add_one₀ (by norm_num), mul_comm]

/-! ## Bits -/

theorem signBit_eq : signBit = 2 ^ 63 := by decide

theorem leadingBit_eq : leadingBit = 2 ^ 52 := by decide

theorem magnitudeBits_lt (x : Double) : x.magnitudeBits < signBit := Nat.mod_lt _ (by decide)

theorem ofMagnitude_toNat (negative : Bool) {m : Nat} (hm : m < signBit) :
    (ofMagnitude negative m).bits.toNat = (if negative then signBit else 0) + m := by
  have hsign := signBit_eq
  refine UInt64.toNat_ofNat_of_lt' ?_
  have hsize : UInt64.size = 2 ^ 64 := rfl
  split <;> omega

theorem magnitudeBits_ofMagnitude (negative : Bool) {m : Nat} (hm : m < signBit) :
    (ofMagnitude negative m).magnitudeBits = m := by
  rw [magnitudeBits, ofMagnitude_toNat negative hm]
  split
  · rw [Nat.add_mod_left, Nat.mod_eq_of_lt hm]
  · rw [Nat.zero_add, Nat.mod_eq_of_lt hm]

theorem isNegative_ofMagnitude (negative : Bool) {m : Nat} (hm : m < signBit) :
    (ofMagnitude negative m).isNegative = negative := by
  rw [isNegative, ofMagnitude_toNat negative hm]
  cases negative
  · simpa using hm
  · simp

/-- A double is its sign and its other bits. -/
theorem ofMagnitude_self (x : Double) : ofMagnitude x.isNegative x.magnitudeBits = x := by
  have hlt : x.bits.toNat < 2 ^ 64 := x.bits.toNat_lt
  have hbits : (ofMagnitude x.isNegative x.magnitudeBits).bits = x.bits := by
    apply UInt64.toNat_inj.mp
    rw [ofMagnitude_toNat _ x.magnitudeBits_lt, isNegative, magnitudeBits, signBit_eq]
    by_cases hneg : 2 ^ 63 ≤ x.bits.toNat
    · simp only [hneg, decide_true, if_true]
      omega
    · simp only [hneg, decide_false, Bool.false_eq_true, if_false]
      omega
  calc ofMagnitude x.isNegative x.magnitudeBits
      = ⟨(ofMagnitude x.isNegative x.magnitudeBits).bits⟩ := rfl
    _ = ⟨x.bits⟩ := by rw [hbits]

theorem isNaN_of_isFinite {x : Double} (h : x.isFinite = true) : x.isNaN = false := by
  simp only [isFinite, decide_eq_true_eq] at h
  simp only [isNaN, decide_eq_false_iff_not]
  omega

theorem isInfinite_of_isFinite {x : Double} (h : x.isFinite = true) : x.isInfinite = false := by
  simp only [isFinite, decide_eq_true_eq] at h
  simp only [isInfinite, beq_eq_false_iff_ne]
  omega

theorem fraction_lt (x : Double) : x.fraction < leadingBit := Nat.mod_lt _ (by decide)

/-- The bits count the steps from zero, of which there are `2 ^ 52` for each exponent. -/
theorem magnitudeBits_eq (x : Double) :
    (x.magnitudeBits : ℤ) = x.significand + (x.exponent + 1074) * leadingBit := by
  have hdiv : leadingBit * x.exponentField + x.fraction = x.magnitudeBits :=
    Nat.div_add_mod x.magnitudeBits leadingBit
  rw [leadingBit_eq] at hdiv ⊢
  unfold significand exponent
  split
  · omega
  · rw [leadingBit_eq]
    omega

/-- The leading bit is there, except below the normal range. -/
theorem leadingBit_le_significand {x : Double} (h : -1074 < x.exponent) :
    leadingBit ≤ x.significand := by
  unfold exponent at h
  rw [significand, if_neg (by omega)]
  exact Nat.le_add_right _ _

/-! ## Values -/

/-- The value without its sign. -/
def magnitude (x : Double) : ℚ := x.significand * 2 ^ x.exponent

/-- The exact value of a double that is a number; infinity counts as `2 ^ 1024`. -/
def value (x : Double) : ℚ := if x.isNegative then -x.magnitude else x.magnitude

theorem magnitude_nonneg (x : Double) : 0 ≤ x.magnitude :=
  mul_nonneg (Nat.cast_nonneg _) (two_zpow_pos _).le

theorem exponent_mono {x y : Double} (h : x.magnitudeBits ≤ y.magnitudeBits) :
    x.exponent ≤ y.exponent := by
  have hfield : x.exponentField ≤ y.exponentField := Nat.div_le_div_right h
  unfold exponent
  omega

/-- More bits are a larger magnitude: with equal exponents the significand is larger, and from one
exponent to the next the leading bit makes up for all of the significand below. -/
theorem magnitude_lt_of_bits {x y : Double} (h : x.magnitudeBits < y.magnitudeBits) :
    x.magnitude < y.magnitude := by
  have hx := x.magnitudeBits_eq
  have hy := y.magnitudeBits_eq
  unfold magnitude
  rcases (exponent_mono h.le).eq_or_lt with heq | hlt
  · have hsignificand : x.significand < y.significand := by
      rw [heq] at hx
      omega
    rw [heq]
    exact mul_lt_mul_of_pos_right (by exact_mod_cast hsignificand) (two_zpow_pos _)
  · have hlow : (x.significand : ℚ) < 2 ^ 53 := by
      exact_mod_cast Decimal.significand_lt x
    have hhigh : (2 : ℚ) ^ 52 ≤ y.significand := by
      have hrange := (Decimal.exponent_range x).1
      have hle := leadingBit_le_significand (x := y) (by omega)
      rw [leadingBit_eq] at hle
      exact_mod_cast hle
    calc (x.significand : ℚ) * 2 ^ x.exponent
        < 2 ^ 53 * 2 ^ x.exponent := mul_lt_mul_of_pos_right hlow (two_zpow_pos _)
      _ = 2 ^ 52 * 2 ^ (x.exponent + 1) := by rw [two_zpow_succ]; ring
      _ ≤ 2 ^ 52 * 2 ^ y.exponent :=
          mul_le_mul_of_nonneg_left (zpow_le_zpow_right₀ (by norm_num) hlt) (by positivity)
      _ ≤ y.significand * 2 ^ y.exponent := mul_le_mul_of_nonneg_right hhigh (two_zpow_pos _).le

theorem magnitude_eq_of_bits {x y : Double} (h : x.magnitudeBits = y.magnitudeBits) :
    x.magnitude = y.magnitude := by
  unfold magnitude significand exponent fraction exponentField
  rw [h]

theorem magnitude_le_iff {x y : Double} :
    x.magnitude ≤ y.magnitude ↔ x.magnitudeBits ≤ y.magnitudeBits := by
  constructor
  · intro h
    by_contra hlt
    exact absurd (magnitude_lt_of_bits (Nat.lt_of_not_le hlt)) (not_lt.mpr h)
  · intro h
    rcases h.eq_or_lt with heq | hlt
    · exact (magnitude_eq_of_bits heq).le
    · exact (magnitude_lt_of_bits hlt).le

theorem magnitude_eq_zero_iff {x : Double} : x.magnitude = 0 ↔ x.magnitudeBits = 0 := by
  have hzero : (⟨0⟩ : Double).magnitude = 0 := by
    unfold magnitude
    rw [show (⟨0⟩ : Double).significand = 0 by decide, Nat.cast_zero, zero_mul]
  have hbits : (⟨0⟩ : Double).magnitudeBits = 0 := by decide
  have hiff : x.magnitude ≤ (⟨0⟩ : Double).magnitude ↔ _ := magnitude_le_iff
  rw [hzero, hbits, Nat.le_zero] at hiff
  rw [← hiff]
  exact ⟨le_of_eq, fun h => le_antisymm h x.magnitude_nonneg⟩

/-! ## Order -/

/-- The place of a double among all of them, counted from zero; both zeros have the same. -/
def rank (x : Double) : ℤ := if x.isNegative then -x.magnitudeBits else x.magnitudeBits

/-- Not above, as numbers; nothing is so for NaN. -/
def le (x y : Double) : Bool := !x.isNaN && !y.isNaN && decide (x.rank ≤ y.rank)

/-- Below, as numbers; nothing is so for NaN. -/
def lt (x y : Double) : Bool := !x.isNaN && !y.isNaN && decide (x.rank < y.rank)

/-- Equal as numbers: the two zeros are, and NaN is equal to nothing. -/
def equals (x y : Double) : Bool := !x.isNaN && !y.isNaN && decide (x.rank = y.rank)

theorem rank_le_iff {x y : Double} : x.rank ≤ y.rank ↔ x.value ≤ y.value := by
  have hx := x.magnitude_nonneg
  have hy := y.magnitude_nonneg
  have hiff : x.magnitude ≤ y.magnitude ↔ _ := magnitude_le_iff
  have hiff' : y.magnitude ≤ x.magnitude ↔ _ := magnitude_le_iff
  have hzero : x.magnitude = 0 ↔ _ := magnitude_eq_zero_iff
  have hzero' : y.magnitude = 0 ↔ _ := magnitude_eq_zero_iff
  unfold rank value
  cases x.isNegative <;> cases y.isNegative <;> simp only [Bool.false_eq_true, if_false, if_true]
  · rw [hiff]
    omega
  · -- a number from zero upwards against one from zero downwards: both have to be zero
    constructor
    · intro h
      rw [hzero.mpr (by omega), hzero'.mpr (by omega)]
      norm_num
    · intro h
      have := hzero.mp (by linarith)
      have := hzero'.mp (by linarith)
      omega
  · constructor
    · intro _
      linarith
    · intro _
      omega
  · rw [neg_le_neg_iff, neg_le_neg_iff, hiff']
    exact Int.ofNat_le

theorem rank_eq_iff {x y : Double} : x.rank = y.rank ↔ x.value = y.value := by
  rw [le_antisymm_iff, le_antisymm_iff, rank_le_iff, rank_le_iff]

theorem le_iff {x y : Double} :
    le x y = true ↔ x.isNaN = false ∧ y.isNaN = false ∧ x.value ≤ y.value := by
  simp only [le, Bool.and_eq_true, Bool.not_eq_true', decide_eq_true_eq, rank_le_iff, and_assoc]

theorem equals_iff {x y : Double} :
    equals x y = true ↔ x.isNaN = false ∧ y.isNaN = false ∧ x.value = y.value := by
  simp only [equals, Bool.and_eq_true, Bool.not_eq_true', decide_eq_true_eq, rank_eq_iff, and_assoc]

end RespMux.Double
