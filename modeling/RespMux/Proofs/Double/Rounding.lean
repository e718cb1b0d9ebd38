import Mathlib.Tactic.FieldSimp
import Mathlib.Tactic.Ring
import RespMux.Decimal.Shortest
import RespMux.Proofs.Double.Value

/-!
# Rounding to the nearest double

The reals that round to a positive double form an interval around its magnitude (`Rounds`): half a
step to either side, a quarter below a double where the steps become shorter, with the ends if the
significand is even. Whatever fraction lies in it, the double that is found for the fraction is this
one (`ofRatio_of_rounds`). The decimal that is chosen for a double lies in its interval, as either it
has been tested for that or it is the exact value (`rounds_shortest`).
-/

set_option autoImplicit false

namespace RespMux.Double

/-! ## Rounding a quotient -/

theorem le_roundDiv (num den : Nat) : num / den ≤ roundDiv num den := by
  unfold roundDiv
  simp only
  split
  · exact Nat.le_refl _
  · split
    · exact Nat.le_succ _
    · exact Nat.le_add_right _ _

/-- The rounded quotient is a number from which the quotient is at most a half away, and an even one
if it is just a half. -/
theorem roundDiv_of_le {num den m : Nat} (hden : 0 < den) (hlow : 2 * (den * m) ≤ 2 * num + den)
    (hhigh : 2 * num ≤ 2 * (den * m) + den)
    (htie : m % 2 = 0 ∨ (2 * (den * m) < 2 * num + den ∧ 2 * num < 2 * (den * m) + den)) :
    roundDiv num den = m := by
  have hsplit : den * (num / den) + num % den = num := Nat.div_add_mod num den
  have hrest : num % den < den := Nat.mod_lt num hden
  have hm : m = num / den ∨ m = num / den + 1 := by
    have hbelow : num / den ≤ m := by
      by_contra hlt
      have := Nat.mul_le_mul_left den (Nat.succ_le_of_lt (Nat.lt_of_not_le hlt))
      rw [Nat.mul_succ] at this
      omega
    have habove : m ≤ num / den + 1 := by
      by_contra hlt
      have := Nat.mul_le_mul_left den (Nat.succ_le_of_lt (Nat.lt_of_not_le hlt))
      rw [Nat.mul_succ, Nat.mul_succ] at this
      omega
    omega
  unfold roundDiv
  simp only
  obtain rfl | rfl := hm
  · split
    · rfl
    · split <;> omega
  · rw [Nat.mul_succ] at hlow hhigh htie
    split
    · omega
    · split <;> omega

theorem roundDiv_eq {num den m : Nat} (hden : 0 < den) (hlow : (m : ℚ) - 1 / 2 ≤ num / den)
    (hhigh : (num : ℚ) / den ≤ m + 1 / 2)
    (htie : m % 2 = 0 ∨ ((m : ℚ) - 1 / 2 < num / den ∧ (num : ℚ) / den < m + 1 / 2)) :
    roundDiv num den = m := by
  have hpos : (0 : ℚ) < den := by exact_mod_cast hden
  rw [le_div_iff₀ hpos] at hlow
  rw [div_le_iff₀ hpos] at hhigh
  rw [lt_div_iff₀ hpos, div_lt_iff₀ hpos] at htie
  refine roundDiv_of_le hden ?_ ?_ (htie.imp_right fun ⟨hlow', hhigh'⟩ => ⟨?_, ?_⟩)
  · have : (2 : ℚ) * (den * m) ≤ 2 * num + den := by linarith
    exact_mod_cast this
  · have : (2 : ℚ) * num ≤ 2 * (den * m) + den := by linarith
    exact_mod_cast this
  · have : (2 : ℚ) * (den * m) < 2 * num + den := by linarith
    exact_mod_cast this
  · have : (2 : ℚ) * num < 2 * (den * m) + den := by linarith
    exact_mod_cast this

/-! ## The order of a fraction -/

/-- Shifting one side of a fraction divides it by a power of two. -/
theorem shifted_div (num den : Nat) (e : ℤ) :
    ((num <<< (-e).toNat : ℕ) : ℚ) / (den <<< e.toNat : ℕ) = num / den / 2 ^ e := by
  rw [Nat.shiftLeft_eq, Nat.shiftLeft_eq, zpow_eq_div (by norm_num)]
  push_cast
  rw [mul_div_mul_comm, div_div_eq_mul_div, mul_div_assoc]

theorem shiftLeft_pos {n : Nat} (h : 0 < n) (k : Nat) : 0 < n <<< k := by
  rw [Nat.shiftLeft_eq]
  positivity

theorem shifted_lt_iff {num den : Nat} (hden : 0 < den) (k : ℤ) :
    num <<< (-k).toNat < den <<< k.toNat ↔ (num : ℚ) / den < 2 ^ k := by
  have hpos : (0 : ℚ) < (den <<< k.toNat : ℕ) := by exact_mod_cast shiftLeft_pos hden _
  rw [← Nat.cast_lt (α := ℚ), ← div_lt_one hpos, shifted_div, div_lt_one (two_zpow_pos k)]

/-- The fraction lies between the power of two of its order and the next one. -/
theorem binaryOrder_spec {num den : Nat} (hnum : 0 < num) (hden : 0 < den) :
    (2 : ℚ) ^ binaryOrder num den ≤ num / den
      ∧ (num : ℚ) / den < 2 ^ (binaryOrder num den + 1) := by
  have hpos : (0 : ℚ) < den := by exact_mod_cast hden
  have hnumlow : (2 : ℚ) ^ num.log2 ≤ num := by exact_mod_cast Nat.log2_self_le hnum.ne'
  have hnumhigh : (num : ℚ) < 2 ^ (num.log2 + 1) := by exact_mod_cast Nat.lt_log2_self
  have hdenlow : (2 : ℚ) ^ den.log2 ≤ den := by exact_mod_cast Nat.log2_self_le hden.ne'
  have hdenhigh : (den : ℚ) < 2 ^ (den.log2 + 1) := by exact_mod_cast Nat.lt_log2_self
  -- by the lengths alone the order is known up to one
  have hlow : (2 : ℚ) ^ ((num.log2 : ℤ) - den.log2 - 1) ≤ num / den := by
    rw [le_div_iff₀ hpos]
    calc (2 : ℚ) ^ ((num.log2 : ℤ) - den.log2 - 1) * den
        ≤ 2 ^ ((num.log2 : ℤ) - den.log2 - 1) * 2 ^ (den.log2 + 1) :=
          mul_le_mul_of_nonneg_left hdenhigh.le (two_zpow_pos _).le
      _ = 2 ^ num.log2 := by
          rw [← zpow_natCast, ← zpow_natCast, ← zpow_add₀ (by norm_num)]
          congr 1
          push_cast
          ring
      _ ≤ num := hnumlow
  have hhigh : (num : ℚ) / den < 2 ^ ((num.log2 : ℤ) - den.log2 + 1) := by
    rw [div_lt_iff₀ hpos]
    calc (num : ℚ)
        < 2 ^ (num.log2 + 1) := hnumhigh
      _ = 2 ^ ((num.log2 : ℤ) - den.log2 + 1) * 2 ^ den.log2 := by
          rw [← zpow_natCast, ← zpow_natCast, ← zpow_add₀ (by norm_num)]
          congr 1
          push_cast
          ring
      _ ≤ 2 ^ ((num.log2 : ℤ) - den.log2 + 1) * den :=
          mul_le_mul_of_nonneg_left hdenlow (two_zpow_pos _).le
  unfold binaryOrder
  simp only
  split
  · rename_i hlt
    refine ⟨hlow, ?_⟩
    rw [sub_add_cancel]
    exact (shifted_lt_iff hden _).mp hlt
  · rename_i hge
    exact ⟨not_lt.mp fun hlt => hge ((shifted_lt_iff hden _).mpr hlt), hhigh⟩

/-! ## What rounds to a double -/

/-- The lower end of what rounds to a double, in quarters of a step. -/
def lowEnd (x : Double) : Nat :=
  if Decimal.narrowBelow x then 4 * x.significand - 1 else 4 * x.significand - 2

/-- The number lies in the interval of what rounds to the magnitude of a double. -/
structure Rounds (x : Double) (v : ℚ) : Prop where
  below : (lowEnd x : ℚ) * 2 ^ (x.exponent - 2) ≤ v
  above : v ≤ (4 * x.significand + 2 : ℕ) * 2 ^ (x.exponent - 2)
  inside : x.significand % 2 = 0
    ∨ ((lowEnd x : ℚ) * 2 ^ (x.exponent - 2) < v
        ∧ v < (4 * x.significand + 2 : ℕ) * 2 ^ (x.exponent - 2))

theorem quarter_step (x : Double) : (2 : ℚ) ^ (x.exponent - 2) = 2 ^ x.exponent / 4 := by
  rw [zpow_sub₀ (by norm_num)]
  norm_num

theorem four_significand_le (x : Double) : 4 * x.significand ≤ lowEnd x + 2 := by
  unfold lowEnd
  split <;> omega

/-- In steps, the number is at most a half away from the significand. -/
theorem Rounds.scaled {x : Double} {v : ℚ} (h : Rounds x v) :
    (x.significand : ℚ) - 1 / 2 ≤ v / 2 ^ x.exponent
      ∧ v / 2 ^ x.exponent ≤ x.significand + 1 / 2
      ∧ (x.significand % 2 = 0 ∨ ((x.significand : ℚ) - 1 / 2 < v / 2 ^ x.exponent
          ∧ v / 2 ^ x.exponent < x.significand + 1 / 2)) := by
  have hpos := two_zpow_pos x.exponent
  have hend : (4 : ℚ) * x.significand ≤ lowEnd x + 2 := by exact_mod_cast four_significand_le x
  have hscale : ((x.significand : ℚ) - 1 / 2) * 2 ^ x.exponent
      ≤ lowEnd x * 2 ^ (x.exponent - 2) := by
    rw [quarter_step]
    nlinarith
  have hscale' : ((4 * x.significand + 2 : ℕ) : ℚ) * 2 ^ (x.exponent - 2)
      = (x.significand + 1 / 2) * 2 ^ x.exponent := by
    rw [quarter_step]
    push_cast
    ring
  have hbelow := h.below
  have habove := h.above
  have hinside := h.inside
  rw [hscale'] at habove hinside
  refine ⟨(le_div_iff₀ hpos).mpr (hscale.trans hbelow), (div_le_iff₀ hpos).mpr habove,
    hinside.imp_right fun ⟨hlow, hhigh⟩ => ⟨?_, (div_lt_iff₀ hpos).mpr hhigh⟩⟩
  exact (lt_div_iff₀ hpos).mpr (hscale.trans_lt hlow)

theorem Rounds.pos {x : Double} {v : ℚ} (h : Rounds x v) (hx : x.significand ≠ 0) : 0 < v := by
  have hone : (1 : ℚ) ≤ x.significand := by exact_mod_cast Nat.one_le_iff_ne_zero.mpr hx
  have hscaled : 0 < v / 2 ^ x.exponent := by
    have := h.scaled.1
    linarith
  exact (div_pos_iff_of_pos_right (two_zpow_pos _)).mp hscaled

/-- Where the next steps down are shorter, only a quarter of a step rounds up. -/
theorem Rounds.narrow {x : Double} {v : ℚ} (h : Rounds x v) (hx : Decimal.narrowBelow x = true) :
    (x.significand : ℚ) - 1 / 4 ≤ v / 2 ^ x.exponent := by
  have hbelow := h.below
  have hend : (4 : ℚ) * x.significand ≤ lowEnd x + 1 := by
    have : 4 * x.significand ≤ lowEnd x + 1 := by
      rw [lowEnd, if_pos hx]
      omega
    exact_mod_cast this
  have hpos := two_zpow_pos x.exponent
  rw [quarter_step] at hbelow
  rw [le_div_iff₀ hpos]
  nlinarith

/-- The exact magnitude is among what rounds to a double. -/
theorem rounds_magnitude (x : Double) : Rounds x x.magnitude := by
  have hpos := two_zpow_pos x.exponent
  by_cases hzero : x.significand = 0
  · have hend : lowEnd x = 0 := by
      rw [lowEnd, hzero]
      split <;> rfl
    refine ⟨?_, ?_, .inl (by rw [hzero])⟩
    · rw [hend, Nat.cast_zero, zero_mul]
      exact x.magnitude_nonneg
    · rw [magnitude, hzero, Nat.cast_zero, zero_mul]
      positivity
  · have hend : (lowEnd x : ℚ) + 1 ≤ 4 * x.significand := by
      have : lowEnd x + 1 ≤ 4 * x.significand := by
        unfold lowEnd
        split <;> omega
      exact_mod_cast this
    have hlow : (lowEnd x : ℚ) * 2 ^ (x.exponent - 2) < x.magnitude := by
      rw [quarter_step, magnitude]
      nlinarith
    have hhigh : x.magnitude < (4 * x.significand + 2 : ℕ) * 2 ^ (x.exponent - 2) := by
      rw [quarter_step, magnitude]
      push_cast
      nlinarith
    exact ⟨hlow.le, hhigh.le, .inr ⟨hlow, hhigh⟩⟩

/-- What rounds to a finite double lies in the range of all doubles, which ends below `2 ^ 1024` and
begins above `2 ^ (-1076)`. -/
theorem Rounds.range {x : Double} {v : ℚ} (hx : x.significand ≠ 0) (hfinite : x.isFinite = true)
    (h : Rounds x v) : (2 : ℚ) ^ (-1076 : ℤ) ≤ v ∧ v < 2 ^ (1024 : ℤ) := by
  obtain ⟨hlow, hhigh, _⟩ := h.scaled
  have hpos := two_zpow_pos x.exponent
  have hone : (1 : ℚ) ≤ x.significand := by exact_mod_cast Nat.one_le_iff_ne_zero.mpr hx
  have hlt : (x.significand : ℚ) + 1 ≤ 2 ^ 53 := by exact_mod_cast Decimal.significand_lt x
  have hleast := (Decimal.exponent_range x).1
  have hmost : x.exponent ≤ 971 := by
    have hbits : x.magnitudeBits < infinityBits := by simpa [isFinite] using hfinite
    have hinfinity : infinityBits = 2047 * 2 ^ 52 := by decide
    have hfield : x.exponentField < 2047 := by
      rw [exponentField, leadingBit_eq]
      omega
    unfold exponent
    omega
  constructor
  · calc (2 : ℚ) ^ (-1076 : ℤ)
        = 1 / 4 * 2 ^ (-1074 : ℤ) := by
          have hfour : (2 : ℚ) ^ (2 : ℤ) = 4 := by norm_num
          rw [show (-1076 : ℤ) = -1074 - 2 by norm_num, zpow_sub₀ (by norm_num), hfour,
            div_eq_inv_mul, one_div]
      _ ≤ 1 / 4 * 2 ^ x.exponent :=
          mul_le_mul_of_nonneg_left (zpow_le_zpow_right₀ (by norm_num) hleast) (by norm_num)
      _ ≤ (x.significand - 1 / 2) * 2 ^ x.exponent :=
          mul_le_mul_of_nonneg_right (by linarith) hpos.le
      _ ≤ v := (le_div_iff₀ hpos).mp hlow
  · calc v
        ≤ (x.significand + 1 / 2) * 2 ^ x.exponent := (div_le_iff₀ hpos).mp hhigh
      _ < 2 ^ (53 : ℤ) * 2 ^ x.exponent := by
          refine mul_lt_mul_of_pos_right ?_ hpos
          norm_num at hlt ⊢
          linarith
      _ ≤ 2 ^ (53 : ℤ) * 2 ^ (971 : ℤ) :=
          mul_le_mul_of_nonneg_left (zpow_le_zpow_right₀ (by norm_num) hmost) (by norm_num)
      _ = 2 ^ (1024 : ℤ) := by rw [← zpow_add₀ (by norm_num)]; norm_num

/-! ## The nearest double -/

/-- In steps of a double, the order of a fraction is known from the powers of two around it. -/
theorem binaryOrder_lt {x : Double} {num den : Nat} (hnum : 0 < num) (hden : 0 < den) {k : ℤ}
    (h : (num : ℚ) / den / 2 ^ x.exponent < 2 ^ k) : binaryOrder num den < x.exponent + k := by
  have horder := (binaryOrder_spec hnum hden).1
  rw [div_lt_iff₀ (two_zpow_pos _), ← zpow_add₀ (by norm_num)] at h
  have hpower := horder.trans_lt h
  rw [zpow_lt_zpow_iff_right₀ (by norm_num)] at hpower
  omega

theorem le_binaryOrder {x : Double} {num den : Nat} (hnum : 0 < num) (hden : 0 < den) {k : ℤ}
    (h : (2 : ℚ) ^ k ≤ num / den / 2 ^ x.exponent) : x.exponent + k ≤ binaryOrder num den := by
  have hnext := (binaryOrder_spec hnum hden).2
  rw [le_div_iff₀ (two_zpow_pos _), ← zpow_add₀ (by norm_num)] at h
  have hpower := h.trans_lt hnext
  rw [zpow_lt_zpow_iff_right₀ (by norm_num)] at hpower
  omega

/-- What rounds to a double with a leading bit but lies below this bit, rounds to the power of two
itself. -/
theorem Rounds.power {x : Double} {v : ℚ} (h : Rounds x v) (hx : -1074 < x.exponent)
    (hv : v / 2 ^ x.exponent < 2 ^ 52) :
    x.significand = leadingBit ∧ Decimal.narrowBelow x = true := by
  have hlow := h.scaled.1
  have hbit := leadingBit_le_significand hx
  have hleading := leadingBit_eq
  have hsignificand : x.significand = leadingBit := by
    have hcast : (x.significand : ℚ) < 2 ^ 52 + 1 := by linarith
    have : x.significand < 2 ^ 52 + 1 := by exact_mod_cast hcast
    omega
  refine ⟨hsignificand, ?_⟩
  unfold exponent at hx
  have hfield : x.exponentField ≠ 0 := by omega
  rw [significand, if_neg hfield] at hsignificand
  simp only [Decimal.narrowBelow, Bool.and_eq_true, beq_iff_eq, decide_eq_true_eq]
  omega

/-- The step in which a fraction is rounded is that of the double in whose interval it lies, but for
one case: below a power of two it is half of it. -/
theorem Rounds.step {x : Double} {num den : Nat} (hnum : 0 < num) (hden : 0 < den)
    (h : Rounds x (num / den)) :
    max (binaryOrder num den - 52) (-1074) = x.exponent
      ∨ (max (binaryOrder num den - 52) (-1074) = x.exponent - 1 ∧ x.significand = leadingBit
          ∧ Decimal.narrowBelow x = true ∧ (num : ℚ) / den / 2 ^ x.exponent < x.significand) := by
  have hhigh := h.scaled.2.1
  have hrange := (Decimal.exponent_range x).1
  have hlt : (x.significand : ℚ) + 1 ≤ 2 ^ 53 := by exact_mod_cast Decimal.significand_lt x
  -- nothing in the interval reaches the next power of two
  have habove : binaryOrder num den < x.exponent + 53 := by
    refine binaryOrder_lt hnum hden ?_
    norm_num at hlt ⊢
    linarith
  by_cases hlead : (2 : ℚ) ^ (52 : ℤ) ≤ num / den / 2 ^ x.exponent
  · left
    have := le_binaryOrder hnum hden hlead
    omega
  · have hbelow := binaryOrder_lt hnum hden (not_le.mp hlead)
    by_cases hleast : x.exponent = -1074
    · left
      omega
    · right
      have hlead' : (num : ℚ) / den / 2 ^ x.exponent < 2 ^ 52 := by exact_mod_cast not_le.mp hlead
      obtain ⟨hsignificand, hnarrow⟩ := h.power (by omega) hlead'
      have hcast : (x.significand : ℚ) = 2 ^ 52 := by
        exact_mod_cast hsignificand.trans leadingBit_eq
      have hhalf : x.exponent + 51 ≤ binaryOrder num den := by
        have hquarter := h.narrow hnarrow
        refine le_binaryOrder hnum hden ?_
        rw [hcast] at hquarter
        norm_num at hquarter ⊢
        linarith
      exact ⟨by omega, hsignificand, hnarrow, hcast ▸ hlead'⟩

/-- Every fraction in the interval of a double is rounded to this double. -/
theorem ofRatio_of_rounds {x : Double} (hx : x.significand ≠ 0) (hfinite : x.isFinite = true)
    {num den : Nat} (hden : 0 < den) (h : Rounds x (num / den)) (negative : Bool) :
    ofRatio negative num den = ofMagnitude negative x.magnitudeBits := by
  have hnum : 0 < num := by
    refine Nat.pos_of_ne_zero fun hzero => ?_
    have := h.pos hx
    rw [hzero, Nat.cast_zero, zero_div] at this
    exact lt_irrefl _ this
  have hbits := x.magnitudeBits_eq
  have hlimit : x.magnitudeBits < infinityBits := by simpa [isFinite] using hfinite
  have hrange := (Decimal.exponent_range x).1
  obtain ⟨hlow, hhigh, htie⟩ := h.scaled
  have hquotient (e : ℤ) : ((num <<< (-e).toNat : ℕ) : ℚ) / (den <<< e.toNat : ℕ)
      = num / den / 2 ^ e := shifted_div num den e
  unfold ofRatio
  rw [if_neg hnum.ne']
  simp only
  rcases h.step hnum hden with hstep | ⟨hstep, hsignificand, hnarrow, hbelow⟩
  · have hround : roundDiv (num <<< (-x.exponent).toNat) (den <<< x.exponent.toNat)
        = x.significand := by
      rw [← hquotient] at hlow hhigh htie
      exact roundDiv_eq (shiftLeft_pos hden _) hlow hhigh htie
    rw [hstep, hround]
    congr 1
    rw [leadingBit_eq] at hbits ⊢
    omega
  · -- below a power of two the steps are half as long, so the significand counts twice
    have hround : roundDiv (num <<< (-(x.exponent - 1)).toNat) (den <<< (x.exponent - 1).toNat)
        = 2 * x.significand := by
      have hhalf : (num : ℚ) / den / 2 ^ (x.exponent - 1) = 2 * (num / den / 2 ^ x.exponent) := by
        rw [zpow_sub_one₀ (by norm_num), ← div_div, div_inv_eq_mul, mul_comm]
      have hquarter := h.narrow hnarrow
      refine roundDiv_eq (shiftLeft_pos hden _) ?_ ?_ (.inl (Nat.mul_mod_right 2 _))
      · rw [hquotient, hhalf]
        push_cast
        linarith
      · rw [hquotient, hhalf]
        push_cast
        linarith
    rw [hstep, hround]
    congr 1
    rw [hsignificand, leadingBit_eq] at hbits
    rw [hsignificand, leadingBit_eq]
    omega

/-- A fraction of at least the smallest step is not rounded to zero. -/
theorem ofRatio_ne_zero {num den : Nat} (hden : 0 < den)
    (h : (2 : ℚ) ^ (-1074 : ℤ) ≤ num / den) (negative : Bool) :
    (ofRatio negative num den).magnitudeBits ≠ 0 := by
  have hinfinity : 0 < infinityBits ∧ infinityBits < signBit := by decide
  have hnum : num ≠ 0 := by
    rintro rfl
    rw [Nat.cast_zero, zero_div] at h
    exact absurd h (not_le.mpr (two_zpow_pos _))
  unfold ofRatio
  rw [if_neg hnum]
  simp only
  rw [magnitudeBits_ofMagnitude _ (by omega)]
  have hleading := leadingBit_eq
  by_cases hstep : max (binaryOrder num den - 52) (-1074) = -1074
  · -- in the smallest step the quotient is one or more
    have hone : 1 ≤ num <<< (-(-1074 : ℤ)).toNat / den <<< (-1074 : ℤ).toNat := by
      have hpos : 0 < den <<< (-1074 : ℤ).toNat := shiftLeft_pos hden _
      have hcast : (0 : ℚ) < (den <<< (-1074 : ℤ).toNat : ℕ) := by exact_mod_cast hpos
      rw [Nat.one_le_div_iff hpos, ← Nat.cast_le (α := ℚ), ← one_le_div hcast, shifted_div,
        one_le_div (two_zpow_pos _)]
      exact h
    have hround := le_roundDiv (num <<< (-(-1074 : ℤ)).toNat) (den <<< (-1074 : ℤ).toNat)
    rw [hstep]
    omega
  · have hmul := Nat.mul_le_mul_right leadingBit
      (show 1 ≤ (max (binaryOrder num den - 52) (-1074) + 1074).toNat by omega)
    omega

end RespMux.Double

namespace RespMux.Decimal

open Double

/-! ## The shortest decimal -/

/-- The number that a decimal stands for. -/
def Scaled.value (d : Scaled) : ℚ := d.digits * 10 ^ d.exponent

/-- Two scaled numbers are compared by their values. -/
theorem compareScaled_eq (a : Nat) (i : ℤ) (n : Nat) (j : ℤ) :
    compareScaled a i n j = compare ((a : ℚ) * 10 ^ i) (n * 2 ^ j) := by
  have hpos : (0 : ℚ) < 10 ^ (-i).toNat * 2 ^ (-j).toNat := by positivity
  have hleft : (((a * Nat.pow 10 i.toNat) <<< (-j).toNat : ℕ) : ℚ)
      = 10 ^ (-i).toNat * 2 ^ (-j).toNat * (a * 10 ^ i) := by
    rw [zpow_eq_div (b := 10) (by norm_num) i, Nat.shiftLeft_eq, Nat.pow_eq]
    push_cast
    field_simp
  have hright : (((n * Nat.pow 10 (-i).toNat) <<< j.toNat : ℕ) : ℚ)
      = 10 ^ (-i).toNat * 2 ^ (-j).toNat * (n * 2 ^ j) := by
    rw [zpow_eq_div (b := 2) (by norm_num) j, Nat.shiftLeft_eq, Nat.pow_eq]
    push_cast
    field_simp
  rw [compareScaled, ← cmp_eq_compare, ← cmp_eq_compare, ← Nat.strictMono_cast (α := ℚ) |>.cmp_map_eq,
    hleft, hright, (strictMono_mul_left_of_pos hpos).cmp_map_eq]

/-- A decimal reads back if its value lies in the interval of the double. -/
theorem rounds_of_readsBack {x : Double} {d : Scaled} (h : readsBack x d = true) :
    Rounds x d.value := by
  unfold readsBack at h
  simp only [compareScaled_eq, Bool.and_eq_true, Bool.or_eq_true, beq_iff_eq, compare_gt_iff_gt,
    compare_eq_iff_eq, compare_lt_iff_lt] at h
  obtain ⟨hbelow, habove⟩ := h
  refine ⟨?_, ?_, ?_⟩
  · rcases hbelow with hlt | ⟨_, heq⟩
    · exact hlt.le
    · exact heq.ge
  · rcases habove with hlt | ⟨_, heq⟩
    · exact hlt.le
    · exact heq.le
  · rcases hbelow with hlow | ⟨heven, _⟩
    · rcases habove with hhigh | ⟨heven, _⟩
      · exact .inr ⟨hlow, hhigh⟩
      · exact .inl heven
    · exact .inl heven

theorem rounds_of_onGrid? {x : Double} {i : ℤ} {d : Scaled} (h : onGrid? x i = some d) :
    Rounds x d.value := by
  simp only [onGrid?] at h
  split at h
  · rename_i hlower hupper
    split at h
    · exact Option.some.inj h ▸ rounds_of_readsBack hlower
    · exact Option.some.inj h ▸ rounds_of_readsBack hupper
  · rename_i hlower _
    exact Option.some.inj h ▸ rounds_of_readsBack hlower
  · rename_i _ hupper
    exact Option.some.inj h ▸ rounds_of_readsBack hupper
  · cases h

/-- Moving factors of ten into the exponent keeps the value. -/
theorem stripZeros_value (steps : Nat) (d : Scaled) : (stripZeros steps d).value = d.value := by
  induction steps generalizing d with
  | zero => rfl
  | succ steps ih =>
      unfold stripZeros
      split
      · rename_i hten
        have hdigits : (d.digits : ℚ) = 10 * (d.digits / 10 : ℕ) := by
          have : d.digits = 10 * (d.digits / 10) := by omega
          exact_mod_cast this
        rw [ih, Scaled.value, Scaled.value, zpow_add_one₀ (by norm_num), hdigits]
        ring
      · rfl

/-- A negative power of two is the same power of ten times a power of five. -/
theorem exactly_value (x : Double) : (exactly x).value = x.magnitude := by
  unfold exactly Scaled.value magnitude
  rw [Nat.shiftLeft_eq, Nat.pow_eq]
  push_cast
  rcases le_total 0 x.exponent with hle | hle
  · have hfive : (-x.exponent).toNat = 0 := by omega
    have htwo : (2 : ℚ) ^ x.exponent.toNat = 2 ^ x.exponent := by
      rw [← zpow_natCast, Int.toNat_of_nonneg hle]
    rw [min_eq_right hle, hfive, htwo]
    ring
  · have htwo : x.exponent.toNat = 0 := by omega
    have hfive : (5 : ℚ) ^ (-x.exponent).toNat * 5 ^ x.exponent = 1 := by
      rw [← zpow_natCast, Int.toNat_of_nonneg (by omega), ← zpow_add₀ (by norm_num), neg_add_cancel,
        zpow_zero]
    rw [min_eq_left hle, htwo, pow_zero, mul_one]
    calc (x.significand : ℚ) * 5 ^ (-x.exponent).toNat * 10 ^ x.exponent
        = x.significand * 5 ^ (-x.exponent).toNat * (5 * 2) ^ x.exponent := by norm_num
      _ = x.significand * 2 ^ x.exponent * (5 ^ (-x.exponent).toNat * 5 ^ x.exponent) := by
          rw [mul_zpow]
          ring
      _ = x.significand * 2 ^ x.exponent := by rw [hfive, mul_one]

/-- The shortest decimal of a double lies in the interval of what rounds to it. -/
theorem rounds_shortest {x : Double} (hx : x.significand ≠ 0) : Rounds x (shortest x).value := by
  unfold shortest
  rw [if_neg hx]
  simp only
  rw [stripZeros_value]
  cases hfound : (List.range 17).findSome? fun n => onGrid? x (decimalOrder x - (n + 1 : Nat)) with
  | none =>
      rw [Option.getD_none, exactly_value]
      exact rounds_magnitude x
  | some d =>
      obtain ⟨n, _, hgrid⟩ := List.exists_of_findSome?_eq_some hfound
      rw [Option.getD_some]
      exact rounds_of_onGrid? hgrid

end RespMux.Decimal
