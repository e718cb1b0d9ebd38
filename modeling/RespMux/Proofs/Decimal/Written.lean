import Mathlib.Data.List.Basic
import Mathlib.Data.Nat.Digits.Defs
import RespMux.Decimal.Layout
import RespMux.Proofs.Decimal.Numerals

/-!
# What numbers are written as

The digits that are written for a number spell this number, so an integer is written as one of the
numerals that it is read from. Bytes and text agree: a number is shown by the characters whose bytes
travel. And no number is long: whatever double it is, its text has a few thousand characters at
most, a bound that is far from tight but all that the length of a bulk string needs.
-/

set_option autoImplicit false

namespace RespMux.Decimal

/-! ## Digits -/

theorem encode_digit {c : Char} (h : c.isDigit = true) :
    String.utf8EncodeChar c = [UInt8.ofNat c.toNat] := by
  have hnine : c.val.toNat ≤ 57 := by
    simp only [Char.isDigit, Bool.and_eq_true, decide_eq_true_eq] at h
    exact UInt32.le_iff_toNat_le.mp h.2
  exact if_pos (by omega)

theorem isDigit_ofNat {c : Char} (h : c.isDigit = true) :
    isDigit (UInt8.ofNat c.toNat) = true ∧ digitValue (UInt8.ofNat c.toNat) = c.toNat - 48 := by
  have hrange : 48 ≤ c.toNat ∧ c.toNat ≤ 57 := by
    simp only [Char.isDigit, Bool.and_eq_true, decide_eq_true_eq] at h
    exact ⟨UInt32.le_iff_toNat_le.mp h.1, UInt32.le_iff_toNat_le.mp h.2⟩
  have hbyte : (UInt8.ofNat c.toNat).toNat = c.toNat :=
    UInt8.toNat_ofNat_of_lt (Nat.lt_of_le_of_lt hrange.2 (by decide))
  constructor
  · simp only [isDigit, Bool.and_eq_true, decide_eq_true_eq, UInt8.le_iff_toNat_le, hbyte]
    exact hrange
  · rw [digitValue, hbyte]

theorem isDigit_of_mem_toDigits {n : Nat} {c : Char} (h : c ∈ Nat.toDigits 10 n) :
    c.isDigit = true :=
  Nat.isDigit_of_mem_toDigits (by omega) (Nat.le_refl 10) h

theorem isDigits_natBytes (n : Nat) : IsDigits (natBytes n) := by
  constructor
  · intro h
    exact Nat.toDigits_ne_nil (List.map_eq_nil_iff.mp h)
  · intro b hb
    obtain ⟨c, hc, rfl⟩ := List.mem_map.mp hb
    exact (isDigit_ofNat (isDigit_of_mem_toDigits hc)).1

/-- The digits that are written for a number spell it. -/
theorem spelled_natBytes (n : Nat) : spelled (natBytes n) = n := by
  have hfold : spelled (natBytes n) = Nat.ofDigitChars 10 (Nat.toDigits 10 n) 0 := by
    rw [spelled, natBytes, List.foldl_map]
    refine List.foldl_ext _ _ _ fun m c hc => ?_
    rw [(isDigit_ofNat (isDigit_of_mem_toDigits hc)).2]
    rfl
  rw [hfold, Nat.ofDigitChars_ten_toDigits]

/-! ## Integers -/

theorem numeral_natBytes (n : Nat) : Numeral (natBytes n) n := by
  have h := Numeral.digits (isDigits_natBytes n)
  rwa [spelled_natBytes] at h

/-- An integer is written as a numeral of its value. -/
theorem numeral_intBytes (n : Int) : Numeral (intBytes n) n := by
  unfold intBytes
  split
  · have h := Numeral.minus (isDigits_natBytes n.natAbs)
    rw [spelled_natBytes] at h
    have hn : -(n.natAbs : Int) = n := by omega
    rwa [hn] at h
  · have h := numeral_natBytes n.natAbs
    have hn : (n.natAbs : Int) = n := by omega
    rwa [hn] at h

theorem ofText_natText (n : Nat) : Bytes.ofText (natText n) = natBytes n := by
  rw [Bytes.ofText, natText, natBytes, String.toList_ofList, List.map_eq_flatMap]
  exact List.flatMap_congr fun c hc => encode_digit (isDigit_of_mem_toDigits hc)

/-- An integer is shown as it is written. -/
theorem ofText_intText (n : Int) : Bytes.ofText (intText n) = intBytes n := by
  unfold intText intBytes
  split
  · rw [Bytes.ofText_append, ofText_natText]
    rfl
  · exact ofText_natText _

/-! ## Length of a text -/

/-- A character takes four bytes at most. -/
theorem ofText_length_le (s : String) : (Bytes.ofText s).length ≤ 4 * s.length := by
  rw [Bytes.ofText, ← String.length_toList]
  induction s.toList with
  | nil => exact Nat.le_refl 0
  | cons c cs ih =>
      have hc := Char.utf8Size_le_four c
      rw [← String.length_utf8EncodeChar] at hc
      rw [List.flatMap_cons, List.length_append, List.length_cons]
      omega

theorem natText_length_le {n k : Nat} (hk : 0 < k) (h : n < 10 ^ k) : (natText n).length ≤ k := by
  rw [natText, String.length_ofList]
  exact Nat.toDigits_length 10 n k hk h

theorem intText_length_le {n : Int} {k : Nat} (hk : 0 < k) (h : n.natAbs < 10 ^ k) :
    (intText n).length ≤ k + 1 := by
  have hnat := natText_length_le hk h
  unfold intText
  split
  · rw [String.length_append]
    have : ("-" : String).length = 1 := rfl
    omega
  · omega

/-! ## Length of a double -/

theorem exponent_range (x : Double) : -1074 ≤ x.exponent ∧ x.exponent ≤ 972 := by
  have hfield : x.exponentField < 2048 := by
    unfold Double.exponentField Double.magnitudeBits Double.signBit Double.leadingBit
    omega
  unfold Double.exponent
  omega

theorem significand_lt (x : Double) : x.significand < 2 ^ 53 := by
  have hfraction : x.fraction < Double.leadingBit := Nat.mod_lt _ (by decide)
  have hleading : Double.leadingBit = 2 ^ 52 := by decide
  unfold Double.significand
  split <;> omega

theorem leastAbove_range (x : Double) (steps : Nat) (k : Int) :
    k ≤ leastAbove x steps k ∧ leastAbove x steps k ≤ k + steps := by
  induction steps generalizing k with
  | zero => exact ⟨Int.le_refl k, by simp [leastAbove]⟩
  | succ steps ih =>
      have hnext := ih (k + 1)
      unfold leastAbove
      split <;> omega

theorem decimalOrder_range (x : Double) : -330 ≤ decimalOrder x ∧ decimalOrder x ≤ 320 := by
  obtain ⟨hlow, hhigh⟩ := exponent_range x
  have hlog : x.significand.log2 < 53 := by
    by_cases hzero : x.significand = 0
    · rw [hzero, Nat.log2_zero]
      decide
    · exact (Nat.log2_lt hzero).mpr (significand_lt x)
  have hsteps := leastAbove_range x 4 (((x.significand.log2 : Int) + x.exponent) * 1233 / 4096 - 1)
  unfold decimalOrder
  omega

theorem shiftLeft_lt {n factor k shift : Nat} (hn : n < 2 ^ 53) (hfactor : factor ≤ 10 ^ k) :
    (n * factor) <<< shift < 10 ^ (53 + k + shift) := by
  have hten : n < 10 ^ 53 := Nat.lt_of_lt_of_le hn (Nat.pow_le_pow_left (by decide) 53)
  have hpos : 0 < 10 ^ k * 10 ^ shift := Nat.mul_pos (Nat.pow_pos (by decide)) (Nat.pow_pos (by decide))
  calc (n * factor) <<< shift
      = n * (factor * 2 ^ shift) := by rw [Nat.shiftLeft_eq, Nat.mul_assoc]
    _ ≤ n * (10 ^ k * 10 ^ shift) :=
        Nat.mul_le_mul_left n (Nat.mul_le_mul hfactor (Nat.pow_le_pow_left (by decide) shift))
    _ < 10 ^ 53 * (10 ^ k * 10 ^ shift) := Nat.mul_lt_mul_of_pos_right hten hpos
    _ = 10 ^ (53 + k + shift) := by rw [Nat.pow_add, Nat.pow_add, Nat.mul_assoc]

theorem floorOnGrid_lt (x : Double) (i : Int) :
    floorOnGrid x i < 10 ^ (53 + (-i).toNat + x.exponent.toNat) :=
  Nat.lt_of_le_of_lt (Nat.div_le_self _ _) (shiftLeft_lt (significand_lt x) (Nat.le_refl _))

theorem onGrid?_eq_some {x : Double} {i : Int} {d : Scaled} (h : onGrid? x i = some d) :
    d = ⟨floorOnGrid x i, i⟩ ∨ d = ⟨floorOnGrid x i + 1, i⟩ := by
  simp only [onGrid?] at h
  split at h
  · split at h
    · exact .inl (Option.some.inj h).symm
    · exact .inr (Option.some.inj h).symm
  · exact .inl (Option.some.inj h).symm
  · exact .inr (Option.some.inj h).symm
  · cases h

theorem toDigits_length_le {n k bound : Nat} (hn : n < 10 ^ k) (hk : 0 < k) (hbound : k ≤ bound) :
    (Nat.toDigits 10 n).length ≤ bound :=
  Nat.le_trans (Nat.toDigits_length 10 n k hk hn) hbound

theorem toDigits_div_length_le (n : Nat) :
    (Nat.toDigits 10 (n / 10)).length ≤ (Nat.toDigits 10 n).length := by
  rw [Nat.toDigits_eq_if (n := n) (by decide)]
  split
  · rename_i hn
    rw [Nat.div_eq_of_lt hn]
    exact Nat.le_refl 1
  · rw [List.length_append]
    exact Nat.le_add_right _ _

/-- A decimal with at most 2200 digits and an exponent from -1100 up to a bound. -/
structure Scaled.Short (bound : Nat) (d : Scaled) : Prop where
  digits : (Nat.toDigits 10 d.digits).length ≤ 2200
  low : -1100 ≤ d.exponent
  high : d.exponent ≤ bound

theorem short_of_onGrid? {x : Double} {i : Int} {d : Scaled} (hlow : -400 ≤ i) (hhigh : i ≤ 400)
    (h : onGrid? x i = some d) : d.Short 400 := by
  have hexponent := exponent_range x
  have hfloor := floorOnGrid_lt x i
  have hlong : -1100 ≤ i := by omega
  obtain rfl | rfl := onGrid?_eq_some h
  · exact ⟨toDigits_length_le hfloor (by omega) (by omega), hlong, hhigh⟩
  · have hnext := Nat.lt_of_le_of_lt (Nat.succ_le_of_lt hfloor)
      (Nat.pow_lt_pow_right (by decide) (Nat.lt_succ_self _))
    exact ⟨toDigits_length_le hnext (by omega) (by omega), hlong, hhigh⟩

theorem short_exactly (x : Double) : (exactly x).Short 400 := by
  have hexponent := exponent_range x
  have hpow : Nat.pow 5 (-x.exponent).toNat ≤ 10 ^ (-x.exponent).toNat :=
    Nat.pow_le_pow_left (by decide) _
  refine ⟨toDigits_length_le (shiftLeft_lt (significand_lt x) hpow) (by omega) (by omega), ?_, ?_⟩
  · show -1100 ≤ min x.exponent 0
    omega
  · show min x.exponent 0 ≤ 400
    omega

/-- Stripping zeros takes digits away and moves the exponent up by one in each step. -/
theorem Scaled.Short.stripZeros (steps : Nat) {bound : Nat} {d : Scaled} (h : d.Short bound) :
    (stripZeros steps d).Short (bound + steps) := by
  induction steps generalizing bound d with
  | zero => exact h
  | succ steps ih =>
      have hhigh := h.high
      unfold Decimal.stripZeros
      split
      · have hnext : Scaled.Short (bound + 1) ⟨d.digits / 10, d.exponent + 1⟩ :=
          ⟨Nat.le_trans (toDigits_div_length_le d.digits) h.digits, Int.le_add_one h.low, by
            show d.exponent + 1 ≤ _
            omega⟩
        have hrest := ih hnext
        rwa [Nat.add_right_comm] at hrest
      · exact ⟨h.digits, h.low, by omega⟩

/-- The shortest decimal of any double. -/
theorem short_shortest (x : Double) : (shortest x).Short 1200 := by
  have horder := decimalOrder_range x
  unfold shortest
  split
  · exact ⟨by decide, by decide, by decide⟩
  · refine Scaled.Short.stripZeros 800 ?_
    cases hfound : (List.range 17).findSome? fun n => onGrid? x (decimalOrder x - (n + 1 : Nat)) with
    | none => exact short_exactly x
    | some d =>
        obtain ⟨n, hmem, hgrid⟩ := List.exists_of_findSome?_eq_some hfound
        have hn := List.mem_range.mp hmem
        exact short_of_onGrid? (by omega) (by omega) hgrid

theorem Scaled.Short.positional_length_le {d : Scaled} (h : d.Short 1200) :
    (positional d).length ≤ 5000 := by
  have hdigits := h.digits
  have hlow := h.low
  have hhigh := h.high
  unfold Decimal.positional
  split
  · simp only [String.length_ofList, List.length_append, List.length_replicate]
    omega
  · simp only [String.length_ofList, List.length_append, List.length_take, List.length_cons,
      List.length_drop, List.length_replicate]
    omega

theorem Scaled.Short.exponential_length_le {d : Scaled} (h : d.Short 1200) :
    (exponential d).length ≤ 5000 := by
  have hdigits := h.digits
  have hlow := h.low
  have hhigh := h.high
  have horder : (intText (d.exponent + ((Nat.toDigits 10 d.digits).length - 1 : Nat))).length ≤ 5 :=
    intText_length_le (k := 4) (by decide) (by omega)
  have he : ("e" : String).length = 1 := rfl
  unfold Decimal.exponential
  simp only [String.length_ofList, String.length_append, List.length_append, List.length_take]
  split
  · simp only [List.length_nil]
    omega
  · simp only [List.length_cons, List.length_drop]
    omega

theorem shortWhole?_range {x : Double} {n : Int} (h : shortWhole? x = some n) :
    -2147483648 ≤ n ∧ n ≤ 2147483647 := by
  have hrange := Option.filter_eq_some_iff.mp h |>.2
  simp only [Bool.and_eq_true, decide_eq_true_eq] at hrange
  exact hrange

/-- The text of a double is not long. -/
theorem doubleText_length_le (x : Double) : (doubleText x).length ≤ 5001 := by
  unfold doubleText
  split
  · rename_i n hn
    have hrange := shortWhole?_range hn
    have := intText_length_le (n := n) (k := 10) (by decide) (by omega)
    omega
  · have hsign : (if x.isNegative then "-" else "").length ≤ 1 := by
      split <;> decide
    have hinf : ("inf" : String).length = 3 := rfl
    have hexponential := (short_shortest x).exponential_length_le
    have hpositional := (short_shortest x).positional_length_le
    simp only
    generalize (if x.isNegative then "-" else "") = sign at hsign ⊢
    split
    · decide
    · simp only [apply_ite String.length, String.length_append]
      split
      · omega
      · split <;> omega

end RespMux.Decimal
