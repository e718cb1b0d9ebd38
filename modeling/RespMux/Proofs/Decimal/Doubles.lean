import RespMux.Proofs.Decimal.Readback
import RespMux.Proofs.Double.Arithmetic

/-!
# Doubles keep their value

The text of a double is chosen on its bits: comparisons with limits that are doubles themselves, and
a look at what stands after the point (`rendered`). Exact values decide the same way
(`rendered_eq_doubleText`). Whichever text it is, it is read back as the same double, bit by bit; only
a negative zero comes back as the positive one (`readDouble?_doubleText`).
-/

set_option autoImplicit false

namespace RespMux.Decimal

open Double

/-! ## The choice of a text -/

/-- Nothing stands after the point and neither limit of the 32-bit range is passed. -/
def isShortWhole (x : Double) : Bool :=
  equals (fract x) zero && le (ofInt Int32.minValue.toInt) x && le x (ofInt Int32.maxValue.toInt)

/-- The double without its sign. -/
def absolute (x : Double) : Double := ofMagnitude false x.magnitudeBits

/-- The text of a double, chosen step by step. -/
def rendered (x : Double) : String :=
  let sign := if x.isNegative then "-" else ""
  if isShortWhole x then intText x.toInt64.toInt
  else if x.isInfinite then if lt zero x then "inf" else "-inf"
  else if le exponentFrom (absolute x)
      || (!equals (absolute x) zero && lt (absolute x) pointFrom) then
    sign ++ exponential (shortest x)
  else if x.isNaN then "NaN"
  else sign ++ positional (shortest x)

/-- Both limits of the 32-bit range are doubles. -/
theorem value_limits :
    (ofInt Int32.minValue.toInt).value = -2147483648
      ∧ (ofInt Int32.maxValue.toInt).value = 2147483647 := by
  have hmin : (ofInt Int32.minValue.toInt).whole? = some (-2147483648) := by decide
  have hmax : (ofInt Int32.maxValue.toInt).whole? = some 2147483647 := by decide
  exact_mod_cast And.intro (whole?_eq_some_iff.mp hmin).2 (whole?_eq_some_iff.mp hmax).2

/-- The integer form is chosen for the whole numbers of the 32-bit range and for nothing else. -/
theorem isShortWhole_iff {x : Double} :
    isShortWhole x = true ↔
      x.isFinite = true ∧ ∃ n : ℤ, x.value = n ∧ -2147483648 ≤ n ∧ n ≤ 2147483647 := by
  obtain ⟨hmin, hmax⟩ := value_limits
  have hminnan : (ofInt Int32.minValue.toInt).isNaN = false := by decide
  have hmaxnan : (ofInt Int32.maxValue.toInt).isNaN = false := by decide
  rw [isShortWhole, Bool.and_eq_true, Bool.and_eq_true, fract_equals_zero_iff, le_iff, le_iff, hmin,
    hmax]
  constructor
  · rintro ⟨⟨⟨hfinite, n, hn⟩, _, _, hlow⟩, _, _, hhigh⟩
    rw [hn] at hlow hhigh
    exact ⟨hfinite, n, hn, by exact_mod_cast hlow, by exact_mod_cast hhigh⟩
  · rintro ⟨hfinite, n, hn, hlow, hhigh⟩
    have hnan := isNaN_of_isFinite hfinite
    rw [hn]
    exact ⟨⟨⟨hfinite, n, rfl⟩, hminnan, hnan, by exact_mod_cast hlow⟩, hnan, hmaxnan,
      by exact_mod_cast hhigh⟩

theorem shortWhole?_eq_some_iff {x : Double} {n : ℤ} :
    shortWhole? x = some n ↔
      x.isFinite = true ∧ x.value = n ∧ -2147483648 ≤ n ∧ n ≤ 2147483647 := by
  have hmin : Int32.minValue.toInt = -2147483648 := by decide
  have hmax : Int32.maxValue.toInt = 2147483647 := by decide
  rw [shortWhole?, Option.filter_eq_some_iff, whole?_eq_some_iff, hmin, hmax, Bool.and_eq_true,
    decide_eq_true_eq, decide_eq_true_eq, and_assoc]

/-- A short whole number is within the 64-bit range, so it is converted to itself. -/
theorem toInt64_of_short {x : Double} {n : ℤ} (h : shortWhole? x = some n) : x.toInt64.toInt = n := by
  obtain ⟨hfinite, hn, hlow, hhigh⟩ := shortWhole?_eq_some_iff.mp h
  obtain ⟨i, rfl⟩ := exists_int64 (n := n) (by omega) (by omega)
  rw [toInt64_of_value (isNaN_of_isFinite hfinite) hn]

/-- The bits and the exact value decide alike. -/
theorem shortWhole?_eq (x : Double) :
    shortWhole? x = if isShortWhole x then some x.toInt64.toInt else none := by
  cases h : shortWhole? x with
  | none =>
      rw [if_neg]
      intro hshort
      obtain ⟨hfinite, n, hn⟩ := isShortWhole_iff.mp hshort
      rw [shortWhole?_eq_some_iff.mpr ⟨hfinite, hn⟩] at h
      cases h
  | some n =>
      obtain ⟨hfinite, hn⟩ := shortWhole?_eq_some_iff.mp h
      rw [if_pos (isShortWhole_iff.mpr ⟨hfinite, n, hn⟩), toInt64_of_short h]

theorem absolute_rank (x : Double) : (absolute x).rank = x.magnitudeBits := by
  rw [absolute, rank, isNegative_ofMagnitude _ x.magnitudeBits_lt,
    magnitudeBits_ofMagnitude _ x.magnitudeBits_lt]
  rfl

theorem absolute_isNaN (x : Double) : (absolute x).isNaN = x.isNaN := by
  rw [absolute, isNaN, magnitudeBits_ofMagnitude _ x.magnitudeBits_lt]
  rfl

/-- The limits of the two layouts are compared as numbers or as bits. -/
theorem isExponential_eq {x : Double} (h : x.isNaN = false) :
    (le exponentFrom (absolute x)
      || (!equals (absolute x) zero && lt (absolute x) pointFrom)) = isExponential x := by
  have hfrom : exponentFrom.rank = exponentFrom.magnitudeBits ∧ exponentFrom.isNaN = false := by decide
  have hpoint : pointFrom.rank = pointFrom.magnitudeBits ∧ pointFrom.isNaN = false := by decide
  have hzero : zero.rank = 0 ∧ zero.isNaN = false := by decide
  simp only [le, lt, equals, absolute_rank, absolute_isNaN, h, hfrom, hpoint, hzero, Bool.not_false,
    Bool.true_and, isExponential, Nat.cast_le, Nat.cast_lt, Nat.cast_eq_zero]
  rfl

theorem lt_zero_of_isInfinite {x : Double} (h : x.isInfinite = true) : lt zero x = !x.isNegative := by
  have hzero : zero.rank = 0 ∧ zero.isNaN = false := by decide
  simp only [isInfinite, beq_iff_eq] at h
  have hnan : x.isNaN = false := by simp [isNaN, h]
  have hrank : x.rank = if x.isNegative then -(infinityBits : ℤ) else infinityBits := by rw [rank, h]
  rw [lt, hzero.1, hzero.2, hnan, hrank]
  cases x.isNegative <;> decide

/-- The text that is chosen step by step is the text of the double. -/
theorem rendered_eq_doubleText (x : Double) : rendered x = doubleText x := by
  unfold rendered doubleText
  rw [shortWhole?_eq]
  by_cases hshort : isShortWhole x = true
  · simp [hshort]
  · simp only [hshort, Bool.false_eq_true, if_false]
    cases hnan : x.isNaN with
    | true =>
        have hinfinite : x.isInfinite = false := by
          simp only [isNaN, decide_eq_true_eq] at hnan
          simp only [isInfinite, beq_eq_false_iff_ne]
          omega
        simp [hinfinite, le, lt, absolute_isNaN, hnan]
    | false =>
        rw [isExponential_eq hnan]
        simp only [Bool.false_eq_true, if_false]
        cases hinfinite : x.isInfinite with
        | true =>
            rw [lt_zero_of_isInfinite hinfinite]
            cases x.isNegative <;> rfl
        | false => rfl

/-! ## Reading a text back -/

/-- A finite double that is not zero has a significand. -/
theorem significand_ne_zero {x : Double} (h : x.magnitudeBits ≠ 0) : x.significand ≠ 0 := by
  intro hzero
  refine h (magnitude_eq_zero_iff.mp ?_)
  rw [magnitude, hzero, Nat.cast_zero, zero_mul]

theorem ofText_sign (negative : Bool) (s : String) :
    Bytes.ofText ((if negative then "-" else "") ++ s)
      = (if negative then [45] else []) ++ Bytes.ofText s := by
  rw [Bytes.ofText_append]
  cases negative <;> rfl

/-- A decimal in the interval of a double is read as this double. -/
theorem readDouble?_signed {x : Double} (h : x.magnitudeBits ≠ 0) (hfinite : x.isFinite = true)
    {bs : Bytes} {v : ℚ} (hspells : Spells bs v) (hv : Rounds x v) :
    readDouble? ((if x.isNegative then [45] else []) ++ bs) = some x := by
  rw [readDouble?_of_spells (significand_ne_zero h) hfinite hspells hv, ofMagnitude_self]

/-- The integer form is read back. -/
theorem readDouble?_intText {x : Double} {n : ℤ} (h : shortWhole? x = some n) :
    readDouble? (Bytes.ofText (intText n)) = some (if x.magnitudeBits = 0 then zero else x) := by
  obtain ⟨hfinite, hn, _⟩ := shortWhole?_eq_some_iff.mp h
  have hmagnitude := natAbs_of_value hn
  rw [ofText_intText]
  split
  · rename_i hzero
    have hn : n = 0 := by
      rw [magnitude_eq_zero_iff.mpr hzero] at hmagnitude
      exact Int.natAbs_eq_zero.mp (by exact_mod_cast hmagnitude.symm)
    rw [hn]
    decide
  · rename_i hne
    have hspells := spells_whole (isDigits_natBytes n.natAbs) Tail.nil
    rw [spelled_natBytes, List.append_nil, zpow_zero, mul_one, ← hmagnitude] at hspells
    have hn0 : n ≠ 0 := by
      rintro rfl
      exact hne (magnitude_eq_zero_iff.mp (by simpa using hmagnitude))
    have hsign : n < 0 ↔ x.isNegative = true := by
      have hpart := signedPart_of_value hn
      have hwhole := (magnitude_eq_natCast_iff.mp hmagnitude).2
      unfold signedPart at hpart
      cases hneg : x.isNegative <;> simp only [hneg, Bool.false_eq_true, if_false, if_true] at hpart
        <;> simp only [Bool.false_eq_true, iff_false, iff_true] <;> omega
    have hbytes : intBytes n = (if x.isNegative then [45] else []) ++ natBytes n.natAbs := by
      rw [intBytes, if_congr hsign rfl rfl]
      cases x.isNegative <;> rfl
    rw [hbytes]
    exact readDouble?_signed hne hfinite hspells (rounds_magnitude x)

/-- A double is read back from its text bit by bit, but for the sign of a zero. -/
theorem readDouble?_doubleText {x : Double} (h : x.isNaN = false) :
    readDouble? (Bytes.ofText (doubleText x))
      = some (if x.magnitudeBits = 0 then zero else x) := by
  unfold doubleText
  cases hshort : shortWhole? x with
  | some n => exact readDouble?_intText hshort
  | none =>
      have hne : x.magnitudeBits ≠ 0 := by
        intro hzero
        have hvalue : x.value = (0 : ℤ) := by
          rw [value, magnitude_eq_zero_iff.mpr hzero, neg_zero, ite_self, Int.cast_zero]
        have hfinite : x.isFinite = true := by
          rw [isFinite, hzero]
          decide
        have hwhole : shortWhole? x = some 0 :=
          shortWhole?_eq_some_iff.mpr ⟨hfinite, hvalue, by decide, by decide⟩
        rw [hshort] at hwhole
        cases hwhole
      simp only [h, Bool.false_eq_true, if_false]
      rw [if_neg hne]
      cases hinfinite : x.isInfinite with
      | true =>
          have hx : x = infinity x.isNegative := by
            simp only [isInfinite, beq_iff_eq] at hinfinite
            rw [infinity, ← hinfinite, ofMagnitude_self]
          rw [if_pos rfl, hx]
          cases x.isNegative <;> decide
      | false =>
          have hfinite : x.isFinite = true := by
            simp only [isNaN, decide_eq_false_iff_not] at h
            simp only [isInfinite, beq_eq_false_iff_ne] at hinfinite
            simp only [isFinite, decide_eq_true_eq]
            omega
          have hrounds := rounds_shortest (significand_ne_zero hne)
          have hshortest := short_shortest x
          rw [if_neg Bool.false_ne_true]
          split
          · rw [ofText_sign]
            refine readDouble?_signed hne hfinite (spells_exponential ?_) hrounds
            have := hshortest.digits
            have := hshortest.low
            have := hshortest.high
            omega
          · rw [ofText_sign]
            exact readDouble?_signed hne hfinite (spells_positional _) hrounds

/-- Doubles keep their value on the way to the server and back. The integer form is chosen for the
whole numbers of the 32-bit range and for nothing else. It is then the exact value that is converted,
and the same integer that is read from the text. Every double but NaN is read from its text as a number
equal to it, and as the same bits unless it is a zero. -/
theorem double_value_kept (x : Double) :
    rendered x = doubleText x
      ∧ (shortWhole? x = if isShortWhole x then some x.toInt64.toInt else none)
      ∧ (isShortWhole x = true ↔
          x.isFinite = true ∧ ∃ n : ℤ, x.value = n ∧ -2147483648 ≤ n ∧ n ≤ 2147483647)
      ∧ (isShortWhole x = true →
          (x.toInt64.toInt : ℚ) = x.value ∧ doubleText x = intText x.toInt64.toInt
            ∧ integerLine? (Bytes.ofText (doubleText x)) = .ok x.toInt64)
      ∧ (x.isNaN = false →
          ∃ y, Reply.toDouble (.bulk (some (Bytes.ofText (doubleText x)))) = .ok y
            ∧ equals y x = true ∧ (x.magnitudeBits ≠ 0 → y = x)) := by
  refine ⟨rendered_eq_doubleText x, shortWhole?_eq x, isShortWhole_iff, fun hshort => ?_, fun hnan => ?_⟩
  · have hwhole := shortWhole?_eq x
    rw [if_pos hshort] at hwhole
    have htext : doubleText x = intText x.toInt64.toInt := by
      rw [doubleText, hwhole]
    refine ⟨(shortWhole?_eq_some_iff.mp hwhole).2.1.symm, htext, ?_⟩
    rw [htext, ofText_intText, integerLine?_eq_ok_iff, readInteger?_eq_some_iff]
    exact numeral_intBytes _
  · have hread := readDouble?_doubleText hnan
    refine ⟨if x.magnitudeBits = 0 then zero else x, ?_, ?_, fun hne => if_neg hne⟩
    · show Reply.doubleOf _ = _
      rw [Reply.doubleOf, hread]
    · split
      · rename_i hzero
        obtain ⟨_, hnumber, hvalue⟩ := equals_iff.mp (equals_zero_iff.mpr hzero)
        exact equals_iff.mpr ⟨hnumber, hnan, hvalue.symm⟩
      · exact equals_iff.mpr ⟨hnan, hnan, rfl⟩

/-- The least short whole number, and the smallest double above zero. -/
theorem double_value_kept_least :
    integerLine? (Bytes.ofText "-2147483648") = .ok (-2147483648)
      ∧ ∃ y, Reply.toDouble (.bulk (some (Bytes.ofText "5e-324"))) = .ok y
          ∧ equals y ⟨1⟩ = true ∧ y = ⟨1⟩ := by
  have hleast := ((double_value_kept ⟨0xC1E0000000000000⟩).2.2.2.1 (by decide +kernel)).2.2
  have hwhole : doubleText ⟨0xC1E0000000000000⟩ = "-2147483648" := by decide +kernel
  have hinteger : toInt64 ⟨0xC1E0000000000000⟩ = -2147483648 := by decide +kernel
  rw [hwhole, hinteger] at hleast
  obtain ⟨y, hread, hequals, hbits⟩ := (double_value_kept ⟨1⟩).2.2.2.2 (by decide)
  have htext : doubleText ⟨1⟩ = "5e-324" := by decide +kernel
  rw [htext] at hread
  exact ⟨hleast, y, hread, hequals, hbits (by decide)⟩

end RespMux.Decimal
