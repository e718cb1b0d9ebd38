import RespMux.Decimal.Layout
import RespMux.Decimal.Reading
import RespMux.Proofs.Decimal.Bounded
import RespMux.Proofs.Double.Rounding

/-!
# Decimals read back

The text of a decimal is read as the number that the decimal stands for: its digits are gathered from
both sides of the point, and the exponent in the text makes up for the place of the point
(`spells_positional`, `spells_exponential`). The double that is found for this number is the one in
whose interval it lies (`readDouble?_of_spells`).
-/

set_option autoImplicit false

namespace RespMux.Decimal

open Double

/-! ## Digits in front -/

/-- The leading digits end where something else begins. -/
theorem spanDigits_append {ds rest : Bytes} (hds : ∀ b ∈ ds, isDigit b = true)
    (hrest : ∀ b ∈ rest.head?, isDigit b = false) :
    spanDigits (ds ++ rest) = (ds.map digitValue, rest) := by
  unfold spanDigits
  rw [List.takeWhile_append_of_pos hds, List.dropWhile_append_of_pos hds]
  cases rest with
  | nil => simp
  | cons b rest =>
      have hb : isDigit b = false := hrest b rfl
      simp [hb]

theorem spelled_append (front back : Bytes) :
    spelled (front ++ back) = spelled front * 10 ^ back.length + spelled back := by
  have hfrom (n : Nat) : back.foldl (fun n b => 10 * n + digitValue b) n
      = n * 10 ^ back.length + spelled back := by
    unfold spelled
    induction back using List.reverseRecOn with
    | nil => simp
    | append_singleton back b ih =>
        simp only [List.foldl_append, List.foldl_cons, List.foldl_nil, ih, List.length_append,
          List.length_singleton, Nat.pow_succ]
        ring
  rw [← hfrom]
  exact List.foldl_append

theorem spelled_zeros (k : Nat) : spelled (List.replicate k 48) = 0 := by
  induction k with
  | zero => rfl
  | succ k ih => exact ih

/-! ## The size of a number -/

theorem number_eq_foldl (ds : List Nat) : number ds = ds.foldl (fun n d => 10 * n + d) 0 := by
  rw [number_eq, ofDigits_eq_foldr, List.foldr_reverse]

theorem number_dropWhile (ds : List Nat) : number (ds.dropWhile (· == 0)) = number ds := by
  simp only [number_eq_foldl]
  induction ds with
  | nil => rfl
  | cons d ds ih =>
      by_cases hd : d = 0
      · rw [hd, List.dropWhile_cons_of_pos rfl, ih]
        rfl
      · rw [List.dropWhile_cons_of_neg (by simpa using hd)]

theorem foldl_digits_bounds {ds : List Nat} (hds : ∀ d ∈ ds, d ≤ 9) (n : Nat) :
    n * 10 ^ ds.length ≤ ds.foldl (fun n d => 10 * n + d) n
      ∧ ds.foldl (fun n d => 10 * n + d) n < (n + 1) * 10 ^ ds.length := by
  induction ds generalizing n with
  | nil => simp
  | cons d ds ih =>
      obtain ⟨hd, hrest⟩ := List.forall_mem_cons.mp hds
      obtain ⟨hlow, hhigh⟩ := ih hrest (10 * n + d)
      have hpow : 10 ^ (ds.length + 1) = 10 * 10 ^ ds.length := by rw [Nat.pow_succ, Nat.mul_comm]
      rw [List.foldl_cons, List.length_cons, hpow]
      constructor
      · calc n * (10 * 10 ^ ds.length)
            = 10 * n * 10 ^ ds.length := by ring
          _ ≤ (10 * n + d) * 10 ^ ds.length := Nat.mul_le_mul_right _ (Nat.le_add_right _ _)
          _ ≤ _ := hlow
      · calc ds.foldl (fun n d => 10 * n + d) (10 * n + d)
            < (10 * n + d + 1) * 10 ^ ds.length := hhigh
          _ ≤ 10 * (n + 1) * 10 ^ ds.length := Nat.mul_le_mul_right _ (by omega)
          _ = (n + 1) * (10 * 10 ^ ds.length) := by ring

/-- Without leading zeros the count of the digits says how large the number is. -/
theorem number_bounds {d : Nat} {ds : List Nat} (hd : d ≠ 0) (hds : ∀ d' ∈ d :: ds, d' ≤ 9) :
    10 ^ ds.length ≤ number (d :: ds) ∧ number (d :: ds) < 10 ^ (ds.length + 1) := by
  obtain ⟨hfirst, hrest⟩ := List.forall_mem_cons.mp hds
  obtain ⟨hlow, hhigh⟩ := foldl_digits_bounds hrest d
  have hnumber : number (d :: ds) = ds.foldl (fun n d => 10 * n + d) d := by
    simp [number_eq_foldl]
  rw [hnumber]
  constructor
  · calc 10 ^ ds.length
        = 1 * 10 ^ ds.length := (Nat.one_mul _).symm
      _ ≤ d * 10 ^ ds.length := Nat.mul_le_mul_right _ (Nat.one_le_iff_ne_zero.mpr hd)
      _ ≤ _ := hlow
  · calc ds.foldl (fun n d => 10 * n + d) d
        < (d + 1) * 10 ^ ds.length := hhigh
      _ ≤ 10 * 10 ^ ds.length := Nat.mul_le_mul_right _ (by omega)
      _ = 10 ^ (ds.length + 1) := by rw [Nat.pow_succ, Nat.mul_comm]

/-- With an exponent, the count of the digits and the exponent together say how large it is. -/
theorem scaled_bounds {d : Nat} {ds : List Nat} (hd : d ≠ 0) (hds : ∀ d' ∈ d :: ds, d' ≤ 9) (e : ℤ) :
    (10 : ℚ) ^ ((ds.length : ℤ) + 1 + e - 1) ≤ number (d :: ds) * 10 ^ e
      ∧ (number (d :: ds) : ℚ) * 10 ^ e < 10 ^ ((ds.length : ℤ) + 1 + e) := by
  obtain ⟨hlow, hhigh⟩ := number_bounds hd hds
  have hten := zpow_pos (show (0 : ℚ) < 10 by norm_num) e
  constructor
  · have hcast : (10 : ℚ) ^ ds.length ≤ number (d :: ds) := by exact_mod_cast hlow
    rw [show (ds.length : ℤ) + 1 + e - 1 = ds.length + e by ring, zpow_add₀ (by norm_num),
      zpow_natCast]
    exact mul_le_mul_of_nonneg_right hcast hten.le
  · have hcast : (number (d :: ds) : ℚ) < 10 ^ (ds.length + 1) := by exact_mod_cast hhigh
    rw [zpow_add₀ (by norm_num), ← Nat.cast_succ, zpow_natCast]
    exact mul_lt_mul_of_pos_right hcast hten

/-! ## The nearest double -/

/-- A number in the range of doubles does not have so many places that its power is left out. -/
theorem order_bounds {v : ℚ} (hrange : (2 : ℚ) ^ (-1076 : ℤ) ≤ v ∧ v < 2 ^ (1024 : ℤ)) {order : ℤ}
    (hlow : (10 : ℚ) ^ (order - 1) ≤ v) (hhigh : v < (10 : ℚ) ^ order) :
    -330 ≤ order ∧ order ≤ 310 := by
  have hsmall : (10 : ℚ) ^ (-331 : ℤ) ≤ 2 ^ (-1076 : ℤ) := by
    have hpow : 2 ^ 1076 ≤ 10 ^ 331 := by decide +kernel
    have hcast : (2 : ℚ) ^ 1076 ≤ 10 ^ 331 := by exact_mod_cast hpow
    rw [zpow_neg, zpow_neg]
    exact inv_anti₀ (by positivity) hcast
  have hlarge : (2 : ℚ) ^ (1024 : ℤ) ≤ 10 ^ (310 : ℤ) := by
    have hpow : 2 ^ 1024 ≤ 10 ^ 310 := by decide +kernel
    have hcast : (2 : ℚ) ^ 1024 ≤ 10 ^ 310 := by exact_mod_cast hpow
    exact hcast
  constructor
  · have hlt : (10 : ℚ) ^ (-331 : ℤ) < 10 ^ order := (hsmall.trans hrange.1).trans_lt hhigh
    rw [zpow_lt_zpow_iff_right₀ (by norm_num)] at hlt
    omega
  · have hlt : (10 : ℚ) ^ (order - 1) < 10 ^ (310 : ℤ) := hlow.trans_lt (hrange.2.trans_le hlarge)
    rw [zpow_lt_zpow_iff_right₀ (by norm_num)] at hlt
    omega

/-- The double nearest to a number is the one in whose interval the number lies. -/
theorem nearest_of_rounds {x : Double} (hx : x.significand ≠ 0) (hfinite : x.isFinite = true)
    {ds : List Nat} (hds : ∀ d ∈ ds, d ≤ 9) {e : ℤ} (h : Rounds x (number ds * 10 ^ e))
    (negative : Bool) : nearest negative ds e = ofMagnitude negative x.magnitudeBits := by
  have hpos := h.pos hx
  have hrange := h.range hx hfinite
  have hnumber := number_dropWhile ds
  have hdigits : ∀ d ∈ ds.dropWhile (· == 0), d ≤ 9 := fun d hd =>
    hds d ((List.dropWhile_sublist _).mem hd)
  have hhead := List.head?_dropWhile_not (· == 0) ds
  rw [← hnumber] at h hpos hrange
  unfold nearest
  simp only
  generalize ds.dropWhile (· == 0) = kept at *
  cases kept with
  | nil =>
      have hzero : number [] = 0 := rfl
      rw [hzero, Nat.cast_zero, zero_mul] at hpos
      exact absurd hpos (lt_irrefl 0)
  | cons d kept =>
      have hd : d ≠ 0 := by simpa using hhead
      obtain ⟨hleast, hmost⟩ := scaled_bounds hd hdigits e
      have horder := order_bounds hrange hleast hmost
      have hlength : ((d :: kept).length : ℤ) = kept.length + 1 := by simp
      rw [hlength, if_neg (not_or.mpr ⟨List.cons_ne_nil d kept, by omega⟩), if_neg (by omega)]
      have hden : 0 < Nat.pow 10 (-e).toNat := Nat.pow_pos (by decide)
      have hratio : ((number (d :: kept) * Nat.pow 10 e.toNat : ℕ) : ℚ) / (Nat.pow 10 (-e).toNat : ℕ)
          = number (d :: kept) * 10 ^ e := by
        rw [zpow_eq_div (by norm_num) e, Nat.pow_eq, Nat.pow_eq]
        push_cast
        rw [mul_div_assoc]
      exact ofRatio_of_rounds hx hfinite hden (hratio ▸ h) negative

/-! ## Signs -/

theorem IsDigits.exists_cons {ds : Bytes} (h : IsDigits ds) :
    ∃ b rest, ds = b :: rest ∧ isDigit b = true := by
  cases ds with
  | nil => exact absurd rfl h.1
  | cons b rest => exact ⟨b, rest, rfl, h.2 b List.mem_cons_self⟩

theorem IsDigits.exists_values {ds : Bytes} (h : IsDigits ds) :
    ∃ d rest, ds.map digitValue = d :: rest := by
  obtain ⟨b, rest, rfl, _⟩ := h.exists_cons
  exact ⟨_, _, rfl⟩

/-- Whether there is a minus sign in front, and what follows the sign if there is one. -/
def sign : Bytes → Bool × Bytes
  | 45 :: rest => (true, rest)
  | 43 :: rest => (false, rest)
  | rest => (false, rest)

theorem sign_digit {b : UInt8} (h : isDigit b = true) (rest : Bytes) :
    sign (b :: rest) = (false, b :: rest) := by
  unfold sign
  split
  · rename_i heq
    obtain ⟨rfl, _⟩ := List.cons.inj heq
    exact absurd h (by decide)
  · rename_i heq
    obtain ⟨rfl, _⟩ := List.cons.inj heq
    exact absurd h (by decide)
  · rfl

theorem sign_of_isDigits {ds : Bytes} (h : IsDigits ds) : sign ds = (false, ds) := by
  obtain ⟨b, rest, rfl, hb⟩ := h.exists_cons
  exact sign_digit hb rest

theorem readDouble?_eq (bs : Bytes) :
    readDouble? bs
      = (word? (sign bs).1 (sign bs).2).orElse fun _ => decimal? (sign bs).1 (sign bs).2 := rfl

theorem exponent?_mark {mark : UInt8} (h : lowerByte mark = 101) (bs : Bytes) :
    exponent? (mark :: bs) =
      match spanDigits (sign bs).2 with
      | ([], _) => none
      | (ds, []) => some (if (sign bs).1 then -(exponentOf ds : ℤ) else exponentOf ds)
      | (_, _ :: _) => none :=
  if_neg (not_not.mpr h)

/-! ## What a text spells -/

/-- The bytes are a decimal without a sign that stands for the number. -/
structure Spells (bs : Bytes) (v : ℚ) : Prop where
  digit : ∃ b rest, bs = b :: rest ∧ isDigit b = true
  reads : ∃ (ds : Bytes) (e : ℤ), (∀ b ∈ ds, isDigit b = true) ∧ (spelled ds : ℚ) * 10 ^ e = v
    ∧ ∀ negative, decimal? negative bs = some (nearest negative (ds.map digitValue) e)

theorem lowerByte_digit {b : UInt8} (h : isDigit b = true) : lowerByte b = b := by
  have hhigh := (isDigit_range h).2
  rw [lowerByte, if_neg]
  rintro ⟨hupper, _⟩
  have hletter : 65 ≤ b.toNat := UInt8.le_iff_toNat_le.mp hupper
  omega

/-- No word begins with a digit. -/
theorem word?_digit {b : UInt8} (h : isDigit b = true) (rest : Bytes) (negative : Bool) :
    word? negative (b :: rest) = none := by
  have hi : b ≠ 105 := by
    rintro rfl
    exact absurd h (by decide)
  have hn : b ≠ 110 := by
    rintro rfl
    exact absurd h (by decide)
  have hinf : Bytes.ofText "inf" = [105, 110, 102] := by decide
  have hinfinity : Bytes.ofText "infinity" = [105, 110, 102, 105, 110, 105, 116, 121] := by decide
  have hnan : Bytes.ofText "nan" = [110, 97, 110] := by decide
  simp only [word?, List.map_cons, lowerByte_digit h, hinf, hinfinity, hnan]
  rw [if_neg, if_neg]
  · rintro heq
    exact hn (List.cons.inj heq).1
  · rintro (heq | heq) <;> exact hi (List.cons.inj heq).1

/-- A spelled number with or without a minus sign is read as the double in whose interval it lies. -/
theorem readDouble?_of_spells {x : Double} (hx : x.significand ≠ 0) (hfinite : x.isFinite = true)
    {bs : Bytes} {v : ℚ} (h : Spells bs v) (hv : Rounds x v) (negative : Bool) :
    readDouble? ((if negative then [45] else []) ++ bs)
      = some (ofMagnitude negative x.magnitudeBits) := by
  obtain ⟨b, rest, rfl, hb⟩ := h.digit
  obtain ⟨ds, e, hds, hvalue, hdecimal⟩ := h.reads
  have hsmall : ∀ d ∈ ds.map digitValue, d ≤ 9 := by
    intro d hd
    obtain ⟨b, hmem, rfl⟩ := List.mem_map.mp hd
    exact digitValue_le (hds b hmem)
  have hnearest : nearest negative (ds.map digitValue) e = ofMagnitude negative x.magnitudeBits := by
    refine nearest_of_rounds hx hfinite hsmall ?_ negative
    rw [number_map_digitValue, hvalue]
    exact hv
  have hsign : sign ((if negative then [45] else []) ++ b :: rest) = (negative, b :: rest) := by
    cases negative with
    | true => rfl
    | false => exact sign_digit hb rest
  rw [readDouble?_eq, hsign, word?_digit hb, hdecimal, hnearest]
  rfl

/-! ## The shapes of a decimal -/

/-- What follows the digits of a decimal, and the exponent that it adds. -/
structure Tail (tail : Bytes) (k : ℤ) : Prop where
  exponent : exponent? tail = some k
  ends : ∀ b ∈ tail.head?, isDigit b = false ∧ b ≠ 46

theorem Tail.nil : Tail [] 0 := ⟨rfl, by simp⟩

theorem exponentOf_eq (ds : List Nat) (n : Nat)
    (h : ds.foldl (fun n d => 10 * n + d) n < 0x10000) :
    ds.foldl (fun n d => if n < 0x10000 then n * 10 + d else n) n
      = ds.foldl (fun n d => 10 * n + d) n := by
  induction ds generalizing n with
  | nil => rfl
  | cons d ds ih =>
      have hgrows (n : Nat) : n ≤ ds.foldl (fun n d => 10 * n + d) n := by
        clear h ih
        induction ds generalizing n with
        | nil => exact Nat.le_refl n
        | cons d ds ih => exact Nat.le_trans (by omega) (ih (10 * n + d))
      rw [List.foldl_cons] at h ⊢
      have hn := hgrows (10 * n + d)
      rw [if_pos (by omega), Nat.mul_comm n 10, ih (10 * n + d) h, List.foldl_cons]

/-- The exponent that is written is the exponent that is read. -/
theorem Tail.written {k : ℤ} (h : k.natAbs < 0x10000) : Tail (101 :: intBytes k) k := by
  have hvalue : exponentOf ((natBytes k.natAbs).map digitValue) = k.natAbs := by
    have hspelled := number_map_digitValue (natBytes k.natAbs)
    rw [spelled_natBytes, number_eq_foldl] at hspelled
    rw [exponentOf, exponentOf_eq _ _ (by rw [hspelled]; exact h), hspelled]
  have hspan : spanDigits (natBytes k.natAbs) = ((natBytes k.natAbs).map digitValue, []) := by
    rw [← List.append_nil (natBytes k.natAbs), spanDigits_append (isDigits_natBytes _).2 (by simp),
      List.append_nil]
  have hsign : sign (intBytes k) = (decide (k < 0), natBytes k.natAbs) := by
    unfold intBytes
    by_cases hneg : k < 0
    · rw [if_pos hneg, decide_eq_true hneg]
      rfl
    · rw [if_neg hneg, decide_eq_false hneg]
      exact sign_of_isDigits (isDigits_natBytes _)
  obtain ⟨d, ds, hdigits⟩ := (isDigits_natBytes k.natAbs).exists_values
  refine ⟨?_, by simp [isDigit]⟩
  rw [exponent?_mark (by decide), hsign, hspan]
  rw [hdigits] at hvalue ⊢
  simp only [hvalue, decide_eq_true_eq]
  split <;> congr 1 <;> omega

/-- Without a point all digits stand in front. -/
theorem decimal?_whole {ds tail : Bytes} {k : ℤ} (hds : IsDigits ds) (htail : Tail tail k)
    (negative : Bool) :
    decimal? negative (ds ++ tail) = some (nearest negative (ds.map digitValue) k) := by
  have hspan : spanDecimal (ds ++ tail) = (ds.map digitValue, 0, tail) := by
    unfold spanDecimal
    rw [spanDigits_append hds.2 fun b hb => (htail.ends b hb).1]
    split
    · rename_i heq
      obtain ⟨_, rfl⟩ := Prod.mk.inj heq
      exact absurd rfl (htail.ends 46 rfl).2
    · rename_i heq
      obtain ⟨rfl, rfl⟩ := Prod.mk.inj heq
      rfl
  obtain ⟨d, rest, hdigits⟩ := hds.exists_values
  unfold decimal?
  rw [hspan, hdigits]
  simp only [htail.exponent, Option.map_some, Nat.cast_zero, sub_zero]

/-- With a point the digits on both sides are read as one number, and those behind it count against
the exponent. -/
theorem decimal?_point {ds ps tail : Bytes} {k : ℤ} (hds : IsDigits ds)
    (hps : ∀ b ∈ ps, isDigit b = true) (htail : Tail tail k) (negative : Bool) :
    decimal? negative (ds ++ 46 :: (ps ++ tail))
      = some (nearest negative ((ds ++ ps).map digitValue) (k - ps.length)) := by
  have hspan : spanDecimal (ds ++ 46 :: (ps ++ tail))
      = ((ds ++ ps).map digitValue, ps.length, tail) := by
    unfold spanDecimal
    rw [spanDigits_append hds.2 (by simp [isDigit])]
    simp only
    rw [spanDigits_append hps fun b hb => (htail.ends b hb).1]
    rw [List.map_append, List.length_map]
  obtain ⟨d, rest, hdigits⟩ := hds.exists_values
  unfold decimal?
  rw [hspan, List.map_append, hdigits]
  simp only [List.cons_append, htail.exponent, Option.map_some]

theorem spells_whole {ds tail : Bytes} {k : ℤ} (hds : IsDigits ds) (htail : Tail tail k) :
    Spells (ds ++ tail) (spelled ds * 10 ^ k) := by
  refine ⟨?_, ds, k, hds.2, rfl, decimal?_whole hds htail⟩
  obtain ⟨b, rest, rfl, hb⟩ := hds.exists_cons
  exact ⟨b, _, rfl, hb⟩

theorem spells_point {ds ps tail : Bytes} {k : ℤ} (hds : IsDigits ds)
    (hps : ∀ b ∈ ps, isDigit b = true) (htail : Tail tail k) :
    Spells (ds ++ 46 :: (ps ++ tail)) (spelled (ds ++ ps) * 10 ^ (k - ps.length)) := by
  refine ⟨?_, ds ++ ps, _, List.forall_mem_append.mpr ⟨hds.2, hps⟩, rfl,
    decimal?_point hds hps htail⟩
  obtain ⟨b, rest, rfl, hb⟩ := hds.exists_cons
  exact ⟨b, _, rfl, hb⟩

/-! ## Decimals as they are written -/

/-- The bytes of ASCII characters. -/
def asciiBytes (cs : List Char) : Bytes := cs.map fun c => UInt8.ofNat c.toNat

theorem asciiBytes_append (cs cs' : List Char) :
    asciiBytes (cs ++ cs') = asciiBytes cs ++ asciiBytes cs' := List.map_append

theorem asciiBytes_toDigits (n : Nat) : asciiBytes (Nat.toDigits 10 n) = natBytes n := rfl

theorem isDigit_asciiBytes {cs : List Char} (h : ∀ c ∈ cs, c.isDigit = true) :
    ∀ b ∈ asciiBytes cs, isDigit b = true := by
  intro b hb
  obtain ⟨c, hc, rfl⟩ := List.mem_map.mp hb
  exact (isDigit_ofNat (h c hc)).1

theorem isDigits_asciiBytes {cs : List Char} (hne : cs ≠ []) (h : ∀ c ∈ cs, c.isDigit = true) :
    IsDigits (asciiBytes cs) :=
  ⟨fun hnil => hne (List.map_eq_nil_iff.mp hnil), isDigit_asciiBytes h⟩

theorem utf8_digits {cs : List Char} (h : ∀ c ∈ cs, c.isDigit = true) :
    cs.flatMap String.utf8EncodeChar = asciiBytes cs := by
  rw [asciiBytes, List.map_eq_flatMap]
  exact List.flatMap_congr fun c hc => encode_digit (h c hc)

theorem ofText_digits {cs : List Char} (h : ∀ c ∈ cs, c.isDigit = true) :
    Bytes.ofText (String.ofList cs) = asciiBytes cs := by
  rw [Bytes.ofText, String.toList_ofList, utf8_digits h]

theorem ofText_point {cs cs' : List Char} (h : ∀ c ∈ cs, c.isDigit = true)
    (h' : ∀ c ∈ cs', c.isDigit = true) :
    Bytes.ofText (String.ofList (cs ++ '.' :: cs')) = asciiBytes cs ++ 46 :: asciiBytes cs' := by
  have hdot : String.utf8EncodeChar '.' = [46] := by decide
  rw [Bytes.ofText, String.toList_ofList, List.flatMap_append, List.flatMap_cons, utf8_digits h,
    utf8_digits h', hdot]
  rfl

/-- Zeros around the digits of a number are digits. -/
theorem isDigit_zeros (k : Nat) : ∀ c ∈ List.replicate k '0', c.isDigit = true := by
  intro c hc
  rw [List.eq_of_mem_replicate hc]
  decide

theorem asciiBytes_zeros (k : Nat) : asciiBytes (List.replicate k '0') = List.replicate k 48 :=
  List.map_replicate

/-- Wherever the point is put among the digits, they are read as one number. -/
theorem spells_split {cs : List Char} {k : Nat} (hcs : ∀ c ∈ cs, c.isDigit = true) (hk : 0 < k)
    (hlength : 0 < cs.length) {tail : Bytes} {e : ℤ} (htail : Tail tail e) :
    Spells (Bytes.ofText (String.ofList (cs.take k ++ '.' :: cs.drop k)) ++ tail)
      (spelled (asciiBytes cs) * 10 ^ (e - (cs.length - k : ℕ))) := by
  have hfront : ∀ c ∈ cs.take k, c.isDigit = true := fun c hc => hcs c (List.mem_of_mem_take hc)
  have hback : ∀ c ∈ cs.drop k, c.isDigit = true := fun c hc => hcs c (List.mem_of_mem_drop hc)
  have hne : cs.take k ≠ [] := by
    rw [← List.length_pos_iff, List.length_take]
    omega
  have hpoint := spells_point (isDigits_asciiBytes hne hfront) (isDigit_asciiBytes hback) htail
  have hplaces : (asciiBytes (cs.drop k)).length = cs.length - k := by
    rw [asciiBytes, List.length_map, List.length_drop]
  rw [← asciiBytes_append, List.take_append_drop, hplaces] at hpoint
  rw [ofText_point hfront hback]
  simpa using hpoint

/-- The text of a decimal with its point in place spells the decimal. -/
theorem spells_positional (d : Scaled) : Spells (Bytes.ofText (positional d)) d.value := by
  have hdigits : ∀ c ∈ Nat.toDigits 10 d.digits, c.isDigit = true := fun _ => isDigit_of_mem_toDigits
  unfold positional Scaled.value
  simp only
  split
  · rename_i hle
    have hall := List.forall_mem_append.mpr ⟨hdigits, isDigit_zeros d.exponent.toNat⟩
    have hne : Nat.toDigits 10 d.digits ++ List.replicate d.exponent.toNat '0' ≠ [] :=
      List.append_ne_nil_of_left_ne_nil Nat.toDigits_ne_nil _
    have hwhole := spells_whole (isDigits_asciiBytes hne hall) Tail.nil
    have hvalue : (spelled (asciiBytes
        (Nat.toDigits 10 d.digits ++ List.replicate d.exponent.toNat '0')) : ℚ) * 10 ^ (0 : ℤ)
        = d.digits * 10 ^ d.exponent := by
      rw [asciiBytes_append, asciiBytes_zeros, spelled_append, spelled_zeros, asciiBytes_toDigits,
        spelled_natBytes, List.length_replicate]
      push_cast
      rw [← zpow_natCast, Int.toNat_of_nonneg hle, add_zero, mul_one]
    rwa [List.append_nil, hvalue, ← ofText_digits hall] at hwhole
  · rename_i hneg
    -- zeros in front leave a digit before the point
    generalize hpadded : List.replicate ((-d.exponent).toNat + 1 - (Nat.toDigits 10 d.digits).length) '0'
      ++ Nat.toDigits 10 d.digits = padded
    have hall : ∀ c ∈ padded, c.isDigit = true :=
      hpadded ▸ List.forall_mem_append.mpr ⟨isDigit_zeros _, hdigits⟩
    have hlength : (-d.exponent).toNat + 1 ≤ padded.length := by
      rw [← hpadded, List.length_append, List.length_replicate]
      omega
    have hspelled : spelled (asciiBytes padded) = d.digits := by
      rw [← hpadded, asciiBytes_append, asciiBytes_zeros, spelled_append, spelled_zeros,
        asciiBytes_toDigits, spelled_natBytes, Nat.zero_mul, Nat.zero_add]
    have hplaces : (0 : ℤ) - (padded.length - (padded.length - (-d.exponent).toNat) : ℕ)
        = d.exponent := by omega
    have hsplit := spells_split (k := padded.length - (-d.exponent).toNat) hall (by omega) (by omega)
      Tail.nil
    rwa [List.append_nil, hspelled, hplaces] at hsplit

/-- The text of a decimal with an exponent spells the decimal. -/
theorem spells_exponential {d : Scaled}
    (h : (d.exponent + ((Nat.toDigits 10 d.digits).length - 1 : Nat)).natAbs < 0x10000) :
    Spells (Bytes.ofText (exponential d)) d.value := by
  have hdigits : ∀ c ∈ Nat.toDigits 10 d.digits, c.isDigit = true := fun _ => isDigit_of_mem_toDigits
  have htail := Tail.written h
  have he : Bytes.ofText "e" = [101] := by decide
  unfold exponential Scaled.value
  simp only
  rw [Bytes.ofText_append, Bytes.ofText_append, he, ofText_intText, List.append_assoc]
  split
  · rename_i hone
    have hsingle : (Nat.toDigits 10 d.digits).take 1 = Nat.toDigits 10 d.digits :=
      List.take_of_length_le hone
    have horder : d.exponent + ((Nat.toDigits 10 d.digits).length - 1 : Nat) = d.exponent := by omega
    have hwhole := spells_whole (isDigits_natBytes d.digits) htail
    rw [spelled_natBytes] at hwhole
    rw [horder] at hwhole ⊢
    rwa [hsingle, List.append_nil, ofText_digits hdigits, asciiBytes_toDigits]
  · rename_i hmore
    have hsplit := spells_split (k := 1) hdigits Nat.one_pos (by omega) htail
    rwa [asciiBytes_toDigits, spelled_natBytes, add_sub_cancel_right] at hsplit

end RespMux.Decimal
