import RespMux.Proofs.Decimal.Written
import RespMux.Reader.Replies
import RespMux.Reply.Extract

/-!
# Integers within 64 bits

Integers are read and written without ever leaving 64 bits. A numeral is read into the negative of
its value, as the negative range is the longer one; each step is checked, and one of them fails only
if the whole number lies outside the range. Digits are written from the end of a scratch of twenty
bytes, which is room for the longest integer and its sign. What is written is canonical: among all
numerals with the same value there is one without needless zeros, and this is the one.
-/

set_option autoImplicit false

namespace RespMux.Decimal

/-! ## Reading step by step -/

/-- The product of two integers, if it lies in the 64-bit range. -/
def times? (a b : Int64) : Option Int64 := int64? (a.toInt * b.toInt)

/-- The difference of two integers, if it lies in the 64-bit range. -/
def minus? (a b : Int64) : Option Int64 := int64? (a.toInt - b.toInt)

/-- The negative of an integer, if it lies in the 64-bit range. -/
def negated? (a : Int64) : Option Int64 := int64? (-a.toInt)

/-- Takes one more digit into the negative of what has been read. -/
def takeDigit? (value : Int64) (b : UInt8) : Option Int64 :=
  if isDigit b then (times? value 10).bind fun v => minus? v (Int64.ofNat (digitValue b)) else none

/-- The negative of what one or more digits spell. -/
def negative? (body : Bytes) : Option Int64 :=
  if body = [] then none else body.foldlM takeDigit? 0

/-- Reads an optional minus sign and one or more digits, in 64 bits all the way. -/
def readStepwise? : Bytes → Option Int64
  | 45 :: body => negative? body
  | body => (negative? body).bind negated?

theorem exists_int64 {n : Int} (hlow : -9223372036854775808 ≤ n) (hhigh : n ≤ 9223372036854775807) :
    ∃ i : Int64, n = i.toInt :=
  ⟨Int64.ofInt n, (Int64.toInt_ofInt_of_le hlow (by omega)).symm⟩

theorem toInt_range (i : Int64) :
    -9223372036854775808 ≤ i.toInt ∧ i.toInt ≤ 9223372036854775807 :=
  ⟨i.minValue_le_toInt, i.toInt_le⟩

theorem isDigit_range {b : UInt8} (h : isDigit b = true) : 48 ≤ b.toNat ∧ b.toNat ≤ 57 := by
  simp only [isDigit, Bool.and_eq_true, decide_eq_true_eq, UInt8.le_iff_toNat_le] at h
  exact h

theorem digitValue_le {b : UInt8} (h : isDigit b = true) : digitValue b ≤ 9 := by
  have hrange := isDigit_range h
  unfold digitValue
  omega

theorem takeDigit?_eq_some_iff {v w : Int64} {b : UInt8} (hv : v.toInt ≤ 0) :
    takeDigit? v b = some w ↔ isDigit b = true ∧ 10 * v.toInt - digitValue b = w.toInt := by
  unfold takeDigit?
  by_cases hb : isDigit b = true
  · have hten : (10 : Int64).toInt = 10 := rfl
    have hdigit : (Int64.ofNat (digitValue b)).toInt = digitValue b :=
      Int64.toInt_ofNat_of_lt (Nat.lt_of_le_of_lt (digitValue_le hb) (by decide))
    simp only [hb, if_true, true_and, Option.bind_eq_some_iff, times?, minus?, int64?_eq_some_iff,
      hten, hdigit]
    constructor
    · rintro ⟨u, hu, hw⟩
      omega
    · intro hw
      -- the product lies between the result and zero, so it is in range as well
      obtain ⟨u, hu⟩ : ∃ u : Int64, v.toInt * 10 = u.toInt := by
        have := toInt_range w
        exact exists_int64 (by omega) (by omega)
      exact ⟨u, hu, by omega⟩
  · simp [hb]

theorem foldl_negative_le (body : Bytes) {n : Int} (hn : n ≤ 0) :
    body.foldl (fun n b => 10 * n - (digitValue b : Int)) n ≤ n := by
  induction body generalizing n with
  | nil => exact Int.le_refl n
  | cons b body ih =>
      have hnext : 10 * n - (digitValue b : Int) ≤ 0 := by omega
      have hrest := ih hnext
      rw [List.foldl_cons]
      omega

/-- The loop gives a value exactly if there are only digits and the number that comes out is in
range: each number on the way lies between zero and the last one. -/
theorem foldlM_takeDigit?_eq_some_iff (body : Bytes) {v w : Int64} (hv : v.toInt ≤ 0) :
    body.foldlM takeDigit? v = some w ↔
      (∀ b ∈ body, isDigit b = true)
        ∧ body.foldl (fun n b => 10 * n - (digitValue b : Int)) v.toInt = w.toInt := by
  induction body generalizing v with
  | nil => simp [Int64.toInt_inj]
  | cons b body ih =>
      have hnext : 10 * v.toInt - (digitValue b : Int) ≤ 0 := by omega
      simp only [List.foldlM_cons, Option.bind_eq_bind, Option.bind_eq_some_iff,
        takeDigit?_eq_some_iff hv, List.forall_mem_cons, List.foldl_cons]
      constructor
      · rintro ⟨u, ⟨hb, hu⟩, hrest⟩
        obtain ⟨hdigits, hw⟩ := (ih (by omega)).mp hrest
        exact ⟨⟨hb, hdigits⟩, by rw [hu, hw]⟩
      · rintro ⟨⟨hb, hdigits⟩, hw⟩
        obtain ⟨u, hu⟩ : ∃ u : Int64, 10 * v.toInt - (digitValue b : Int) = u.toInt := by
          have hlast := foldl_negative_le body hnext
          have := toInt_range w
          exact exists_int64 (by omega) (by omega)
        exact ⟨u, ⟨hb, hu⟩, (ih (by omega)).mpr ⟨hdigits, by rw [← hu, hw]⟩⟩

theorem foldl_negative (body : Bytes) (n : Nat) :
    body.foldl (fun n b => 10 * n - (digitValue b : Int)) (-(n : Int))
      = -((body.foldl (fun n b => 10 * n + digitValue b) n : Nat) : Int) := by
  induction body generalizing n with
  | nil => rfl
  | cons b body ih =>
      have hnext : 10 * -(n : Int) - (digitValue b : Int) = -((10 * n + digitValue b : Nat) : Int) := by
        omega
      rw [List.foldl_cons, List.foldl_cons, hnext, ih]

theorem negative?_eq_some_iff {body : Bytes} {w : Int64} :
    negative? body = some w ↔ IsDigits body ∧ -(spelled body : Int) = w.toInt := by
  have hzero : (0 : Int64).toInt = -((0 : Nat) : Int) := rfl
  unfold negative? IsDigits spelled
  by_cases hbody : body = []
  · simp [hbody]
  · rw [if_neg hbody, foldlM_takeDigit?_eq_some_iff body (by decide), hzero, foldl_negative]
    simp only [hbody, ne_eq, not_false_eq_true, true_and]

/-- Step by step an integer is read from the numerals that have its value. -/
theorem readStepwise?_eq_some_iff {bs : Bytes} {i : Int64} :
    readStepwise? bs = some i ↔ Numeral bs i.toInt := by
  unfold readStepwise?
  split
  · rw [numeral_minus_iff]
    exact negative?_eq_some_iff
  · rename_i hbs
    rw [numeral_digits_iff hbs, Option.bind_eq_some_iff]
    simp only [negative?_eq_some_iff, negated?, int64?_eq_some_iff]
    constructor
    · rintro ⟨w, ⟨hdigits, hw⟩, hi⟩
      exact ⟨hdigits, by omega⟩
    · rintro ⟨hdigits, hi⟩
      -- the negative of an integer that is not negative is in range
      obtain ⟨w, hw⟩ : ∃ w : Int64, -(spelled bs : Int) = w.toInt := by
        have := toInt_range i
        exact exists_int64 (by omega) (by omega)
      exact ⟨w, ⟨hdigits, hw⟩, by omega⟩

/-- No step leaves the range unless the whole number does. -/
theorem readStepwise?_eq (bs : Bytes) : readStepwise? bs = readInteger? bs :=
  Option.ext fun _ => readStepwise?_eq_some_iff.trans readInteger?_eq_some_iff.symm

/-! ## Writing into a scratch -/

/-- Twenty bytes that are filled from the end; `pos` is the index of the first one in use. -/
structure Scratch where
  bytes : Vector UInt8 20
  pos : Nat
  pos_le : pos ≤ 20

namespace Scratch

/-- Nothing is written yet. -/
def empty : Scratch := ⟨Vector.replicate 20 0, 20, Nat.le_refl 20⟩

/-- What has been written. -/
def written (s : Scratch) : Bytes := s.bytes.toList.drop s.pos

/-- Writes a byte in front of the others. There is no index below zero. -/
def put? (s : Scratch) (b : UInt8) : Option Scratch :=
  if h : s.pos = 0 then none
  else
    have hpos : s.pos - 1 < 20 := Nat.lt_of_lt_of_le (Nat.sub_one_lt h) s.pos_le
    some ⟨s.bytes.set (s.pos - 1) b hpos, s.pos - 1, Nat.le_of_lt hpos⟩

/-- Writes the digits of a number, the lowest first. -/
def putDigits? (s : Scratch) (n : UInt64) : Option Scratch :=
  (s.put? (48 + (n % 10).toUInt8)).bind fun s' =>
    if n / 10 = 0 then some s' else s'.putDigits? (n / 10)
termination_by n.toNat
decreasing_by
  have hdiv : (n / 10).toNat = n.toNat / 10 := UInt64.toNat_div n 10
  have hpos : (n / 10).toNat ≠ 0 := fun h => ‹¬ n / 10 = 0› (UInt64.toNat_inj.mp h)
  omega

/-- The scratch with the digits of an integer, and a minus sign in front if it is negative. -/
def ofInt64? (n : Int64) : Option Scratch :=
  (empty.putDigits? (UInt64.ofNat n.toInt.natAbs)).bind fun s =>
    if n.toInt < 0 then s.put? 45 else some s

theorem put?_spec (s : Scratch) (b : UInt8) (h : 0 < s.pos) :
    ∃ s', s.put? b = some s' ∧ s'.pos + 1 = s.pos ∧ s'.written = b :: s.written := by
  have hpos : s.pos - 1 < 20 := Nat.lt_of_lt_of_le (Nat.sub_one_lt (by omega)) s.pos_le
  have hlength : s.pos - 1 < (s.bytes.toList.set (s.pos - 1) b).length := by simpa using hpos
  refine ⟨⟨s.bytes.set (s.pos - 1) b hpos, s.pos - 1, Nat.le_of_lt hpos⟩, dif_neg (by omega), ?_, ?_⟩
  · show s.pos - 1 + 1 = s.pos
    omega
  · show (s.bytes.set (s.pos - 1) b hpos).toList.drop (s.pos - 1) = b :: s.bytes.toList.drop s.pos
    rw [Vector.toList_set, List.drop_eq_getElem_cons hlength, List.getElem_set_self,
      List.drop_set_of_lt (by omega), Nat.sub_add_cancel h]

end Scratch

theorem natBytes_of_lt {n : Nat} (h : n < 10) : natBytes n = [UInt8.ofNat (48 + n)] := by
  rw [natBytes, Nat.toDigits_of_lt_base h, List.map_singleton, Nat.toNat_digitChar_of_lt_ten h]

/-- The last digit is the remainder by ten, the others are those of the quotient. -/
theorem natBytes_append {n : Nat} (h : 10 ≤ n) :
    natBytes n = natBytes (n / 10) ++ [UInt8.ofNat (48 + n % 10)] := by
  have hlast : n % 10 < 10 := Nat.mod_lt n (by decide)
  rw [natBytes, Nat.toDigits_eq_if (by decide), if_neg (by omega), List.map_append, List.map_singleton,
    Nat.toNat_digitChar_of_lt_ten hlast]
  rfl

theorem natBytes_of_lt_hundred {n : Nat} (hlow : 10 ≤ n) (h : n < 100) :
    natBytes n = [UInt8.ofNat (48 + n / 10), UInt8.ofNat (48 + n % 10)] := by
  rw [natBytes_append hlow, natBytes_of_lt (by omega)]
  rfl

theorem natBytes_length_le {n k : Nat} (hk : 0 < k) (h : n < 10 ^ k) : (natBytes n).length ≤ k := by
  rw [natBytes, List.length_map]
  exact Nat.toDigits_length 10 n k hk h

namespace Scratch

theorem digit_eq (n : UInt64) : 48 + (n % 10).toUInt8 = UInt8.ofNat (48 + n.toNat % 10) := by
  apply UInt8.toNat_inj.mp
  have hmod : (n % 10).toNat = n.toNat % 10 := UInt64.toNat_mod n 10
  rw [UInt8.toNat_add, UInt64.toNat_toUInt8, hmod, UInt8.toNat_ofNat']
  have h48 : (48 : UInt8).toNat = 48 := rfl
  omega

/-- Where there is room for them, the digits come out in the order in which they are read. -/
theorem putDigits?_spec (n : UInt64) (s : Scratch) (h : (natBytes n.toNat).length ≤ s.pos) :
    ∃ s', s.putDigits? n = some s' ∧ s'.pos + (natBytes n.toNat).length = s.pos
      ∧ s'.written = natBytes n.toNat ++ s.written := by
  induction hn : n.toNat using Nat.strong_induction_on generalizing n s with
  | _ k ih =>
    subst hn
    have hdiv : (n / 10).toNat = n.toNat / 10 := UInt64.toNat_div n 10
    rw [putDigits?]
    by_cases hlast : n.toNat < 10
    · have hzero : n / 10 = 0 := UInt64.toNat_inj.mp (by rw [hdiv]; exact Nat.div_eq_of_lt hlast)
      rw [natBytes_of_lt hlast] at h ⊢
      obtain ⟨s', hput, hpos, hwritten⟩ := s.put?_spec (48 + (n % 10).toUInt8) h
      refine ⟨s', ?_, hpos, ?_⟩
      · rw [hput, Option.bind_some, if_pos hzero]
      · rw [hwritten, digit_eq, Nat.mod_eq_of_lt hlast]
        rfl
    · have hmore : n / 10 ≠ 0 := by
        intro hzero
        have := congrArg UInt64.toNat hzero
        rw [hdiv] at this
        have hzero : (0 : UInt64).toNat = 0 := rfl
        omega
      rw [natBytes_append (Nat.not_lt.mp hlast), List.length_append, List.length_singleton] at h
      obtain ⟨s', hput, hpos, hwritten⟩ := s.put?_spec (48 + (n % 10).toUInt8) (by omega)
      obtain ⟨s'', hrest, hpos', hwritten'⟩ := ih (n.toNat / 10) (by omega) (n / 10) s'
        (by rw [hdiv]; omega) hdiv
      refine ⟨s'', ?_, ?_, ?_⟩
      · rw [hput, Option.bind_some, if_neg hmore, hrest]
      · rw [natBytes_append (Nat.not_lt.mp hlast), List.length_append, List.length_singleton]
        omega
      · rw [natBytes_append (Nat.not_lt.mp hlast), hwritten', hwritten, digit_eq, List.append_assoc]
        rfl

/-- Twenty bytes are enough for every integer. -/
theorem ofInt64?_spec (n : Int64) : ∃ s, ofInt64? n = some s ∧ s.written = intBytes n.toInt := by
  have hrange := toInt_range n
  have hmagnitude : (UInt64.ofNat n.toInt.natAbs).toNat = n.toInt.natAbs :=
    UInt64.toNat_ofNat_of_lt' (by
      have : UInt64.size = 18446744073709551616 := rfl
      omega)
  -- nineteen digits at most, so a byte is left for the sign
  have hlength : (natBytes n.toInt.natAbs).length ≤ 19 :=
    natBytes_length_le (by decide) (by omega)
  have hempty : empty.written = [] := rfl
  obtain ⟨s, hdigits, hpos, hwritten⟩ := putDigits?_spec (UInt64.ofNat n.toInt.natAbs) empty (by
    rw [hmagnitude]
    exact Nat.le_trans hlength (by decide))
  rw [hmagnitude, hempty, List.append_nil] at hwritten
  rw [hmagnitude] at hpos
  have hroom : empty.pos = 20 := rfl
  unfold ofInt64? intBytes
  rw [hdigits, Option.bind_some]
  by_cases hneg : n.toInt < 0
  · obtain ⟨s', hput, _, hsign⟩ := s.put?_spec 45 (by omega)
    exact ⟨s', by rw [if_pos hneg, hput], by rw [if_pos hneg, hsign, hwritten]⟩
  · exact ⟨s, by rw [if_neg hneg], by rw [if_neg hneg, hwritten]⟩

end Scratch

/-! ## Canonical numerals -/

/-- A numeral in which nothing is needless: no zero in front of other digits, no sign at a zero. -/
inductive Canonical : Bytes → Prop where
  | zero : Canonical [48]
  | positive {b : UInt8} {ds : Bytes} (h : IsDigits (b :: ds)) (hb : b ≠ 48) : Canonical (b :: ds)
  | negative {b : UInt8} {ds : Bytes} (h : IsDigits (b :: ds)) (hb : b ≠ 48) :
      Canonical (45 :: b :: ds)

theorem natBytes_zero : natBytes 0 = [48] := natBytes_of_lt (by decide)

theorem ofNat_digitValue {b : UInt8} (h : isDigit b = true) : UInt8.ofNat (48 + digitValue b) = b := by
  apply UInt8.toNat_inj.mp
  have hrange := isDigit_range h
  rw [UInt8.toNat_ofNat', digitValue]
  omega

/-- Digits after a number that is not zero are kept as they are, zeros included. -/
theorem natBytes_foldl (ds : Bytes) {n : Nat} (hn : 0 < n) (hds : ∀ b ∈ ds, isDigit b = true) :
    natBytes (ds.foldl (fun n b => 10 * n + digitValue b) n) = natBytes n ++ ds := by
  induction ds generalizing n with
  | nil => simp
  | cons b ds ih =>
      obtain ⟨hb, hrest⟩ := List.forall_mem_cons.mp hds
      have hdigit := digitValue_le hb
      have hdiv : (10 * n + digitValue b) / 10 = n := by omega
      have hmod : (10 * n + digitValue b) % 10 = digitValue b := by omega
      rw [List.foldl_cons, ih (by omega) hrest, natBytes_append (by omega), hdiv, hmod,
        ofNat_digitValue hb, List.append_assoc]
      rfl

/-- Digits without a leading zero are those that are written for the number they spell. -/
theorem natBytes_spelled {b : UInt8} {ds : Bytes} (h : IsDigits (b :: ds)) (hb : b ≠ 48) :
    natBytes (spelled (b :: ds)) = b :: ds := by
  obtain ⟨hdigit, hrest⟩ := List.forall_mem_cons.mp h.2
  have hle := digitValue_le hdigit
  have hback := ofNat_digitValue hdigit
  have hpos : 0 < digitValue b := by
    refine Nat.pos_of_ne_zero fun hzero => hb ?_
    rw [hzero] at hback
    exact hback.symm
  have hfirst : spelled (b :: ds) = ds.foldl (fun n b => 10 * n + digitValue b) (digitValue b) := by
    simp [spelled]
  rw [hfirst, natBytes_foldl ds hpos hrest, natBytes_of_lt (by omega), hback]
  rfl

theorem spelled_pos {b : UInt8} {ds : Bytes} (h : IsDigits (b :: ds)) (hb : b ≠ 48) :
    0 < spelled (b :: ds) := by
  refine Nat.pos_of_ne_zero fun hzero => hb ?_
  have hback := natBytes_spelled h hb
  rw [hzero, natBytes_zero] at hback
  exact (List.cons.inj hback).1.symm

theorem exists_natBytes {n : Nat} (hn : 0 < n) : ∃ b ds, natBytes n = b :: ds ∧ b ≠ 48 := by
  induction n using Nat.strong_induction_on with
  | _ n ih =>
    by_cases hlt : n < 10
    · refine ⟨UInt8.ofNat (48 + n), [], natBytes_of_lt hlt, fun hzero => ?_⟩
      have := congrArg UInt8.toNat hzero
      have h48 : (48 : UInt8).toNat = 48 := rfl
      rw [UInt8.toNat_ofNat'] at this
      omega
    · obtain ⟨b, ds, hfront, hb⟩ := ih (n / 10) (by omega) (by omega)
      exact ⟨b, _, by rw [natBytes_append (by omega), hfront]; rfl, hb⟩

theorem canonical_natBytes (n : Nat) : Canonical (natBytes n) := by
  by_cases hn : n = 0
  · rw [hn, natBytes_zero]
    exact .zero
  · obtain ⟨b, ds, hbytes, hb⟩ := exists_natBytes (Nat.pos_of_ne_zero hn)
    have hdigits := isDigits_natBytes n
    rw [hbytes] at hdigits ⊢
    exact .positive hdigits hb

theorem canonical_intBytes (n : Int) : Canonical (intBytes n) := by
  unfold intBytes
  split
  · obtain ⟨b, ds, hbytes, hb⟩ := exists_natBytes (n := n.natAbs) (by omega)
    have hdigits := isDigits_natBytes n.natAbs
    rw [hbytes] at hdigits ⊢
    exact .negative hdigits hb
  · exact canonical_natBytes _

/-- Among the numerals of an integer the one that is written is the canonical one. -/
theorem canonical_numeral_iff {bs : Bytes} {n : Int} :
    Canonical bs ∧ Numeral bs n ↔ bs = intBytes n := by
  constructor
  · rintro ⟨hcanonical, hnumeral⟩
    cases hcanonical with
    | zero =>
        obtain ⟨_, rfl⟩ := (numeral_digits_iff (by simp)).mp hnumeral
        exact natBytes_zero.symm
    | @positive b ds h hb =>
        have hminus : ∀ ds', b :: ds ≠ 45 :: ds' := by
          intro ds' heq
          exact (heq ▸ h).no_minus
        obtain ⟨_, rfl⟩ := (numeral_digits_iff hminus).mp hnumeral
        rw [intBytes, if_neg (by omega), Int.natAbs_natCast, natBytes_spelled h hb]
    | negative h hb =>
        obtain ⟨_, rfl⟩ := numeral_minus_iff.mp hnumeral
        have hpos := spelled_pos h hb
        rw [intBytes, if_pos (by omega), Int.natAbs_neg, Int.natAbs_natCast, natBytes_spelled h hb]
  · rintro rfl
    exact ⟨canonical_intBytes n, numeral_intBytes n⟩

/-! ## Inside a value -/

theorem integerLine?_eq_ok_iff {bs : Bytes} {i : Int64} :
    integerLine? bs = .ok i ↔ readInteger? bs = some i := by
  unfold integerLine?
  cases readInteger? bs <;> simp

/-- Inside a value a plus sign may stand in front of the digits as well. -/
theorem readSigned?_eq_some_iff {bs : Bytes} {i : Int64} :
    readSigned? bs = some i ↔
      readInteger? bs = some i
        ∨ ∃ ds, bs = 43 :: ds ∧ IsDigits ds ∧ (spelled ds : Int) = i.toInt := by
  unfold readSigned?
  split
  · rename_i ds
    have hnone : readInteger? (43 :: ds) ≠ some i := by
      intro h
      obtain ⟨hdigits, _⟩ := (numeral_digits_iff (by simp)).mp (readInteger?_eq_some_iff.mp h)
      exact absurd (hdigits.2 43 List.mem_cons_self) (by decide)
    simp only [hnone, false_or, Option.bind_eq_some_iff, natural?_eq_some_iff, int64?_eq_some_iff]
    constructor
    · rintro ⟨n, ⟨hdigits, rfl⟩, hi⟩
      exact ⟨ds, rfl, hdigits, hi⟩
    · rintro ⟨ds', heq, hdigits, hi⟩
      obtain ⟨_, rfl⟩ := List.cons.inj heq
      exact ⟨_, ⟨hdigits, rfl⟩, hi⟩
  · rename_i hplus
    constructor
    · exact .inl
    · rintro (h | ⟨ds, rfl, _⟩)
      · exact h
      · exact absurd rfl (hplus ds)

theorem toInteger_bulk_eq_ok_iff {bs : Bytes} {i : Int64} :
    Reply.toInteger (.bulk (some bs)) = .ok i ↔ readSigned? bs = some i := by
  show Reply.integerOf bs = .ok i ↔ _
  unfold Reply.integerOf
  cases readSigned? bs <;> simp

/-- Integers and their texts, at the limits of 64 bits as everywhere. A line is read exactly if it is
a numeral with a value in range, and the steps by which it is read stay in range. An integer is
written into its twenty bytes as the one canonical numeral of its value, from which it is read
again. Inside a value it is read from the same numerals and from digits after a plus sign. -/
theorem integer_texts_agree (d : Bytes) (n : Int64) :
    (integerLine? d = .ok n ↔ Numeral d n.toInt) ∧ readStepwise? d = readInteger? d
      ∧ (∃ s, Scratch.ofInt64? n = some s ∧ s.written = intBytes n.toInt
          ∧ (∀ bs, Canonical bs ∧ Numeral bs n.toInt ↔ bs = s.written)
          ∧ integerLine? s.written = .ok n)
      ∧ (Reply.toInteger (.bulk (some d)) = .ok n ↔
          integerLine? d = .ok n
            ∨ ∃ ds, d = 43 :: ds ∧ IsDigits ds ∧ (spelled ds : Int) = n.toInt) := by
  have hline (bs : Bytes) : integerLine? bs = .ok n ↔ Numeral bs n.toInt :=
    integerLine?_eq_ok_iff.trans readInteger?_eq_some_iff
  obtain ⟨s, hs, hwritten⟩ := Scratch.ofInt64?_spec n
  refine ⟨hline d, readStepwise?_eq d, ⟨s, hs, hwritten, fun bs => ?_, ?_⟩, ?_⟩
  · rw [hwritten]
    exact canonical_numeral_iff
  · rw [hline, hwritten]
    exact numeral_intBytes n.toInt
  · rw [toInteger_bulk_eq_ok_iff, readSigned?_eq_some_iff, integerLine?_eq_ok_iff]

end RespMux.Decimal
