import RespMux.Proofs.Decimal.Doubles
import RespMux.Proofs.Encoding

/-!
# Arguments written piece by piece

Arguments are appended to the output piece by piece, and not all in the same way: a short length is one
digit, a small integer has its length and its digits written at once, and a double that is a short whole
number is converted and written as an integer. Any of this could fail only where a scratch runs full,
which never happens: whatever the argument is, what is appended is one bulk string of its contents.
-/

set_option autoImplicit false

namespace RespMux

open Decimal

namespace Wire

/-! ## Pieces -/

/-- Appends a length line. A length below ten is a digit, any other is written into a scratch first. -/
def putLength? (buf : Bytes) (mark : UInt8) (len : Nat) : Option Bytes :=
  if len < 10 then some (buf ++ [mark] ++ [48 + UInt8.ofNat len] ++ crlf)
  else (Scratch.ofInt64? (Int64.ofNat len)).map fun s => buf ++ [mark] ++ s.written ++ crlf

/-- Appends a bulk string. -/
def putBulk? (buf data : Bytes) : Option Bytes :=
  (putLength? buf 36 data.length).map fun buf => buf ++ data ++ crlf

/-- Appends an integer of any size. -/
def putLongInteger? (buf : Bytes) (n : Int64) : Option Bytes :=
  (Scratch.ofInt64? n).bind fun s => putBulk? buf s.written

/-- Appends an integer. Up to 99 the length and the digits are written at once. -/
def putInteger? (buf : Bytes) (n : Int64) : Option Bytes :=
  if 0 ≤ n ∧ n ≤ 99 then
    if n < 10 then some (buf ++ [36, 49, 13, 10] ++ [48 + n.toUInt64.toUInt8] ++ crlf)
    else
      some (buf ++ [36, 50, 13, 10] ++ [48 + (n / 10).toUInt64.toUInt8]
        ++ [48 + (n % 10).toUInt64.toUInt8] ++ crlf)
  else putLongInteger? buf n

/-- Appends a double. A short whole number is converted and written as an integer. -/
def putDouble? (buf : Bytes) (x : Double) : Option Bytes :=
  if isShortWhole x then putInteger? buf x.toInt64 else putBulk? buf (Bytes.ofText (rendered x))

/-- Short or long, a length line has the digits of the length. -/
theorem putLength?_eq (buf : Bytes) (mark : UInt8) {len : Nat} (h : len < 2 ^ 63) :
    putLength? buf mark len = some (buf ++ (mark :: natBytes len ++ crlf)) := by
  unfold putLength?
  split
  · rename_i hlt
    rw [natBytes_of_lt hlt, UInt8.ofNat_add]
    simp
  · obtain ⟨s, hs, hwritten⟩ := Scratch.ofInt64?_spec (Int64.ofNat len)
    have hbytes : intBytes (Int64.ofNat len).toInt = natBytes len := by
      rw [Int64.toInt_ofNat_of_lt h, intBytes, if_neg (by omega), Int.natAbs_natCast]
    rw [hs, Option.map_some, hwritten, hbytes]
    simp

theorem putBulk?_eq (buf : Bytes) {data : Bytes} (h : data.length < 2 ^ 63) :
    putBulk? buf data = some (buf ++ bulk data) := by
  rw [putBulk?, putLength?_eq buf 36 h, Option.map_some, bulk]
  simp

theorem putLongInteger?_eq (buf : Bytes) (n : Int64) :
    putLongInteger? buf n = some (buf ++ bulk (intBytes n.toInt)) := by
  obtain ⟨s, hs, hwritten⟩ := Scratch.ofInt64?_spec n
  have hlength : s.written.length ≤ 20 := by
    rw [Scratch.written, List.length_drop, Vector.length_toList]
    exact Nat.sub_le _ _
  rw [putLongInteger?, hs, Option.bind_some, putBulk?_eq buf (by omega), hwritten]

theorem digit_of_nat (k : Nat) :
    48 + (Int64.ofNat k).toUInt64.toUInt8 = UInt8.ofNat (48 + k) := by
  rw [Int64.toUInt64_ofNat', UInt64.toUInt8_ofNat', UInt8.ofNat_add]
  rfl

/-- A small integer is written as the same bulk string as by the long way. -/
theorem putInteger?_eq (buf : Bytes) (n : Int64) :
    putInteger? buf n = some (buf ++ bulk (intBytes n.toInt)) := by
  unfold putInteger?
  split
  · rename_i hsmall
    obtain ⟨hlow, hhigh⟩ := hsmall
    have hlow : 0 ≤ n.toInt := Int64.le_iff_toInt_le.mp hlow
    have hhigh : n.toInt ≤ 99 := Int64.le_iff_toInt_le.mp hhigh
    obtain ⟨k, hk⟩ := Int.eq_ofNat_of_zero_le hlow
    have hn : n = Int64.ofNat k := by
      rw [← Int64.toInt_inj, hk, Int64.toInt_ofNat_of_lt (by omega)]
    have hbytes : intBytes n.toInt = natBytes k := by
      rw [hk, intBytes, if_neg (by omega), Int.natAbs_natCast]
    have hten : Int64.ofNat k < 10 ↔ k < 10 := by
      rw [Int64.lt_iff_toInt_lt, Int64.toInt_ofNat_of_lt (by omega)]
      exact Int.ofNat_lt
    rw [hbytes, hn]
    split
    · rename_i hone
      rw [natBytes_of_lt (hten.mp hone), bulk_one, digit_of_nat]
      simp [crlf]
    · rename_i htwo
      have hquotient : Int64.ofNat k / 10 = Int64.ofNat (k / 10) :=
        (Int64.ofNat_div (by omega) (by decide)).symm
      have hremainder : Int64.ofNat k % 10 = Int64.ofNat (k % 10) :=
        (Int64.ofNat_mod (by omega) (by decide)).symm
      rw [natBytes_of_lt_hundred (Nat.not_lt.mp (mt hten.mpr htwo)) (by omega), bulk_two,
        hquotient, hremainder, digit_of_nat, digit_of_nat]
      simp [crlf]
  · exact putLongInteger?_eq buf n

theorem putDouble?_eq (buf : Bytes) (x : Double) :
    putDouble? buf x = some (buf ++ bulk (Bytes.ofText (rendered x))) := by
  unfold putDouble?
  by_cases hshort : isShortWhole x = true
  · have htext : rendered x = intText x.toInt64.toInt := by simp [rendered, hshort]
    rw [if_pos hshort, putInteger?_eq, htext, ofText_intText]
  · have hlength := Argument.bytes_length (a := .double x) trivial
    rw [if_neg hshort, putBulk?_eq]
    rw [rendered_eq_doubleText]
    exact hlength

end Wire

namespace Argument

/-- Appends an argument. -/
def put? (buf : Bytes) : Argument → Option Bytes
  | literal l => Wire.putBulk? buf l.bytes
  | text s => Wire.putBulk? buf (Bytes.ofText s)
  | blob data => Wire.putBulk? buf data
  | integer n => Wire.putInteger? buf n
  | double x => Wire.putDouble? buf x
  | exclusive x => Wire.putBulk? buf (Bytes.ofText ("(" ++ rendered x))

/-- Every argument is appended as one bulk string of its contents. -/
theorem put?_eq (buf : Bytes) {a : Argument} (h : a.Fits) :
    a.put? buf = some (buf ++ Wire.bulk a.bytes) := by
  have hlength := bytes_length h
  cases a with
  | literal l => exact Wire.putBulk?_eq buf hlength
  | text s => exact Wire.putBulk?_eq buf hlength
  | blob data => exact Wire.putBulk?_eq buf hlength
  | integer n =>
      show Wire.putInteger? buf n = some (buf ++ Wire.bulk (Bytes.ofText (intText n.toInt)))
      rw [Wire.putInteger?_eq, ofText_intText]
  | double x =>
      show Wire.putDouble? buf x = some (buf ++ Wire.bulk (Bytes.ofText (doubleText x)))
      rw [Wire.putDouble?_eq, rendered_eq_doubleText]
  | exclusive x =>
      show Wire.putBulk? buf (Bytes.ofText ("(" ++ rendered x)) = _
      rw [rendered_eq_doubleText]
      exact Wire.putBulk?_eq buf hlength

/-- All ways of writing agree. An argument is one bulk string with a canonical length and its contents,
the bytes of a blob and the shown text of anything else, and this is what is appended piece by piece. An
integer comes out the same by the short way and by the long one, and a double carries the text that is
chosen for it, alone as well as in an exclusive bound. -/
theorem encodings_agree (buf : Bytes) (a : Argument) (n : Int64) (x : Double) :
    (a.encode = Wire.bulk a.bytes
        ∧ ∃ len, Canonical len ∧ Numeral len a.bytes.length
          ∧ Wire.bulk a.bytes = 36 :: len ++ crlf ++ a.bytes ++ crlf)
      ∧ (a.Fits → a.put? buf = some (buf ++ a.encode))
      ∧ (Wire.putInteger? buf n = some (buf ++ Wire.integer n)
          ∧ Wire.putLongInteger? buf n = some (buf ++ Wire.integer n)
          ∧ Wire.integer n = Wire.bulk (Bytes.ofText (intText n.toInt)))
      ∧ (Wire.putDouble? buf x = some (buf ++ Wire.double x)
          ∧ Wire.double x = Wire.bulk (Bytes.ofText (rendered x))
          ∧ (exclusive x).encode = Wire.bulk (Bytes.ofText ("(" ++ rendered x))) := by
  refine ⟨⟨encode_eq a, natBytes a.bytes.length, canonical_natBytes _, numeral_natBytes _, rfl⟩,
    fun hfits => ?_, ⟨?_, ?_, ?_⟩, ?_, ?_, ?_⟩
  · rw [encode_eq]
    exact put?_eq buf hfits
  · rw [Wire.integer_eq]
    exact Wire.putInteger?_eq buf n
  · rw [Wire.integer_eq]
    exact Wire.putLongInteger?_eq buf n
  · rw [Wire.integer_eq, ofText_intText]
  · rw [Wire.double_eq, ← rendered_eq_doubleText]
    exact Wire.putDouble?_eq buf x
  · rw [Wire.double_eq, rendered_eq_doubleText]
  · rw [rendered_eq_doubleText]
    rfl

/-- A text of one character has the length of its two bytes. -/
theorem encodings_agree_text :
    (text "é").Fits ∧ (text "é").put? [42] = some [42, 36, 50, 13, 10, 195, 169, 13, 10] := by
  have hfits : (text "é").Fits := by decide
  have hput := (encodings_agree [42] (text "é") 0 ⟨0⟩).2.1 hfits
  have hencode : (text "é").encode = [36, 50, 13, 10, 195, 169, 13, 10] := by decide +kernel
  rw [hencode] at hput
  exact ⟨hfits, hput⟩

end Argument

end RespMux
