import RespMux.Decimal.Digits

/-!
# Integers in decimal

Signed 64-bit integers and their decimal text. A numeral is one or more ASCII digits, with a
minus sign in front if the value is negative; leading zeros and a negative zero are read, but
never written. `readInteger?` reads the numerals of the protocol; `readSigned?` also takes a
plus sign, as a number inside a text may have one. A value outside the 64-bit range is refused
however many digits it is written with.
-/

set_option autoImplicit false

namespace RespMux.Decimal

/-- The value of one or more digits. -/
def natural? (bs : Bytes) : Option Nat :=
  match spanDigits bs with
  | ([], _) => none
  | (_, _ :: _) => none
  | (ds, []) => some (number ds)

/-- The 64-bit integer of this value, if there is one. -/
def int64? (n : Int) : Option Int64 :=
  if Int64.minValue.toInt ≤ n ∧ n ≤ Int64.maxValue.toInt then some (Int64.ofInt n) else none

/-- Reads an optional minus sign and one or more digits. -/
def readInteger? : Bytes → Option Int64
  | 45 :: bs => (natural? bs).bind fun n => int64? (-(n : Int))
  | bs => (natural? bs).bind fun n => int64? n

/-- Reads an optional sign of either kind and one or more digits. -/
def readSigned? : Bytes → Option Int64
  | 43 :: bs => (natural? bs).bind fun n => int64? n
  | bs => readInteger? bs

/-- The digits of a natural number, the most significant first. -/
def natBytes (n : Nat) : Bytes := (Nat.toDigits 10 n).map fun c => UInt8.ofNat c.toNat

/-- The decimal bytes of an integer. -/
def intBytes (n : Int) : Bytes := if n < 0 then 45 :: natBytes n.natAbs else natBytes n.natAbs

/-- The decimal text of a natural number. -/
def natText (n : Nat) : String := String.ofList (Nat.toDigits 10 n)

/-- The decimal text of an integer. -/
def intText (n : Int) : String := if n < 0 then "-" ++ natText n.natAbs else natText n.natAbs

theorem int64?_eq_some_iff {n : Int} {i : Int64} :
    int64? n = some i ↔ n = i.toInt := by
  unfold int64?
  constructor
  · intro h
    split at h
    · rename_i hn
      rw [← Option.some.inj h]
      have hmin : Int64.minValue.toInt = -9223372036854775808 := by decide
      have hmax : Int64.maxValue.toInt = 9223372036854775807 := by decide
      exact (Int64.toInt_ofInt_of_le (by omega) (by omega)).symm
    · cases h
  · rintro rfl
    rw [if_pos ⟨i.minValue_le_toInt, i.toInt_le⟩, Int64.ofInt_toInt]

end RespMux.Decimal
