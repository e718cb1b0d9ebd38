import RespMux.Bytes

/-!
# Decimal digits

Digits at the start of a byte string, and the number that digits spell. `ofDigits` says what a
list of digits means; `number` finds the same number in fewer steps, by joining neighbours into
digits of the squared base until one digit is left.
-/

set_option autoImplicit false

namespace RespMux.Decimal

/-! ## In a byte string -/

/-- An ASCII digit. -/
def isDigit (b : UInt8) : Bool := 48 ≤ b && b ≤ 57

/-- The value of an ASCII digit. -/
def digitValue (b : UInt8) : Nat := b.toNat - 48

/-- The leading digits of a byte string and what follows them. -/
def spanDigits (bs : Bytes) : List Nat × Bytes :=
  ((bs.takeWhile isDigit).map digitValue, bs.dropWhile isDigit)

/-! ## The number -/

/-- The number with these digits in a base, the lowest digit first. -/
def ofDigits (base : Nat) : List Nat → Nat
  | [] => 0
  | d :: ds => d + base * ofDigits base ds

/-- Two neighbours make one digit in the squared base. -/
def joinPairs (base : Nat) : List Nat → List Nat
  | low :: high :: ds => (low + base * high) :: joinPairs base ds
  | ds => ds

theorem ofDigits_joinPairs (base : Nat) (ds : List Nat) :
    ofDigits (base * base) (joinPairs base ds) = ofDigits base ds := by
  fun_induction joinPairs base ds with
  | case1 low high ds ih =>
      simp only [ofDigits, ih, Nat.mul_add, Nat.mul_assoc, Nat.add_assoc]
  | case2 ds h =>
      match ds, h with
      | [], _ => rfl
      | [d], _ => simp [ofDigits]
      | low :: high :: ds, h => exact absurd rfl (h low high ds)

/-- The number with these digits in a base, the lowest digit first. Each round halves their
count. -/
def joinDigits : Nat → Nat → List Nat → Nat
  | _, _, [] => 0
  | _, _, [d] => d
  | 0, base, ds => ofDigits base ds
  | rounds + 1, base, ds => joinDigits rounds (base * base) (joinPairs base ds)

/-- However many rounds are made, the number is the same. -/
theorem joinDigits_eq (rounds base : Nat) (ds : List Nat) :
    joinDigits rounds base ds = ofDigits base ds := by
  fun_induction joinDigits rounds base ds with
  | case1 => rfl
  | case2 => simp [ofDigits]
  | case3 => rfl
  | case4 rounds base ds _ _ ih => rw [ih, ofDigits_joinPairs]

/-- The number that decimal digits spell, the highest digit first. No list is so long that 64
rounds are not enough to halve it to one digit. -/
def number (ds : List Nat) : Nat := joinDigits 64 10 ds.reverse

theorem number_eq (ds : List Nat) : number ds = ofDigits 10 ds.reverse :=
  joinDigits_eq 64 10 ds.reverse

end RespMux.Decimal
