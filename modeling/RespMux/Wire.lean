import RespMux.Decimal.Layout

/-!
# Writing commands

A command travels as an array of bulk strings: the line `*n` with the number of strings, and for
each of them the line `$len`, its bytes and a line end. Numbers are bulk strings too.
-/

set_option autoImplicit false

namespace RespMux.Wire

/-- The first line of a command with so many arguments; the command itself counts as well. The
count is a signed 64-bit integer, like every integer of the protocol. -/
def header (arguments : Nat) : Bytes :=
  42 :: Decimal.intBytes (Int64.ofNat (arguments + 1)).toInt ++ crlf

/-- One bulk string. -/
def bulk (data : Bytes) : Bytes :=
  36 :: Decimal.natBytes data.length ++ crlf ++ data ++ crlf

/-- The digit of a number below ten. -/
def digit (n : Nat) : UInt8 := UInt8.ofNat (48 + n)

/-- An integer as a bulk string. Up to 99 the length and the digits are written directly. -/
def integer (n : Int64) : Bytes :=
  if 0 ≤ n.toInt ∧ n.toInt < 10 then
    [36, 49, 13, 10, digit n.toInt.toNat, 13, 10]
  else if 0 ≤ n.toInt ∧ n.toInt < 100 then
    [36, 50, 13, 10, digit (n.toInt.toNat / 10), digit (n.toInt.toNat % 10), 13, 10]
  else bulk (Decimal.intBytes n.toInt)

/-- A double as a bulk string; a short whole number is written as an integer. -/
def double (x : Double) : Bytes :=
  match Decimal.shortWhole? x with
  | some n => integer (Int64.ofInt n)
  | none => bulk (Bytes.ofText (Decimal.doubleText x))

end RespMux.Wire
