import RespMux.Literal
import RespMux.Utf8
import RespMux.Wire

/-!
# Arguments of commands

Every argument is sent as one bulk string. What is sent is the text that `display` shows, except
for a blob, which is sent byte by byte.
-/

set_option autoImplicit false

namespace RespMux

/-- An argument. -/
inductive Argument where
  | literal (l : Literal)
  | text (s : String)
  | blob (data : Bytes)
  | integer (n : Int64)
  | double (x : Double)
  /-- the end of a range of scores that does not include the score itself -/
  | exclusive (x : Double)
  deriving DecidableEq, Repr, Inhabited

namespace Argument

/-- The argument as a reader sees it. -/
def display : Argument → String
  | literal l => l.text
  | text s => s
  | blob data => Utf8.lossy data
  | integer n => Decimal.intText n.toInt
  | double x => Decimal.doubleText x
  | exclusive x => "(" ++ Decimal.doubleText x

/-- The bulk string that is sent. -/
def encode : Argument → Bytes
  | literal l => Wire.bulk l.bytes
  | text s => Wire.bulk (Bytes.ofText s)
  | blob data => Wire.bulk data
  | integer n => Wire.integer n
  | double x => Wire.double x
  | exclusive x => Wire.bulk (Bytes.ofText ("(" ++ Decimal.doubleText x))

end Argument

end RespMux
