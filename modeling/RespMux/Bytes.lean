/-!
# Byte strings

What travels on a connection is a list of bytes. Text is sent as the UTF-8 encoding of its
characters, and every line of the protocol ends with the two bytes `crlf`.
-/

set_option autoImplicit false

namespace RespMux

/-- A byte string. -/
abbrev Bytes := List UInt8

/-- The UTF-8 encoding of a text. -/
def Bytes.ofText (s : String) : Bytes := s.toList.flatMap String.utf8EncodeChar

/-- The line end of the protocol: carriage return, line feed. -/
def crlf : Bytes := [13, 10]

theorem Bytes.ofText_append (s t : String) :
    Bytes.ofText (s ++ t) = Bytes.ofText s ++ Bytes.ofText t := by
  simp [Bytes.ofText]

end RespMux
