import RespMux.Duration
import RespMux.Error
import RespMux.Literal
import RespMux.Utf8

/-!
# Replies

A reply is what the server sends for one command: a status line, an error, an integer, a bulk
string or its null form, or an array of replies. The sixth kind, a timing, never comes from the
server: it takes the place of the successful reply to a timed ping.
-/

set_option autoImplicit false

namespace RespMux

/-- One reply. -/
inductive Reply where
  | status (text : Bytes)
  | error (text : String)
  | integer (n : Int64)
  /-- a bulk string, or null -/
  | bulk (data : Option Bytes)
  | multi (items : List Reply)
  /-- how long a ping waited to be sent, and how long the server took to answer it -/
  | timing (queued roundTrip : Duration)
  deriving Inhabited, Repr

namespace Reply

/-- The server reports an error. -/
def isError : Reply → Bool
  | error _ => true
  | _ => false

/-- The null bulk string. -/
def isNull : Reply → Bool
  | bulk none => true
  | _ => false

/-- The name of the kind of a reply. -/
def kind : Reply → String
  | status _ => "status"
  | error _ => "error"
  | integer _ => "integer"
  | bulk (some _) => "bulk"
  | bulk none => "null"
  | multi _ => "multi-bulk"
  | timing _ _ => "timing"

/-- A reply in one line for a reader. -/
def display : Reply → String
  | status t => Utf8.lossy t
  | error t => "(error) " ++ t
  | integer n => "(integer) " ++ Decimal.intText n.toInt
  | bulk (some data) =>
      match Utf8.text? data with
      | .ok t => "\"" ++ t ++ "\""
      | .error _ => "(binary data, " ++ Decimal.natText data.length ++ " bytes)"
  | bulk none => "(nil)"
  | multi items => "(array of " ++ Decimal.natText items.length ++ ")"
  | timing _ roundTrip => "(ping) " ++ roundTrip.text

/-- The bytes of a status or of a bulk string. -/
def payload? : Reply → Option Bytes
  | status t => some t
  | bulk data => data
  | _ => none

/-- Holds a reply against the acknowledgment it has to be. An error passes as it is, and so does
the word itself as a status or a bulk string; anything else becomes an error. -/
def expect (r : Reply) (l : Literal) : Reply :=
  if r.isError || r.payload? == some l.bytes then r
  else error ("Expected " ++ l.text ++ ", got " ++ r.display)

end Reply

end RespMux
