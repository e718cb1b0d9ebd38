import RespMux.Decimal.Integer
import RespMux.Text

/-!
# What can go wrong

`ParseError` lists the ways in which the bytes of a server can fail to be a reply, `Error` the
ways in which a command or a connection can fail. Both are causes; `message` is the text that a
user reads.
-/

set_option autoImplicit false

namespace RespMux

/-! ## Replies that cannot be read -/

/-- Why bytes from the server are no reply. -/
inductive ParseError where
  /-- a frame starts with this byte, which is no type mark -/
  | unknownMark (byte : UInt8)
  /-- this text is no 64-bit integer -/
  | invalidInteger (text : String)
  /-- a bulk string of this negative length -/
  | invalidBulkLength (n : Int64)
  /-- an array of this negative length -/
  | invalidArrayLength (n : Int64)
  /-- a frame that is malformed in another way -/
  | malformed (text : String)
  /-- the stream ends inside a frame -/
  | unexpectedEnd
  /-- a reply that no request waits for, as it is displayed -/
  | unexpectedReply (text : String)
  deriving DecidableEq, Repr, Inhabited

/-- The text of a parse error. -/
def ParseError.message : ParseError → String
  | .unknownMark b => "unknown type prefix: 0x" ++ Text.hexByte b
  | .invalidInteger t => "invalid integer: " ++ t
  | .invalidBulkLength n => "invalid bulk string length: " ++ Decimal.intText n.toInt
  | .invalidArrayLength n => "invalid array length: " ++ Decimal.intText n.toInt
  | .malformed t => "protocol error: " ++ t
  | .unexpectedEnd => "unexpected end of stream"
  | .unexpectedReply t => "unexpected reply: " ++ t

/-! ## Commands and connections that fail -/

/-- Why a command or a connection failed. -/
inductive Error where
  /-- the server answered with an error, or not with the acknowledgment the command requires -/
  | server (text : String)
  /-- the reply is of a kind that cannot give the value asked for -/
  | typeMismatch (expected actual : String)
  /-- the reply is of the right kind, but its content cannot be read -/
  | invalidValue (text : String)
  /-- the server does not keep to the protocol -/
  | protocol (cause : ParseError)
  /-- reading or writing failed -/
  | io (text : String)
  /-- the caller took the command back before it was written -/
  | cancelled
  /-- the connection was aborted while the command was still queued -/
  | aborted
  /-- the connection went away before a reply arrived -/
  | connectionTerminated (text : String)
  /-- the queue takes no more messages -/
  | queueClosed
  /-- a wait ran out of time; the oldest unanswered request, if there is one -/
  | timeout (pending : Option String)
  /-- a message carries only one completion -/
  | completionAssigned
  /-- a command that must succeed failed -/
  | criticalFailure (command text : String)
  /-- a transaction block did not unpack -/
  | transaction (text : String)
  /-- the connection is not in the state for the operation -/
  | invalidState (text : String)
  deriving DecidableEq, Repr, Inhabited

namespace Error

/-- The text of an error. -/
def message : Error → String
  | server t => "server error: " ++ t
  | typeMismatch e a => "type mismatch: expected " ++ e ++ ", got " ++ a
  | invalidValue t => "invalid value: " ++ t
  | protocol p => "protocol error: " ++ p.message
  | io t => "I/O error: " ++ t
  | cancelled => "the command was cancelled"
  | aborted => "the system aborted before this message was sent"
  | connectionTerminated t => "connection terminated: " ++ t
  | queueClosed => "the queue is closed"
  | timeout (some oldest) => "the operation timed out; oldest pending request: " ++ oldest
  | timeout none => "the operation timed out"
  | completionAssigned => "a completion is already assigned to this message"
  | criticalFailure c t => "critical command " ++ c ++ " failed: " ++ t
  | transaction t => "transaction failed: " ++ t
  | invalidState t => "invalid state: " ++ t

/-- The server reported the error for one command. -/
def isServerError : Error → Bool
  | server _ => true
  | _ => false

/-- The caller cancelled the command. -/
def isCancelled : Error → Bool
  | cancelled => true
  | _ => false

/-- Only the waiting side is concerned. -/
def isTimeout : Error → Bool
  | timeout _ => true
  | _ => false

end Error

end RespMux
