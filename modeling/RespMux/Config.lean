import RespMux.PriorityQueue
import RespMux.Duration

/-!
# The configuration of a connection

What a caller decides before a connection is opened. Everything has a default: a server on this
machine, no password, no limit on the messages that wait, and five to ten seconds of patience.
-/

set_option autoImplicit false

namespace RespMux

/-- How a connection reaches its server, and its limits. -/
structure Config where
  host : String := "127.0.0.1"
  port : UInt16 := 6379
  /-- sent before anything else, if given -/
  password : Option String := none
  /-- how many messages wait in the standard lane before callers have to wait -/
  maxUnsent : Nat := PriorityQueue.unlimited
  /-- how long blocking helpers and the handshake wait -/
  syncTimeout : Duration := .ofSeconds 10 0
  /-- how long a write may take, if limited -/
  ioTimeout : Option Duration := none
  /-- how long connecting may take -/
  connectTimeout : Duration := .ofSeconds 5 0
  /-- how many unread error events are kept -/
  eventCapacity : Nat := 64
  deriving DecidableEq, Repr, Inhabited

namespace Config

/-- The configuration for a server at the given place. -/
def ofAddress (host : String) (port : UInt16) : Config := { host := host, port := port }

/-- The place of the server. -/
def address (c : Config) : String := c.host ++ ":" ++ Decimal.natText c.port.toNat

/-- At least one event is kept. -/
def withEventCapacity (c : Config) (n : Nat) : Config := { c with eventCapacity := max n 1 }

end Config

end RespMux
