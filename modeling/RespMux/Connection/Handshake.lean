import RespMux.Connection.Transaction

/-!
# Opening a connection

A connection is opened once. When the server is reached, the password, if there is one, and a
timed ping are queued in front of everything in the standard lane, and both pumps start. The
connection is open when the ping has been answered in time, and lost if it is not.
-/

set_option autoImplicit false

namespace RespMux

/-- The ping of the handshake. -/
def Request.handshakePing : Request :=
  { Request.ping with expected := some .pong, critical := true }

namespace Connection

/-- Starts to open the connection; false if that has been done before. -/
def beginOpening (c : Connection) : Bool × Connection := c.transition [.fresh] .opening

/-- The failure of a connection that was opened before. -/
def alreadyOpened : Error := .invalidState "the connection has already been opened"

/-- The server could not be reached. -/
def connectFailed (c : Connection) (e : Error) : Connection :=
  c.shutdown "connect failed" (some e)

/-- Queues the handshake. The result is the completion of its ping, or the failure for which the
connection is shut down. -/
def queueHandshake (c : Connection) : Except Error CompletionId × Connection :=
  let authenticated : Option Error × Connection :=
    match c.config.password with
    | none => (none, c)
    | some password => (c.post (.auth password) .high).getD (none, c)
  match authenticated with
  | (some e, c) => (.error e, c.shutdown "failed to start the connection" (some e))
  | (none, c) =>
      match c.submit .connection .handshakePing .high .integer with
      | some (k, c) => (.ok k, c)
      | none => (.error .queueClosed, c)

/-- The handshake has its result. -/
def finishOpening (c : Connection) (ping : Outcome) : Except Error Unit × Connection :=
  match ping with
  | .ok _ =>
      match c.transition [.opening] .established with
      | (true, c) => (.ok (), c)
      | (false, c) =>
          (.error (.invalidState "the connection was closed during the handshake"), c)
  | .error e => (.error e, c.shutdown "handshake failed" (some e))

/-- The handshake took too long. -/
def openingTimedOut (c : Connection) : Except Error Unit × Connection :=
  let (e, c) := c.timeout
  (.error e, c.shutdown "handshake timed out" (some e))

end Connection

end RespMux
