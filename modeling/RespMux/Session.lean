import RespMux.Connection.Handshake
import RespMux.Connection.Incoming
import RespMux.Connection.Outgoing
import RespMux.Session.Server

/-!
# A connection and its server

Both ends of a session, run to rest after every step of a caller: the outgoing pump writes what
is queued, the server reacts, the incoming pump handles every reply that has arrived whole, and
the handshake goes on when its ping is answered.
-/

set_option autoImplicit false

namespace RespMux

/-- A connection, its pumps and its server. -/
structure Session where
  /-- the outgoing pump, with the connection -/
  writer : Writer
  server : Server
  /-- the server cannot be reached -/
  refused : Bool := false
  /-- the pumps run -/
  started : Bool := false
  outgoingEnded : Bool := false
  incomingEnded : Bool := false
  /-- bytes from the server that are no whole reply yet -/
  unread : Bytes := []
  /-- the ping of a handshake that is not finished -/
  opening : Option CompletionId := none
  /-- the result of the handshake -/
  opened : Option (Except Error Unit) := none
  deriving Inhabited

namespace Session

/-- A connection that is not open yet, with a listener for its errors. -/
def new (config : Config) (script : List Reaction) (refused : Bool) : Session :=
  let c := Connection.new config
  { writer := { connection := { c with events := c.events.subscribe } }
    server := { script := script }
    refused := refused }

/-- The connection. -/
def connection (s : Session) : Connection := s.writer.connection

/-- Changes the connection. -/
def withConnection (s : Session) (c : Connection) : Session :=
  { s with writer := { s.writer with connection := c } }

/-- The completion with a number. -/
def completion (s : Session) (k : CompletionId) : Completion :=
  s.connection.store.completions[k]?.getD default

/-! ## Running to rest -/

/-- The outgoing pump writes what is queued, and ends with a closed queue. -/
def runOutgoing (s : Session) : Session :=
  if !s.started || s.outgoingEnded then s
  else
    let w := s.writer.drain
    let w := if w.connection.queue.isClosed then w.finish else w
    { s with
      writer := { w with written := [] }
      outgoingEnded := w.connection.queue.isClosed
      server := s.server.receive w.wire }

/-- Handles the whole replies that a reader holds; returns the bytes after them, and whether the
incoming pump has ended. Each reply takes a byte, so each needs a step less than the one before
it. -/
def readReplies (hungUp : Bool) : Nat → Reader → Connection → Bytes × Bool × Connection
  | 0, r, c => (r.leftover, false, c)
  | steps + 1, r, c =>
      match r.next (steps + 1) with
      | (.ended, _) =>
          if hungUp then ([], true, (c.receive .ended).2) else ([], false, c)
      | (.failed e, _) =>
          if e = .protocol .unexpectedEnd ∧ hungUp = false then (r.leftover, false, c)
          else ([], true, (c.receive (.failed e)).2)
      | (.reply reply, r) =>
          match c.receive (.reply reply) with
          | (true, c) => readReplies hungUp steps r c
          | (false, c) => ([], true, c)

/-- The incoming pump handles what has arrived. -/
def runIncoming (s : Session) : Session :=
  if !s.started || s.incomingEnded then s
  else
    let r : Reader := { source := [.bytes (s.unread ++ s.server.outbox)] }
    let (unread, ended, c) := readReplies s.server.hungUp (r.remaining + 1) r s.connection
    { s.withConnection c with
      server := { s.server with outbox := [] }
      unread := unread
      incomingEnded := ended }

/-- The handshake goes on if its ping has an outcome. -/
def runHandshake (s : Session) : Session :=
  match s.opening.bind fun k => (s.completion k).take?.1 with
  | none => s
  | some o =>
      let (result, c) := s.connection.finishOpening o
      { s.withConnection c with opening := none, opened := some result }

/-- Everybody does once what there is to do. -/
def pass (s : Session) : Session :=
  let s := s.runOutgoing
  { s with server := s.server.react }.runIncoming.runHandshake

/-- Runs to rest. In a second pass the outgoing pump notices that the incoming one has shut the
connection down. -/
def settle (s : Session) : Session := s.pass.pass

/-! ## Steps of a caller -/

/-- Why there is no way to the server, if there is none: it refuses, or writes to it may take no
time at all. -/
def obstacle? (s : Session) : Option Error :=
  if s.refused then some (.io "connection refused")
  else if s.connection.config.ioTimeout = some ⟨0⟩ then
    some (.io "cannot set a 0 duration timeout")
  else none

/-- Starts to open the connection. -/
def beginOpening (s : Session) : Session :=
  match s.connection.beginOpening, s.obstacle? with
  | (false, _), _ => { s with opened := some (.error Connection.alreadyOpened) }
  | (true, c), some e => { s.withConnection (c.connectFailed e) with opened := some (.error e) }
  | (true, c), none =>
      match c.queueHandshake with
      | (.error e, c) => { s.withConnection c with opened := some (.error e) }
      | (.ok k, c) => { s.withConnection c with started := true, opening := some k }.settle

/-- Waits for the result of opening. A handshake that is at rest without a result will not get
one in time. -/
def awaitOpening (s : Session) : Except Error Unit × Session :=
  match s.opened with
  | some result => (result, { s with opened := none })
  | none =>
      let (result, c) := s.connection.openingTimedOut
      (result, { s.withConnection c with opening := none }.settle)

/-- Opens the connection and waits for the result. A second attempt fails at once, and leaves a
first one that is under way alone. -/
def connect (s : Session) : Except Error Unit × Session :=
  match s.connection.state with
  | .fresh => s.beginOpening.awaitOpening
  | _ => (.error Connection.alreadyOpened, s)

/-- Asks for the end of the connection. -/
def close (s : Session) (abort : Bool) : Session :=
  (s.withConnection (s.connection.close abort)).settle

/-- Lets the server send one reply that it holds back. -/
def release (s : Session) : Session := { s with server := s.server.release }.settle

/-- Puts a completion back after a blocking reader has looked at it. -/
def withCompletion (s : Session) (k : CompletionId) (c : Completion) : Session :=
  s.withConnection
    { s.connection with
      store := s.connection.store.modifyCompletion k fun before => c.afterBlocking before }

/-- Waits until a completion has its outcome. If it has none at rest, the time runs out. -/
def wait (s : Session) (k : CompletionId) : Outcome × Session :=
  match (s.completion k).poll with
  | (some o, c) => (o, s.withCompletion k c)
  | (none, c) =>
      let s := s.withCompletion k c
      let (e, c) := s.connection.timeout
      (.error e, s.withConnection c)

/-- Fetches the outcomes of completions as far as they have them. -/
def fetch (s : Session) : List CompletionId → List Bool × Session
  | [] => ([], s)
  | k :: ks =>
      let (isReady, c) := (s.completion k).pollComplete
      let (rest, s) := (s.withCompletion k c).fetch ks
      (isReady :: rest, s)

/-- The wait for several completions has run out of time. -/
def timeOut {α : Type} (s : Session) : Except Error α × Session :=
  let (e, c) := s.connection.timeout
  (.error e, s.withConnection c)

/-- Waits until all completions have their outcome. -/
def waitAll (s : Session) (ks : List CompletionId) : Except Error Unit × Session :=
  let (ready, s) := s.fetch ks
  if ready.all id then (.ok (), s) else s.timeOut

/-- Fetches the outcomes of completions up to the first that has one, and returns its position
counted from `n`. -/
def fetchFirst (s : Session) (n : Nat) : List CompletionId → Option Nat × Session
  | [] => (none, s)
  | k :: ks =>
      match (s.completion k).pollComplete with
      | (true, c) => (some n, s.withCompletion k c)
      | (false, c) => (s.withCompletion k c).fetchFirst (n + 1) ks

/-- Waits until one of the completions has its outcome, and returns the position of the first
that has. -/
def waitAny (s : Session) (ks : List CompletionId) : Except Error Nat × Session :=
  match s.fetchFirst 0 ks with
  | (some n, s) => (.ok n, s)
  | (none, s) => s.timeOut

/-- Ends the session: the connection is closed gracefully and all transactions are dropped. -/
def finish (s : Session) : Session :=
  let s := s.close false
  s.withConnection s.connection.discardAll

end Session

end RespMux
