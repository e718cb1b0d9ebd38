import RespMux.Config
import RespMux.Counters
import RespMux.EventLog
import RespMux.Ledger

/-!
# The state of a connection

What the callers, the two pumps and the transactions of one connection share: the queue of
messages to send, the ledger of those sent, the counters, the lifecycle and the listener for
errors. Each operation is one step; the pumps (`Connection/Outgoing`, `Connection/Incoming`) are
made of such steps.

A connection moves only forward in its lifecycle. `close` asks for the end, gracefully or not;
`shutdown` is the end: it happens once, and whatever is still waiting fails with its cause.
-/

set_option autoImplicit false

namespace RespMux

/-- Where a connection is in its life. -/
inductive Lifecycle where
  | fresh | opening | established | closing | closed
  deriving DecidableEq, Repr, Inhabited

/-- The shared state of a connection. -/
structure Connection where
  config : Config
  store : Store := {}
  queue : PriorityQueue MessageId
  ledger : Ledger := {}
  counters : Counters := {}
  state : Lifecycle := .fresh
  events : EventLog
  /-- messages that are still queued are to fail -/
  aborting : Bool := false
  /-- the connection has been torn down -/
  isShutDown : Bool := false
  /-- the commands that transactions have collected -/
  transactions : Array (PriorityQueue MessageId) := #[]
  deriving Inhabited

namespace Connection

/-- A connection that has not been opened. -/
def new (config : Config) : Connection :=
  { config := config
    queue := .withLimit config.maxUnsent
    events := .withCapacity config.eventCapacity }

/-- How many messages are not answered, sent or not. -/
def outstanding (c : Connection) : Nat := c.queue.length + c.ledger.length

/-- The counters as they are now. -/
def snapshot (c : Connection) : Snapshot := c.counters.snapshot c.queue.length c.ledger.length

/-- The oldest frame in flight as it is named in messages. -/
def oldest? (c : Connection) : Option String :=
  c.ledger.entries.head?.map c.store.displayInFlight

/-- Counts one more event. -/
def count (c : Connection) (t : Traffic) : Connection :=
  { c with counters := c.counters.count t }

/-- Tells the listener of an error. -/
def emit (c : Connection) (error : Error) (cause : String) (fatal : Bool) : Connection :=
  { c with events := c.events.publish ⟨error, cause, fatal⟩ }

/-- The error of a wait that ran out of time, which is counted. -/
def timeout (c : Connection) : Error × Connection :=
  (.timeout c.oldest?, c.count .timeout)

/-- Moves on in the lifecycle if the connection is in one of the states `origins`. -/
def transition (c : Connection) (origins : List Lifecycle) (target : Lifecycle) :
    Bool × Connection :=
  if origins.contains c.state then (true, { c with state := target }) else (false, c)

/-- Puts a message into the queue; none if the caller has to wait for room. -/
def enqueue (c : Connection) (id : MessageId) (priority : Priority) :
    Option (Except Error Connection) :=
  match c.queue.enqueue id priority with
  | .done (.ok ()) queue _ => some (.ok { c with queue := queue })
  | .done (.error _) _ _ => some (.error .queueClosed)
  | .wait => none

/-- Tears the connection down, once: nothing is taken any more, the listener hears of the error
if there is one, and what was sent and then what was queued fails with the cause. -/
def shutdown (c : Connection) (cause : String) (error : Option Error) : Connection :=
  if c.isShutDown then c
  else
    let c := { c with isShutDown := true, aborting := true, state := .closed }
    let c :=
      match error with
      | some e => c.emit e cause true
      | none => c
    let (unanswered, ledger) := c.ledger.closeAndDrain
    let (unsent, queue) := c.queue.close.drain
    let terminated : Error := .connectionTerminated cause
    let store := unanswered.foldl (fun s f => s.failInFlight f terminated) c.store
    let store := unsent.foldl (fun s id => s.fail id terminated) store
    { c with ledger := ledger, queue := queue, store := store }

/-- Asks for the end of the connection. Gracefully, what is queued is still sent; with `abort`
it fails. A connection that was never opened ends at once. -/
def close (c : Connection) (abort : Bool) : Connection :=
  let c := if abort then { c with aborting := true } else c
  match c.state with
  | .fresh => c.shutdown "closed before opening" none
  | .opening | .established => { c with state := .closing, queue := c.queue.close }
  | .closing | .closed => if abort then { c with queue := c.queue.close } else c

/-- What the queue, the ledger and the transactions hold. -/
def held (c : Connection) : List MessageId :=
  c.queue.toList ++ c.transactions.toList.flatMap PriorityQueue.toList
    ++ c.ledger.entries.flatMap fun
      | .message id => [id]
      | .exec b => b.members

/-- The completers that blocks in flight hold. -/
def heldCompleters (c : Connection) : List Completer :=
  c.ledger.entries.filterMap fun
    | .message _ => none
    | .exec b => b.done

/-- Lets go of everything that is held nowhere. -/
def letGo (c : Connection) : Connection :=
  { c with store := c.store.retain c.held c.heldCompleters }

/-- Takes the next message out of the queue and lets go of it. -/
def discardNext (c : Connection) : Option (MessageId × Bool) × Connection :=
  match c.queue.next? with
  | some (item, queue, _) => (some item, { c with queue := queue }.letGo)
  | none => (none, c)

/-- Takes the oldest frame out of the ledger and lets go of it. -/
def discardOldest (c : Connection) : Option InFlight × Connection :=
  match c.ledger.pop? with
  | some (f, ledger) => (some f, { c with ledger := ledger }.letGo)
  | none => (none, c)

end Connection

end RespMux
