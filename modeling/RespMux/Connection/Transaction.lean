import RespMux.Connection
import RespMux.Executor

/-!
# Transactions and submissions

A transaction collects the commands of one block before any of them is sent. Executing it sends
them as a batch, discarding it cancels them. A caller submits a command to the connection itself
or to one of its transactions.
-/

set_option autoImplicit false

namespace RespMux

namespace Connection

/-- The connection itself, which sends what it takes. -/
def sender : Executor Connection where
  store c := c.store
  withStore c s := { c with store := s }
  enqueue := enqueue

/-! ## Transactions -/

/-- The commands that a transaction has collected. -/
def collected (c : Connection) (t : Nat) : PriorityQueue MessageId :=
  c.transactions[t]?.getD (.withLimit PriorityQueue.unlimited)

/-- Starts a transaction. -/
def newTransaction (c : Connection) : Nat × Connection :=
  (c.transactions.size,
    { c with transactions := c.transactions.push (.withLimit PriorityQueue.unlimited) })

/-- Changes what a transaction has collected. -/
def setCollected (c : Connection) (t : Nat) (q : PriorityQueue MessageId) : Connection :=
  { c with transactions := c.transactions.setIfInBounds t q }

/-- A transaction of the connection, which collects what it takes. -/
def collector (t : Nat) : Executor Connection where
  store c := c.store
  withStore c s := { c with store := s }
  enqueue c id priority :=
    match (c.collected t).enqueue id priority with
    | .done (.ok ()) q _ => some (.ok (c.setCollected t q))
    | .done (.error _) _ _ => some (.error .queueClosed)
    | .wait => none

/-- Sends what a transaction has collected as one batch; none if the caller has to wait. Without
a command there is nothing to send, and the result is there at once. -/
def executeTransaction (c : Connection) (t : Nat) (priority : Priority) :
    Option (CompletionId × Connection) :=
  let (members, q) := (c.collected t).drain
  let c := c.setCollected t q
  if members.isEmpty then
    let (k, s) := c.store.addCompletion (.ready (.ok .unit))
    some (k, { c with store := s })
  else
    let (id, s) := c.store.batch members
    sender.submit { c with store := s } id priority .unit

/-- Cancels what a transaction has collected and says how many commands that were. -/
def discardTransaction (c : Connection) (t : Nat) : Nat × Connection :=
  let (members, q) := (c.collected t).drain
  let c := c.setCollected t q
  (members.length, { c with store := members.foldl (fun s id => (s.cancel id).2) c.store })

/-- Discards all transactions. -/
def discardAll (c : Connection) : Connection :=
  (List.range c.transactions.size).foldl (fun c t => (c.discardTransaction t).2) c

/-! ## Callers -/

/-- Where a caller submits a command. -/
inductive Target where
  | connection
  | transaction (t : Nat)
  deriving DecidableEq, Repr, Inhabited

/-- The executor at a target. -/
def executor : Target → Executor Connection
  | .connection => sender
  | .transaction t => collector t

/-- Submits a request for a result of the given shape; none if the caller has to wait. -/
def submit (c : Connection) (target : Target) (r : Request) (priority : Priority)
    (shape : Shape) : Option (CompletionId × Connection) :=
  let (id, s) := c.store.create r
  (executor target).submit { c with store := s } id priority shape

/-- Submits a request without a completion. -/
def post (c : Connection) (r : Request) (priority : Priority) :
    Option (Option Error × Connection) :=
  let (id, s) := c.store.create r
  match { c with store := s }.enqueue id priority with
  | none => none
  | some (.ok c) => some (none, c)
  | some (.error e) => some (some e, { c with store := s })

/-- Records a request as sent without sending it. A refused one is let go of. -/
def record (c : Connection) (r : Request) (shape : Shape) :
    CompletionId × Option Error × Connection :=
  let (id, s) := c.store.create r
  let (k, s) := s.addCompletion {}
  let s := s.modify id fun m => { m with sink := .assigned ⟨k, shape⟩ }
  let c := { c with store := (s.markSent id).2 }
  match c.ledger.push (.message id) with
  | .ok ledger => (k, none, { c with ledger := ledger })
  | .error e => (k, some e, c.letGo)

end Connection

end RespMux
