import RespMux.Connection
import RespMux.Reader.Replies

/-!
# Incoming replies

Each reply goes to the oldest frame in flight. It is held against what the request expects, and
the result completes the message. An error is counted and published, and is otherwise a matter of
that one message, unless the request was critical: then the connection is shut down.

The reply to a block is its results, each of which goes to the message in its slot in the same
way.
-/

set_option autoImplicit false

namespace RespMux

/-- The reply as it counts for the request. -/
def Request.judge (q : Request) (r : Reply) : Reply :=
  match q.expected with
  | some l => r.expect l
  | none => r

namespace Connection

/-- Completes a message with the reply to it. The failure of a critical request is returned; the
message has received its error by then. -/
def answer (c : Connection) (id : MessageId) (r : Reply) : Option Error × Connection :=
  let q := c.store.requestOf id
  let r := q.judge r
  let done := { c with store := c.store.complete id r }
  match r with
  | .error t =>
      if q.critical then (some (.criticalFailure q.display t), done)
      else (none, (done.count .error).emit (.server t) q.display false)
  | _ => (none, done)

/-- Gives the results to the slots of a block, in order, and returns the first failure of a
critical request. -/
def answerSlots (c : Connection) : List (Option MessageId × Reply) → Option Error × Connection
  | [] => (none, c)
  | (none, _) :: rest => c.answerSlots rest
  | (some id, r) :: rest =>
      let (failure, c) := c.answer id r
      let (later, c) := c.answerSlots rest
      (failure.or later, c)

/-- Gives a block its reply. -/
def answerBlock (c : Connection) (b : Block) (r : Reply) : Connection :=
  match b.results? r with
  | .error e => { c with store := c.store.failBlock b e }
  | .ok results =>
      let (failure, c) := c.answerSlots (b.slots.zip results)
      let c :=
        match b.done with
        | some k =>
            { c with store := c.store.deliver k (k.shape.extract (.status Literal.ok.bytes)) }
        | none => c
      match failure with
      | some e => c.shutdown "a critical command failed" (some e)
      | none => c

/-- Gives a frame in flight its reply. An error in place of the results of a block counts like
an error of a single message. -/
def answerInFlight (c : Connection) (f : InFlight) (r : Reply) : Option Error × Connection :=
  match f with
  | .message id => c.answer id r
  | .exec b =>
      let done := c.answerBlock b r
      match r with
      | .error t => (none, (done.count .error).emit (.server t) Literal.exec.text false)
      | _ => (none, done)

/-- Matches a reply with the oldest frame in flight. The error that is returned is fatal for the
connection. -/
def processReply (c : Connection) (r : Reply) : Option Error × Connection :=
  match c.ledger.pop? with
  | none => (some (.protocol (.unexpectedReply r.display)), c)
  | some (f, ledger) => ({ c with ledger := ledger }.count .received).answerInFlight f r

/-! ## The incoming pump -/

/-- The cause of a shutdown after a fatal error. -/
def fatalCause : Error → String
  | .criticalFailure _ _ => "a critical command failed"
  | _ => "protocol error"

/-- What the pump does with one result of reading; false if it ends. -/
def receive (c : Connection) (o : Reader.Outcome) : Bool × Connection :=
  match o with
  | .reply r =>
      match c.processReply r with
      | (none, c) => (true, c)
      | (some e, c) => (false, c.shutdown (fatalCause e) (some e))
  | .ended =>
      let error :=
        if c.ledger.entries.isEmpty then none
        else some (.connectionTerminated "end of stream with requests pending")
      (false, c.shutdown "the server closed the connection" error)
  | .failed e => (false, c.shutdown "error reading from the connection" (some e))

/-- Handles the results of reading until the pump ends. -/
def receiveAll (c : Connection) : List Reader.Outcome → Connection
  | [] => c
  | o :: rest =>
      match c.receive o with
      | (true, c) => c.receiveAll rest
      | (false, c) => c

/-- Runs the incoming pump over a source until its end. -/
def runIncoming (c : Connection) (r : Reader) : Connection := c.receiveAll r.all.1

end Connection

end RespMux
