import RespMux.Connection

/-!
# Outgoing messages

The pump takes messages out of the queue and writes them. Before a frame is written it is put
into the ledger, so that no reply can come before its entry.

A message for a database is preceded by a choice of that database, unless it is known to be
selected. A choice made by a caller counts as well. Inside a transaction block a choice takes
effect only if the block runs, so after a block with a choice the selected database is unknown.
-/

set_option autoImplicit false

namespace RespMux

/-- A pump at work. -/
structure Writer where
  connection : Connection
  /-- the database that the server has selected, as far as it is known -/
  selected : Option Database := some 0
  /-- recorded, but not flushed -/
  buffer : List InFlight := []
  /-- flushed, in order -/
  written : List InFlight := []
  /-- the text with which every write fails, if it does -/
  broken : Option String := none
  /-- the failure that ends the pump -/
  fault : Option Error := none
  deriving Inhabited

namespace Writer

/-! ## Frames -/

/-- Does the next thing, unless the pump has failed. -/
def next (w : Writer) (f : Writer → Writer) : Writer := if w.fault.isSome then w else f w

/-- Changes the store. -/
def withStore (w : Writer) (s : Store) : Writer :=
  { w with connection := { w.connection with store := s } }

/-- Counts one more event. -/
def count (w : Writer) (t : Traffic) : Writer :=
  { w with connection := w.connection.count t }

/-- Counts the use of a database. -/
def useDatabase (w : Writer) (db : Database) : Writer :=
  { w with
    connection := { w.connection with counters := w.connection.counters.useDatabase db } }

/-- Records a frame and puts it into the buffer. What waits for a frame that cannot be recorded
fails. -/
def push (w : Writer) (f : InFlight) : Writer :=
  match w.connection.ledger.push f with
  | .ok ledger =>
      { w with
        connection := { w.connection with ledger := ledger }.count .sent
        buffer := w.buffer ++ [f] }
  | .error e => { w.withStore (w.connection.store.failInFlight f e) with fault := some e }

/-- Writes a message of the pump itself. -/
def pushOwn (w : Writer) (r : Request) : Writer :=
  let (id, s) := w.connection.store.create r
  (w.withStore (s.markSent id).2).push (.message id)

/-- Writes a message inside a block. -/
def pushEnvelope (w : Writer) (id : MessageId) : Writer :=
  let (envelope, s) := w.connection.store.envelope id
  (w.withStore (s.markSent envelope).2).push (.message envelope)

/-- Writes the buffer to the server. -/
def flush (w : Writer) : Writer :=
  if w.buffer.isEmpty then w
  else
    match w.broken with
    | some t => { w with fault := some (.io t) }
    | none => { w with written := w.written ++ w.buffer, buffer := [] }

/-! ## Single messages -/

/-- Has the server select a database, if it is not known to have done so. -/
def select (w : Writer) (db : Database) : Writer :=
  if w.selected = some db then w
  else (w.pushOwn (.select db)).next fun w => { w with selected := some db }

/-- Writes a message that is no batch. -/
def writeMessage (w : Writer) (id : MessageId) : Writer :=
  match w.connection.store.messages[id]? with
  | none => w
  | some m =>
      if m.isSelect then { w with selected := m.request.db }.push (.message id)
      else
        match m.request.db with
        | none => w.push (.message id)
        | some db =>
            (w.select db).next fun w => (w.useDatabase db).push (.message id)

/-! ## Transaction blocks -/

/-- A block that is being written. -/
structure BlockWriter where
  writer : Writer
  /-- the database that the commands of the block run in from here on, as far as it is known -/
  db : Option Database
  /-- the block chooses a database -/
  switched : Bool := false
  /-- one for each command that the server has queued -/
  slots : List (Option MessageId) := []
  deriving Inhabited

namespace BlockWriter

/-- Puts a choice of a database into the block. -/
def pushSelect (b : BlockWriter) (db : Database) : BlockWriter :=
  let (id, s) := b.writer.connection.store.create (.select db)
  { b with writer := (b.writer.withStore s).pushEnvelope id, slots := b.slots ++ [none] }

/-- Moves the block to the database of a message, which may be a choice of it by itself. -/
def moveTo (b : BlockWriter) (db : Database) (isSelect : Bool) : BlockWriter :=
  if b.db = some db then b
  else
    let b := if isSelect then b else b.pushSelect db
    { b with db := some db, switched := true }

/-- Writes one member of a block, unless it has been cancelled. -/
def writeMember (b : BlockWriter) (id : MessageId) : BlockWriter :=
  if b.writer.fault.isSome then b
  else
    match b.writer.connection.store.messages[id]?, b.writer.connection.store.markSent id with
    | some m, (true, s) =>
        let b := { b with writer := b.writer.withStore s }
        let b :=
          match m.request.db with
          | none => b
          | some db =>
              let b := b.moveTo db m.isSelect
              { b with writer := b.writer.next fun w => w.useDatabase db }
        { b with
          writer := b.writer.next fun w => w.pushEnvelope id
          slots := b.slots ++ [some id] }
    | _, _ =>
        { b with writer := b.writer.count .cancelled }

end BlockWriter

/-- Writes a transaction as one block: its start, an envelope for each member that has not been
cancelled, and the request to run them. -/
def writeBatch (w : Writer) (id : MessageId) (members : List MessageId) : Writer :=
  let (done, s) := w.connection.store.takeCompleter id
  let w := (w.withStore s).pushOwn .multi
  let b := members.foldl BlockWriter.writeMember { writer := w, db := w.selected }
  b.writer.next fun w =>
    (w.push (.exec ⟨b.slots, done⟩)).next fun w =>
      if b.switched then { w with selected := none } else w

/-! ## The outgoing pump -/

/-- Handles a message that has been taken out of the queue. -/
def handle (w : Writer) (id : MessageId) (overtook : Bool) : Writer :=
  if w.connection.aborting then w.withStore (w.connection.store.fail id .aborted)
  else
    match w.connection.store.markSent id with
    | (false, _) => w.count .cancelled
    | (true, s) =>
        let w := w.withStore s
        let w := if overtook then w.count .jumper else w
        let w :=
          match (s.messages[id]?).bind Message.members? with
          | some members => w.writeBatch id members
          | none => w.writeMessage id
        w.next flush

/-- One round of the pump: takes a message out of the queue and handles it. -/
def round? (w : Writer) : Option Writer :=
  match w.connection.queue.next? with
  | none => none
  | some ((id, overtook), queue, _) =>
      some ({ w with connection := { w.connection with queue := queue } }.handle id overtook)

/-- So many rounds, as long as there are messages and nothing fails. -/
def rounds : Nat → Writer → Writer
  | 0, w => w
  | n + 1, w =>
      match w.round? with
      | none => w
      | some w => w.next (rounds n)

/-- Shuts the connection down if the pump has failed. -/
def settle (w : Writer) : Writer :=
  match w.fault with
  | some e =>
      { w with
        connection := w.connection.shutdown "error writing to the connection" (some e) }
  | none => w

/-- Handles all messages in the queue. -/
def drain (w : Writer) : Writer := (rounds w.connection.queue.length w).settle

/-- What the pump does when no message will come any more: it says good-bye to the server, or, if
the connection is being aborted, shuts it down. -/
def finish (w : Writer) : Writer :=
  if w.fault.isSome then w
  else if w.connection.aborting then
    { w with connection := w.connection.shutdown "connection aborted" none }
  else
    let c := (w.connection.transition [.opening, .established] .closing).2
    (({ w with connection := c }.pushOwn .quit).next flush).settle

/-- The bytes written. -/
def wire (w : Writer) : Bytes := w.written.flatMap w.connection.store.wireInFlight

end Writer

/-- Closes the queue and runs the outgoing pump from the initial database to its end. -/
def Connection.runOutgoing (c : Connection) (broken : Option String) : Writer :=
  ({ connection := { c with queue := c.queue.close }, broken := broken } : Writer).drain.finish

end RespMux
