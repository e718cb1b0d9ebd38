import RespMux.Store

/-!
# The ledger of sent frames

Replies carry no names: the first reply belongs to the first frame that was sent. The ledger
holds what was sent and is not answered yet, in the order of sending. Most entries are messages;
the last frame of a transaction block is a `Block`, whose reply holds the replies of all commands
of the block.
-/

set_option autoImplicit false

namespace RespMux

/-- A transaction block that waits for its results: for each command the server has queued, the
message that asked for it, or none for a change of database that no caller asked for. -/
structure Block where
  slots : List (Option MessageId)
  /-- gets its outcome when all results have been given out -/
  done : Option Completer
  deriving DecidableEq, Repr, Inhabited

namespace Block

/-- The messages of a block. -/
def members (b : Block) : List MessageId := b.slots.filterMap id

/-- The results of the commands of a block, which are the items of an array with exactly one
item for each of them. -/
def results? (b : Block) : Reply → Except Error (List Reply)
  | .multi rs =>
      if rs.length = b.slots.length then .ok rs
      else .error (.transaction ("EXEC returned " ++ Decimal.natText rs.length ++ " results for "
        ++ Decimal.natText b.slots.length ++ " queued commands"))
  | .bulk none => .error (.transaction "EXEC was aborted")
  | .error t => .error (.server t)
  | r => .error (.transaction ("unexpected EXEC reply: " ++ r.kind))

end Block

/-- A frame that was sent and is not answered. -/
inductive InFlight where
  | message (id : MessageId)
  | exec (b : Block)
  deriving DecidableEq, Repr, Inhabited

namespace Store

/-- Fails all messages of a block, then its own completer. -/
def failBlock (s : Store) (b : Block) (e : Error) : Store :=
  let s := b.members.foldl (fun s id => s.fail id e) s
  match b.done with
  | some c => s.deliver c (.error e)
  | none => s

/-- Fails whatever waits for the answer to a frame. -/
def failInFlight (s : Store) (f : InFlight) (e : Error) : Store :=
  match f with
  | .message id => s.fail id e
  | .exec b => s.failBlock b e

/-- Gives a block its reply when the connection it was sent on does not exist any more. -/
def answerOrphan (s : Store) (b : Block) (r : Reply) : Store :=
  match b.results? r with
  | .ok _ => s.failBlock b (.connectionTerminated "the connection is gone")
  | .error e => s.failBlock b e

/-- The request of a message. -/
def requestOf (s : Store) (id : MessageId) : Request :=
  match s.messages[id]? with
  | some m => m.request
  | none => default

/-- A frame in flight as it is named in messages. -/
def displayInFlight (s : Store) : InFlight → String
  | .message id => (s.requestOf id).display
  | .exec _ => Literal.exec.text

/-- The bytes of a frame in flight. -/
def wireInFlight (s : Store) : InFlight → Bytes
  | .message id => ((s.messages[id]?).map Message.wire).getD []
  | .exec _ => Frame.encode ⟨.exec, []⟩

end Store

/-- The frames in flight, the oldest first. -/
structure Ledger where
  entries : List InFlight := []
  isClosed : Bool := false
  deriving DecidableEq, Repr, Inhabited

namespace Ledger

/-- How many frames are in flight. -/
def length (l : Ledger) : Nat := l.entries.length

/-- Records a frame that is about to be written. A closed ledger takes none, so that nothing is
left behind in it. -/
def push (l : Ledger) (f : InFlight) : Except Error Ledger :=
  if l.isClosed then .error (.connectionTerminated "the connection has shut down")
  else .ok { l with entries := l.entries ++ [f] }

/-- The oldest frame, and the ledger without it. -/
def pop? (l : Ledger) : Option (InFlight × Ledger) :=
  match l.entries with
  | [] => none
  | f :: fs => some (f, { l with entries := fs })

/-- Empties the ledger for good. -/
def closeAndDrain (l : Ledger) : List InFlight × Ledger :=
  (l.entries, { entries := [], isClosed := true })

end Ledger

end RespMux
