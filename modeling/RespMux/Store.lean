import RespMux.Completion
import RespMux.Request

/-!
# Messages and their completions

A message is a request on its way. Its phase goes from not sent to sent when it is picked up for
writing, and to complete when it is answered, fails or is cancelled before it was sent. A message
carries at most one completer, which is used up by the first delivery.

There are two kinds of composite messages. An envelope stands for another message inside a
transaction block: it is written as that message, but answered only by the acknowledgment that
the server has queued it. A batch is a whole block and is not written as such. The failure of an
envelope or of a batch is also the failure of what it contains; `scope` lists the messages that a
failure reaches, in the order of delivery, with the message itself at the end.

Messages refer to each other by number and only to older ones. The store holds them all, together
with the completions; `retain` says which of them are still held by somebody.
-/

set_option autoImplicit false

namespace RespMux

/-! ## Messages -/

/-- Where a message is on its way. -/
inductive Phase where
  | notSent | sent | complete
  deriving DecidableEq, Repr, Inhabited

/-- The name of a phase. -/
def Phase.name : Phase → String
  | .notSent => "NotSent"
  | .sent => "Sent"
  | .complete => "Complete"

/-- The writing end of a completion, and the shape in which it gives a reply. -/
structure Completer where
  completion : CompletionId
  shape : Shape
  deriving DecidableEq, Repr, Inhabited

/-- The place of the completer in a message. -/
inductive Sink where
  | empty
  | assigned (c : Completer)
  | consumed
  deriving DecidableEq, Repr, Inhabited

/-- What a message contains. -/
inductive Body where
  | single
  | envelope (inner : MessageId)
  | batch (members : List MessageId)
  deriving DecidableEq, Repr, Inhabited

/-- A request on its way. -/
structure Message where
  request : Request
  body : Body := .single
  /-- what is written for it -/
  frame : Option Frame
  /-- the messages that fail with it, itself included -/
  scope : List MessageId
  phase : Phase := .notSent
  sink : Sink := .empty
  created : Duration
  sentAt : Option Duration := none
  /-- nobody holds the message any more -/
  released : Bool := false
  deriving Repr, Inhabited

namespace Message

/-- The message is a command that chooses a database. -/
def isSelect (m : Message) : Bool := m.request.command == .select && m.body == .single

/-- The members of a batch. -/
def members? (m : Message) : Option (List MessageId) :=
  match m.body with
  | .batch members => some members
  | _ => none

/-- The bytes that are written for the message. -/
def wire (m : Message) : Bytes :=
  match m.frame with
  | some f => f.encode
  | none => []

/-- The reply that the completer of a message gets at the time `now`: for a timed request, how
long a successful reply took. -/
def timedReply (m : Message) (now : Duration) (r : Reply) : Reply :=
  if m.request.timed && !r.isError then
    let sent := m.sentAt.getD m.created
    .timing ⟨sent.nanoseconds - m.created.nanoseconds⟩ ⟨now.nanoseconds - sent.nanoseconds⟩
  else r

/-- A message with its fields, for a developer. -/
def debugText (m : Message) : String :=
  let db :=
    match m.request.db with
    | some db => "Some(" ++ Decimal.natText db.toNat ++ ")"
    | none => "None"
  "Message \x7b db: " ++ db ++ ", command: " ++ m.request.command.name ++ ", args: "
    ++ Decimal.natText m.request.args.length ++ ", state: " ++ m.phase.name ++ " \x7d"

end Message

/-! ## The store -/

/-- All messages and completions, and the time. -/
structure Store where
  messages : Array Message := #[]
  completions : Array Completion := #[]
  now : Duration := ⟨0⟩
  deriving Inhabited

namespace Store

/-! ### Creating -/

/-- Adds a message. -/
def add (s : Store) (m : Message) : MessageId × Store :=
  (s.messages.size, { s with messages := s.messages.push m })

/-- A new message for a request. -/
def create (s : Store) (r : Request) : MessageId × Store :=
  s.add { request := r, frame := some r.frame, scope := [s.messages.size], created := s.now }

/-- The messages that fail with a message. -/
def scopeOf (s : Store) (id : MessageId) : List MessageId :=
  match s.messages[id]? with
  | some m => m.scope
  | none => []

/-- A new envelope around a message. -/
def envelope (s : Store) (inner : MessageId) : MessageId × Store :=
  let m := s.messages[inner]?
  s.add
    { request := ((m.map Message.request).getD default).queued
      body := .envelope inner
      frame := m.bind Message.frame
      scope := s.scopeOf inner ++ [s.messages.size]
      created := s.now }

/-- A new batch of messages. -/
def batch (s : Store) (members : List MessageId) : MessageId × Store :=
  s.add
    { request := { command := .multi }
      body := .batch members
      frame := none
      scope := members.flatMap s.scopeOf ++ [s.messages.size]
      created := s.now }

/-- A new completion. -/
def addCompletion (s : Store) (c : Completion) : CompletionId × Store :=
  (s.completions.size, { s with completions := s.completions.push c })

/-! ### One message -/

/-- Changes a message. -/
def modify (s : Store) (id : MessageId) (f : Message → Message) : Store :=
  { s with messages := s.messages.modify id f }

/-- Changes a completion. -/
def modifyCompletion (s : Store) (id : CompletionId) (f : Completion → Completion) : Store :=
  { s with completions := s.completions.modify id f }

/-- The phase of a message. -/
def phase (s : Store) (id : MessageId) : Phase :=
  match s.messages[id]? with
  | some m => m.phase
  | none => .complete

/-- The sink of a message. -/
def sink (s : Store) (id : MessageId) : Sink :=
  match s.messages[id]? with
  | some m => m.sink
  | none => .consumed

/-- Gives a message its completer. A message takes only one. -/
def assign (s : Store) (id : MessageId) (c : Completer) : Except Error Store :=
  match s.sink id with
  | .empty => .ok (s.modify id fun m => { m with sink := .assigned c })
  | _ => .error .completionAssigned

/-- Takes the completer of a message away. -/
def takeCompleter (s : Store) (id : MessageId) : Option Completer × Store :=
  let s' := s.modify id fun m => { m with sink := .consumed }
  match s.sink id with
  | .assigned c => (some c, s')
  | _ => (none, s')

/-- Picks a message up for writing; false if it has been cancelled or picked up before. -/
def markSent (s : Store) (id : MessageId) : Bool × Store :=
  match s.phase id with
  | .notSent => (true, s.modify id fun m => { m with phase := .sent, sentAt := some s.now })
  | _ => (false, s)

/-! ### Outcomes -/

/-- Gives an outcome to a completer. -/
def deliver (s : Store) (c : Completer) (o : Outcome) : Store :=
  s.modifyCompletion c.completion fun k => k.deliver o

/-- Completes a message, and gives its completer, if it has one, an outcome. -/
def finish (s : Store) (id : MessageId) (o : Shape → Outcome) : Store :=
  let (c, s) := (s.modify id fun m => { m with phase := .complete }).takeCompleter id
  match c with
  | some c => s.deliver c (o c.shape)
  | none => s

/-- Fails a message and everything it contains. -/
def fail (s : Store) (id : MessageId) (e : Error) : Store :=
  (s.scopeOf id).foldl (fun s id => s.finish id fun _ => .error e) s

/-- Gives a message its reply. An error in place of the acknowledgment of an envelope fails the
message inside. -/
def complete (s : Store) (id : MessageId) (r : Reply) : Store :=
  match s.messages[id]? with
  | none => s
  | some m =>
      let s :=
        match m.body, r with
        | .envelope inner, .error t => s.fail inner (.server t)
        | _, _ => s
      s.finish id fun shape => shape.extract (m.timedReply s.now r)

/-- Cancels a message that has not been picked up; false if it is too late. -/
def cancel (s : Store) (id : MessageId) : Bool × Store :=
  match s.phase id with
  | .notSent => (true, s.fail id .cancelled)
  | _ => (false, s)

/-! ### Completions -/

/-- Ties a completion to its message, so that the message can be cancelled through it. -/
def link (s : Store) (k : CompletionId) (id : MessageId) : Store :=
  s.modifyCompletion k fun c => { c with target := some id }

/-- Cancels the message of a completion, if somebody still holds it. -/
def cancelThrough (s : Store) (k : CompletionId) : Bool × Store :=
  match (s.completions[k]?).bind Completion.target with
  | some id =>
      match s.messages[id]? with
      | some m => if m.released then (false, s) else s.cancel id
      | none => (false, s)
  | none => (false, s)

/-- The completers of messages. -/
def completers (s : Store) (ids : List MessageId) : List Completer :=
  ids.filterMap fun id =>
    match s.sink id with
    | .assigned c => some c
    | _ => none

/-- Lets go of all messages but those held and what they contain. The completers that go with
the others, and are not held by themselves, will give no outcome any more. -/
def retain (s : Store) (held : List MessageId) (own : List Completer) : Store :=
  let kept := held.flatMap s.scopeOf
  let used := (own ++ s.completers kept).map Completer.completion
  { s with
    messages := s.messages.mapIdx fun id m =>
      if kept.contains id then m else { m with released := true }
    completions := s.completions.mapIdx fun k c =>
      if used.contains k then c else c.abandon }

end Store

end RespMux
