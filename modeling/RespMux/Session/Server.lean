import RespMux.Reader.Replies

/-!
# A scripted server

A server that reacts to the commands it receives as its script says, one entry for each command,
and acknowledges every command after the script. It hangs up after a command to quit.
-/

set_option autoImplicit false

namespace RespMux

/-- What a server does for one command. -/
inductive Reaction where
  | send (bytes : Bytes)
  | ignore
  /-- waits for a release before it sends; later commands wait behind it -/
  | hold (bytes : Bytes)
  /-- sends and hangs up -/
  | hangUp (bytes : Bytes)
  deriving DecidableEq, Repr, Inhabited

/-- A server at work. -/
structure Server where
  script : List Reaction
  /-- for each received command that still waits for a reaction, whether it ends the session -/
  backlog : List Bool := []
  /-- how often the server may go on after holding a reply -/
  permits : Nat := 0
  /-- all bytes received -/
  received : Bytes := []
  /-- bytes sent that the client has not read -/
  outbox : Bytes := []
  hungUp : Bool := false
  deriving Repr, Inhabited

namespace Server

/-- The reaction after the end of the script. -/
def acknowledge : Reaction := .send (Bytes.ofText "+OK" ++ crlf)

/-- The command asks the server to hang up. -/
def isQuit : Reply → Bool
  | .multi (.bulk (some name) :: _) => name == Literal.quit.bytes
  | _ => false

/-- Receives whole commands. -/
def receive (s : Server) (bytes : Bytes) : Server :=
  if s.hungUp then s
  else
    let commands := (Reader.all { source := [.bytes bytes] }).1.filterMap fun
      | .reply r => some (isQuit r)
      | _ => none
    { s with received := s.received ++ bytes, backlog := s.backlog ++ commands }

/-- Sends bytes, and hangs up after the last command. -/
def reply (s : Server) (bytes : Bytes) (last : Bool) : Server :=
  { s with outbox := s.outbox ++ bytes, hungUp := last }

/-- Reacts to the commands in the backlog until it is empty, a reply is held back or the server
has hung up. -/
def act : List Bool → Server → Server
  | [], s => { s with backlog := [] }
  | quit :: rest, s =>
      if s.hungUp then { s with backlog := quit :: rest }
      else
        let next := { s with script := s.script.drop 1 }
        match s.script.head?.getD acknowledge with
        | .send bytes => act rest (next.reply bytes quit)
        | .ignore => act rest (next.reply [] quit)
        | .hangUp bytes => act rest (next.reply bytes true)
        | .hold bytes =>
            if s.permits = 0 then { s with backlog := quit :: rest }
            else act rest ({ next with permits := s.permits - 1 }.reply bytes quit)

/-- Reacts to the commands received. -/
def react (s : Server) : Server := act s.backlog s

/-- Lets the server send one reply that it holds back. -/
def release (s : Server) : Server := { s with permits := s.permits + 1 }

end Server

end RespMux
