import RespMux.Argument

/-!
# Requests

A request describes one command: the database it is meant for, its name and arguments, and what
its acknowledgment has to be. A `Frame` is the part of it that travels.
-/

set_option autoImplicit false

namespace RespMux

/-- The number of a logical database. -/
abbrev Database := UInt32

/-- A command as it is written to the server. -/
structure Frame where
  command : Literal
  args : List Argument
  deriving DecidableEq, Repr, Inhabited

/-- The bytes of a command. -/
def Frame.encode (f : Frame) : Bytes :=
  Wire.header f.args.length ++ Wire.bulk f.command.bytes ++ f.args.flatMap Argument.encode

/-- One command and what is expected of its reply. -/
structure Request where
  command : Literal
  db : Option Database := none
  args : List Argument := []
  /-- the reply has to be this word, or it counts as an error -/
  expected : Option Literal := none
  /-- an error reply is fatal for the connection -/
  critical : Bool := false
  /-- a successful reply is replaced by how long it took -/
  timed : Bool := false
  deriving DecidableEq, Repr, Inhabited

namespace Request

/-- A ping that measures its round trip. -/
def ping : Request := { command := .ping, timed := true }

/-- The choice of a database, which must succeed. -/
def select (db : Database) : Request :=
  { command := .select, db := some db, args := [.integer (Int64.ofNat db.toNat)],
    expected := some .ok, critical := true }

/-- The password of the connection, which must be accepted. -/
def auth (password : String) : Request :=
  { command := .auth, args := [.text password], expected := some .ok, critical := true }

/-- The end of the connection. -/
def quit : Request := { command := .quit, expected := some .ok, critical := true }

/-- The start of a transaction block. -/
def multi : Request := { command := .multi, expected := some .ok, critical := true }

/-- What the server is asked in place of `r` inside a transaction block: only to queue it. -/
def queued (r : Request) : Request :=
  { command := r.command, db := r.db, expected := some .queued, critical := true }

/-- The frame of a request. -/
def frame (r : Request) : Frame := ⟨r.command, r.args⟩

/-- A request as it is named in messages: its database, if it has one, and its command. -/
def display (r : Request) : String :=
  match r.db with
  | some db => Decimal.natText db.toNat ++ ": " ++ r.command.text
  | none => r.command.text

end Request

end RespMux
