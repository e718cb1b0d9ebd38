import RespMux.Error

/-!
# A buffered source of bytes

Bytes arrive in chunks. Between them a read can be interrupted, and is then tried again; it can
find the stream at its end, now or for good; or it can fail. A `Reader` takes at most `capacity`
bytes of a chunk at a time into its buffer, and only when the buffer is empty.
-/

set_option autoImplicit false

namespace RespMux

/-- What the next read of a source meets. -/
inductive Arrival where
  | bytes (chunk : Bytes)
  /-- the read is interrupted and tried again -/
  | interrupt
  /-- the read finds the end of the stream -/
  | eof
  /-- the read fails -/
  | failure (text : String)
  deriving DecidableEq, Repr, Inhabited

/-- A source and the bytes of it that have been read, but not yet consumed. -/
structure Reader where
  source : List Arrival
  buffer : Bytes := []
  /-- the size of the buffer; zero counts as one -/
  capacity : Nat := 2048
  deriving Repr, Inhabited

/-- A computation that consumes bytes from a reader. -/
abbrev Reading := EStateM Error Reader

/-- What one refill of the buffer brings, and the source after it. -/
inductive Refill where
  | chunk (bytes : Bytes) (rest : List Arrival)
  | ended (rest : List Arrival)
  | failed (text : String) (rest : List Arrival)

/-- Reads from a source once, into a buffer of the given size. -/
def refill (size : Nat) : List Arrival → Refill
  | [] => .ended []
  | .interrupt :: rest => refill size rest
  | .eof :: rest => .ended rest
  | .failure t :: rest => .failed t rest
  | .bytes [] :: rest => refill size rest
  | .bytes (b :: bs) :: rest =>
      let kept := (b :: bs).drop size
      .chunk ((b :: bs).take size) (if kept.isEmpty then rest else .bytes kept :: rest)

namespace Reader

/-- The bytes of a source. -/
def sourceLength : List Arrival → Nat
  | [] => 0
  | .bytes chunk :: rest => chunk.length + sourceLength rest
  | _ :: rest => sourceLength rest

/-- How many bytes are not consumed yet. -/
def remaining (r : Reader) : Nat := r.buffer.length + sourceLength r.source

/-- The bytes that are not consumed yet. -/
def leftover (r : Reader) : Bytes :=
  r.buffer ++ r.source.flatMap fun
    | .bytes chunk => chunk
    | _ => []

/-- Makes sure that the buffer holds a byte; false at the end of the stream. -/
def fill : Reading Bool := do
  let r ← get
  if r.buffer.isEmpty then
    match refill (max r.capacity 1) r.source with
    | .chunk bs rest => set { r with buffer := bs, source := rest }; pure true
    | .ended rest => set { r with source := rest }; pure false
    | .failed t rest => set { r with source := rest }; throw (.io t)
  else pure true

/-- Makes sure that the buffer holds a byte, inside a frame. -/
def need : Reading Unit := do
  unless ← fill do throw (.protocol .unexpectedEnd)

/-- Takes the buffer, leaving it empty. -/
def takeBuffer : Reading Bytes := do
  let r ← get
  set { r with buffer := [] }
  pure r.buffer

/-- Puts bytes back into the empty buffer. -/
def putBack (bs : Bytes) : Reading Unit := modify fun r => { r with buffer := bs }

/-- Consumes one byte. -/
def byte : Reading UInt8 := do
  need
  match ← takeBuffer with
  | [] => throw (.protocol .unexpectedEnd)
  | b :: bs => putBack bs; pure b

/-- A line up to its line feed, without the carriage return that has to be there. -/
def withoutReturn (line : Bytes) : Except Error Bytes :=
  if line.getLast? = some 13 then .ok line.dropLast
  else .error (.protocol (.malformed "line not terminated by CRLF"))

/-- Puts the pieces of a byte string together, the last of which comes first. -/
def assemble (pieces : List Bytes) : Bytes := pieces.reverse.flatten

/-- Consumes bytes up to the next line feed; `pieces` are those of the line so far. Each round
empties the buffer or ends, so one round more than there are bytes is enough. -/
def lineFrom : Nat → List Bytes → Reading Bytes
  | 0, _ => throw (.protocol .unexpectedEnd)
  | rounds + 1, pieces => do
      need
      let bs ← takeBuffer
      match bs.dropWhile (· != 10) with
      | [] => lineFrom rounds (bs :: pieces)
      | _ :: rest =>
          putBack rest
          MonadExcept.ofExcept (withoutReturn (assemble (bs.takeWhile (· != 10) :: pieces)))

/-- Consumes a line, in so many rounds at most, and returns it without its end. -/
def line (rounds : Nat) : Reading Bytes := lineFrom rounds []

/-- Consumes `n` bytes, a buffer at a time; `pieces` are those before them. -/
def exactlyFrom : Nat → Nat → List Bytes → Reading Bytes
  | _, 0, pieces => pure (assemble pieces)
  | 0, _ + 1, _ => throw (.protocol .unexpectedEnd)
  | rounds + 1, n + 1, pieces => do
      need
      let bs ← takeBuffer
      putBack (bs.drop (n + 1))
      exactlyFrom rounds (n + 1 - bs.length) (bs.take (n + 1) :: pieces)

/-- Consumes `n` bytes. Each round takes one at least, so `n` rounds are enough. -/
def exactly (n : Nat) : Reading Bytes := exactlyFrom n n []

end Reader

end RespMux
