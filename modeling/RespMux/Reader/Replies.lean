import RespMux.Reply
import RespMux.Reader

/-!
# Reading replies

A frame starts with a type mark. A status, an error and an integer are the rest of the line; a
bulk string is a length line, that many bytes and a line end; an array is a length line and that
many frames. The length `-1` stands for null in both, any other negative length is an error. A
stream may end between two frames, but not inside one.
-/

set_option autoImplicit false

namespace RespMux

/-- The integer that a line spells. -/
def integerLine? (line : Bytes) : Except ParseError Int64 :=
  match Decimal.readInteger? line with
  | some n => .ok n
  | none => .error (.invalidInteger (Utf8.lossy line))

namespace Reader

/-- Consumes a line that spells an integer, in so many rounds at most. -/
def integer (rounds : Nat) : Reading Int64 := do
  MonadExcept.ofExcept ((integerLine? (← line rounds)).mapError .protocol)

/-- Consumes the bytes of a bulk string and the line end after them. -/
def payload (n : Nat) : Reading Bytes := do
  let data ← exactly n
  if (← byte) != 13 then throw (.protocol (.malformed "bulk string missing trailing CRLF"))
  if (← byte) != 10 then throw (.protocol (.malformed "bulk string missing trailing CRLF"))
  pure data

mutual

/-- Consumes one frame. Every frame takes a byte, so one step more than there are bytes is
enough, and its lines need no more rounds than that. -/
def frame : Nat → Reading Reply
  | 0 => throw (.protocol .unexpectedEnd)
  | steps + 1 => do
      match ← byte with
      | 43 => return .status (← line steps)
      | 45 => return .error (Utf8.lossy (← line steps))
      | 58 => return .integer (← integer steps)
      | 36 =>
          let n ← integer steps
          if n = -1 then return .bulk none
          else if n < 0 then throw (.protocol (.invalidBulkLength n))
          else return .bulk (some (← payload n.toInt.toNat))
      | 42 =>
          let n ← integer steps
          if n = -1 then return .bulk none
          else if n < 0 then throw (.protocol (.invalidArrayLength n))
          else return .multi (← frames steps n.toInt.toNat [])
      | mark => throw (.protocol (.unknownMark mark))

/-- Consumes `n` more frames of an array; `items` are those before them, the last one first. -/
def frames : Nat → Nat → List Reply → Reading (List Reply)
  | _, 0, items => pure items.reverse
  | 0, _ + 1, _ => throw (.protocol .unexpectedEnd)
  | steps + 1, n + 1, items => do
      let item ← frame steps
      frames steps n (item :: items)

end

/-- Consumes the next reply, in so many steps at most; none if the stream ends before it
starts. -/
def replyWithin (steps : Nat) : Reading (Option Reply) := do
  if ← fill then return some (← frame steps)
  else return none

/-- Consumes the next reply; none if the stream ends before it starts. -/
def reply? : Reading (Option Reply) := do
  replyWithin ((← get).remaining + 1)

/-- What a call for the next reply yields. -/
inductive Outcome where
  | reply (r : Reply)
  | ended
  | failed (e : Error)
  deriving Inhabited

/-- Consumes the next reply, in so many steps at most, and returns the reader after it, also
after a failure. -/
def next (r : Reader) (steps : Nat) : Outcome × Reader :=
  match replyWithin steps r with
  | .ok (some reply) r => (.reply reply, r)
  | .ok none r => (.ended, r)
  | .error e r => (.failed e, r)

/-- The outcomes of `n` more calls, each in so many steps at most; `outcomes` are those of the
calls before, the last one first. -/
def callsFrom (steps : Nat) : Nat → List Outcome → Reader → List Outcome × Reader
  | 0, outcomes, r => (outcomes.reverse, r)
  | n + 1, outcomes, r =>
      let (outcome, r) := r.next steps
      callsFrom steps n (outcome :: outcomes) r

/-- The outcomes of so many calls, one after the other. -/
def calls (n : Nat) (r : Reader) : List Outcome × Reader :=
  callsFrom (r.remaining + 1) n [] r

/-- The outcomes of the calls up to the first that is no reply; `outcomes` are those of the calls
before, the last one first. Each reply takes a byte, so each call needs a step less than the one
before it. -/
def untilEnd : Nat → List Outcome → Reader → List Outcome × Reader
  | 0, outcomes, r => (outcomes.reverse, r)
  | steps + 1, outcomes, r =>
      match r.next (steps + 1) with
      | (.reply reply, r) => untilEnd steps (.reply reply :: outcomes) r
      | (outcome, r) => ((outcome :: outcomes).reverse, r)

/-- The outcomes of all calls up to the first that is no reply. -/
def all (r : Reader) : List Outcome × Reader := untilEnd (r.remaining + 1) [] r

end Reader

end RespMux
