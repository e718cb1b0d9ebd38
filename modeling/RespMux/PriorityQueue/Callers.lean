import RespMux.PriorityQueue

/-!
# Callers of a queue

Callers that find no room or no item sleep. Whenever an operation wakes the sleepers, each of
them tries again, in the order in which they fell asleep, and goes back to sleep if it still has
to wait. A caller that now gets through may wake the others once more.
-/

set_option autoImplicit false

namespace RespMux

/-- What a caller asks of a queue. -/
inductive QueueCall (α : Type) where
  | enqueue (item : α) (priority : Priority)
  | dequeue (mayWait : Bool)

/-- What a caller gets. -/
inductive QueueResult (α : Type) where
  | accepted
  | refused (item : α)
  | item (x : α) (overtook : Bool)
  | nothing

/-- Tries a call once. -/
def QueueCall.attempt {α : Type} (q : PriorityQueue α) : QueueCall α → Attempt α (QueueResult α)
  | .enqueue item priority =>
      match q.enqueue item priority with
      | .done (.ok ()) q wakes => .done .accepted q wakes
      | .done (.error item) q wakes => .done (.refused item) q wakes
      | .wait => .wait
  | .dequeue mayWait =>
      match q.dequeue mayWait with
      | .done (some (x, overtook)) q wakes => .done (.item x overtook) q wakes
      | .done none q wakes => .done .nothing q wakes
      | .wait => .wait

/-- A queue and the callers that sleep on it, each with its number. -/
structure QueueDesk (α : Type) where
  queue : PriorityQueue α
  sleepers : List (Nat × QueueCall α) := []

/-- The calls that finished, by their numbers. -/
abbrev Released (α : Type) := List (Nat × QueueResult α)

namespace QueueDesk

variable {α : Type}

/-- Lets each of `callers` try once; `wakes` tells whether one of them woke the others. -/
def retry (q : PriorityQueue α) (wakes : Bool) :
    List (Nat × QueueCall α) → PriorityQueue α × Bool × List (Nat × QueueCall α) × Released α
  | [] => (q, wakes, [], [])
  | (n, call) :: callers =>
      match call.attempt q with
      | .wait =>
          let (q, wakes, asleep, released) := retry q wakes callers
          (q, wakes, (n, call) :: asleep, released)
      | .done result q woke =>
          let (q, wakes, asleep, released) := retry q (wakes || woke) callers
          (q, wakes, asleep, (n, result) :: released)

/-- Wakes the sleepers until none of them wakes the others. A round that wakes others lets at
least one caller through, so one round more than there are sleepers is enough. -/
def settle : Nat → QueueDesk α → Released α × QueueDesk α
  | 0, desk => ([], desk)
  | rounds + 1, desk =>
      let (q, wakes, asleep, released) := retry desk.queue false desk.sleepers
      let desk : QueueDesk α := ⟨q, asleep⟩
      if wakes then
        let (more, desk) := settle rounds desk
        (released ++ more, desk)
      else (released, desk)

/-- Lets the sleepers that a finished operation woke go on, if it woke them. -/
def after (desk : QueueDesk α) (wakes : Bool) : Released α × QueueDesk α :=
  if wakes then
    let (released, desk) := settle (desk.sleepers.length + 1) desk
    (released.mergeSort fun a b => a.1 ≤ b.1, desk)
  else ([], desk)

/-- A call with its number. The result is none if the caller falls asleep; the released callers
are in the order in which they fell asleep. -/
def call (desk : QueueDesk α) (n : Nat) (c : QueueCall α) :
    Option (QueueResult α) × Released α × QueueDesk α :=
  match c.attempt desk.queue with
  | .wait => (none, [], { desk with sleepers := desk.sleepers ++ [(n, c)] })
  | .done result q wakes => (some result, after { desk with queue := q } wakes)

/-- Takes all items out. -/
def drain (desk : QueueDesk α) : List α × Released α × QueueDesk α :=
  let (items, q) := desk.queue.drain
  (items, after { desk with queue := q } true)

/-- Closes the queue. -/
def close (desk : QueueDesk α) : Released α × QueueDesk α :=
  after { desk with queue := desk.queue.close } true

/-- Opens the queue again. -/
def reopen (desk : QueueDesk α) : Released α × QueueDesk α :=
  after { desk with queue := desk.queue.reopen } true

end QueueDesk

end RespMux
