/-!
# The two-lane queue

Outgoing messages wait in a queue with two lanes, first in first out each. The standard lane
holds a limited number of items, and a caller has to wait while it is full; the high lane has
room for all. Items leave from the high lane first. A closed queue takes no item, but gives out
those it has.

An attempt to put in or take out either finishes or has to wait. One that finishes may allow
others to go on, and says so: the callers that sleep are woken when the first item comes in,
when the standard lane stops being full, when the last item goes out, when the queue is drained,
and when it is closed or opened.
-/

set_option autoImplicit false

namespace RespMux

/-- How urgent an item is. -/
inductive Priority where
  | standard | high
  deriving DecidableEq, Repr, Inhabited

/-- Two lanes, the standard one with a limit. -/
structure PriorityQueue (α : Type) where
  high : List α := []
  standard : List α := []
  isClosed : Bool := false
  /-- how many items the standard lane holds at most -/
  limit : Nat
  limit_pos : 0 < limit

/-- What an attempt leads to. -/
inductive Attempt (α β : Type) where
  /-- it finishes; `wakes` tells whether sleeping callers are woken -/
  | done (result : β) (queue : PriorityQueue α) (wakes : Bool)
  /-- it has to wait -/
  | wait

namespace PriorityQueue

variable {α : Type}

/-- An empty open queue; a limit of zero counts as one. -/
def withLimit (limit : Nat) : PriorityQueue α :=
  { limit := max limit 1, limit_pos := Nat.lt_of_lt_of_le Nat.one_pos (Nat.le_max_right _ _) }

instance : Inhabited (PriorityQueue α) := ⟨withLimit 1⟩

/-- A limit that no lane reaches. -/
def unlimited : Nat := UInt64.size - 1

/-- The items in the order in which they leave, if none comes in. -/
def toList (q : PriorityQueue α) : List α := q.high ++ q.standard

/-- The number of items. -/
def length (q : PriorityQueue α) : Nat := q.high.length + q.standard.length

/-- No item is waiting. -/
def isEmpty (q : PriorityQueue α) : Bool := q.length == 0

/-- The standard lane has no room. -/
def isFull (q : PriorityQueue α) : Bool := q.limit ≤ q.standard.length

/-- Tries to put an item in; a closed queue gives it back. -/
def enqueue (q : PriorityQueue α) (item : α) (priority : Priority) : Attempt α (Except α Unit) :=
  if q.isClosed then .done (.error item) q false
  else
    match priority with
    | .high => .done (.ok ()) { q with high := q.high ++ [item] } q.isEmpty
    | .standard =>
        if q.isFull then .wait
        else .done (.ok ()) { q with standard := q.standard ++ [item] } q.isEmpty

/-- Takes the next item out, if there is one. The flag of an item tells whether it overtook one
that is still waiting; the last component tells whether sleeping callers are woken. -/
def next? (q : PriorityQueue α) : Option ((α × Bool) × PriorityQueue α × Bool) :=
  match q.high, q.standard with
  | item :: high, standard =>
      some ((item, !standard.isEmpty), { q with high := high },
        high.isEmpty && standard.isEmpty)
  | [], item :: standard =>
      some ((item, false), { q with standard := standard },
        standard.length + 1 == q.limit || standard.isEmpty)
  | [], [] => none

/-- Tries to take an item out. When there is none, the attempt waits, unless it must not or the
queue is closed. -/
def dequeue (q : PriorityQueue α) (mayWait : Bool) : Attempt α (Option (α × Bool)) :=
  match q.next? with
  | some (item, q, wakes) => .done (some item) q wakes
  | none => if mayWait && !q.isClosed then .wait else .done none q false

/-- Takes all items out. -/
def drain (q : PriorityQueue α) : List α × PriorityQueue α :=
  (q.toList, { q with high := [], standard := [] })

/-- Takes no more items from now on. -/
def close (q : PriorityQueue α) : PriorityQueue α := { q with isClosed := true }

/-- Takes items again. -/
def reopen (q : PriorityQueue α) : PriorityQueue α := { q with isClosed := false }

theorem length_toList (q : PriorityQueue α) : q.toList.length = q.length := by
  simp [toList, length]

theorem next?_toList {q q' : PriorityQueue α} {x : α × Bool} {w : Bool}
    (h : q.next? = some (x, q', w)) : q.toList = x.1 :: q'.toList := by
  obtain ⟨high, standard, isClosed, limit, limit_pos⟩ := q
  cases high with
  | cons item high =>
      cases h
      rfl
  | nil =>
      cases standard with
      | cons item standard =>
          cases h
          rfl
      | nil => cases h

theorem next?_eq_none_iff (q : PriorityQueue α) : q.next? = none ↔ q.toList = [] := by
  obtain ⟨high, standard, isClosed, limit, limit_pos⟩ := q
  cases high with
  | cons item high => simp [next?, toList]
  | nil =>
      cases standard with
      | cons item standard => simp [next?, toList]
      | nil => simp [next?, toList]

end PriorityQueue

end RespMux
