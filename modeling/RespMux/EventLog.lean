import RespMux.Error

/-!
# Error events

A connection publishes the errors it meets to a listener, who reads them in order. Events from
before the listener came, or while there is none, are lost to it. Only the last events are kept;
a listener that has fallen behind is told first how many it missed.
-/

set_option autoImplicit false

namespace RespMux

/-- An error that was met on a connection. -/
structure ErrorEvent where
  error : Error
  /-- what the connection was doing, or which command failed -/
  cause : String
  /-- the connection was torn down -/
  fatal : Bool
  deriving DecidableEq, Repr, Inhabited

/-- What a listener reads. -/
inductive Notice where
  | event (e : ErrorEvent)
  /-- so many events were lost -/
  | lagged (lost : Nat)
  deriving DecidableEq, Repr, Inhabited

/-- The least power of two that is not below `n`, for a positive `n`. -/
def powerAbove (n : Nat) : Nat := if n ≤ 1 then 1 else Nat.pow 2 ((n - 1).log2 + 1)

/-- The events for a listener. -/
structure EventLog where
  /-- how many events are kept -/
  capacity : Nat
  /-- the last events, the oldest first -/
  kept : List ErrorEvent := []
  /-- how many events there were in all -/
  total : Nat := 0
  /-- how many events the listener is past, if there is one -/
  listener : Option Nat := none
  deriving DecidableEq, Repr, Inhabited

namespace EventLog

/-- An empty log that keeps at least so many events, rounded up to a power of two. -/
def withCapacity (n : Nat) : EventLog := { capacity := powerAbove n }

/-- A new listener, who reads the events from now on. -/
def subscribe (l : EventLog) : EventLog := { l with listener := some l.total }

/-- Publishes an event, if somebody listens. -/
def publish (l : EventLog) (e : ErrorEvent) : EventLog :=
  match l.listener with
  | none => l
  | some _ =>
      let kept := l.kept ++ [e]
      { l with kept := kept.drop (kept.length - l.capacity), total := l.total + 1 }

/-- Everything the listener has not read yet. -/
def read (l : EventLog) : List Notice × EventLog :=
  match l.listener with
  | none => ([], l)
  | some position =>
      let oldest := l.total - l.kept.length
      let events := (l.kept.drop (position - oldest)).map Notice.event
      let lost := oldest - position
      (if lost = 0 then events else .lagged lost :: events, { l with listener := some l.total })

end EventLog

end RespMux
