import RespMux.Request

/-!
# Traffic counters

A connection counts the messages it sends, receives, skips and fails, and how often each database
was used. The first databases have a counter each, the others get an entry in a table when they are
first used (`UseCounts`). A `Snapshot` adds the lengths of both queues and orders the databases: the
most used first, and of equally used ones the one with the smaller number.
-/

set_option autoImplicit false

namespace RespMux

/-! ## Databases in use -/

/-- Databases, each with how often it was used. -/
abbrev Usage := List (Database × Nat)

namespace Usage

/-- Counts one more use of a database in a table that is ordered by number. -/
def count : Usage → Database → Usage
  | [], db => [(db, 1)]
  | (d, n) :: u, db =>
      if db < d then (db, 1) :: (d, n) :: u
      else if d = db then (d, n + 1) :: u
      else (d, n) :: count u db

/-- How often a database was used. -/
def of (u : Usage) (db : Database) : Nat := (u.lookup db).getD 0

/-- `a` comes before `b` in a snapshot, or in its place. -/
def precedes (a b : Database × Nat) : Bool :=
  b.2 < a.2 || (a.2 == b.2 && a.1 ≤ b.1)

/-- The databases by descending use, then by number. -/
def ranked (u : Usage) : Usage := u.mergeSort precedes

theorem count_mem {u : Usage} {db : Database} {p : Database × Nat} (h : p ∈ u.count db) :
    p ∈ u ∨ p.1 = db ∧ 0 < p.2 := by
  induction u with
  | nil => simp_all [count]
  | cons x u ih =>
      unfold count at h
      split at h
      · rcases List.mem_cons.mp h with rfl | h
        · exact .inr ⟨rfl, Nat.one_pos⟩
        · exact .inl h
      · split at h
        · next heq =>
          rcases List.mem_cons.mp h with rfl | h
          · exact .inr ⟨heq, Nat.succ_pos _⟩
          · exact .inl (List.mem_cons_of_mem x h)
        · rcases List.mem_cons.mp h with rfl | h
          · exact .inl List.mem_cons_self
          · exact (ih h).imp_left (List.mem_cons_of_mem x)

theorem count_ordered {u : Usage} (h : u.Pairwise fun a b => a.1 < b.1) (db : Database) :
    (u.count db).Pairwise fun a b => a.1 < b.1 := by
  induction u with
  | nil => simp [count]
  | cons x u ih =>
      obtain ⟨hx, hu⟩ := List.pairwise_cons.mp h
      unfold count
      split
      · next hlt =>
        refine List.pairwise_cons.mpr ⟨fun y hy => ?_, h⟩
        rcases List.mem_cons.mp hy with rfl | hy
        · exact hlt
        · exact UInt32.lt_trans hlt (hx y hy)
      · next hge =>
        split
        · exact List.pairwise_cons.mpr ⟨hx, hu⟩
        · next hne =>
          refine List.pairwise_cons.mpr ⟨fun y hy => ?_, ih hu⟩
          rcases count_mem hy with hy | ⟨rfl, -⟩
          · exact hx y hy
          · exact UInt32.lt_of_le_of_ne (UInt32.not_lt.mp hge) hne

end Usage

/-- How many databases have a counter of their own: those with the smallest numbers. -/
def trackedDatabases : Nat := 16

/-- How often each database was used. -/
structure UseCounts where
  /-- the counters of the first databases -/
  tracked : Vector Nat trackedDatabases
  /-- the other databases that have been used, ordered by number -/
  further : Usage
  ordered : further.Pairwise fun a b => a.1 < b.1
  beyond : ∀ p ∈ further, trackedDatabases ≤ p.1.toNat ∧ 0 < p.2
  deriving DecidableEq, Repr

namespace UseCounts

/-- No database has been used. -/
def new : UseCounts where
  tracked := .replicate trackedDatabases 0
  further := []
  ordered := List.Pairwise.nil
  beyond := fun _ h => absurd h List.not_mem_nil

instance : Inhabited UseCounts := ⟨new⟩

/-- Counts one more use of a database. -/
def count (u : UseCounts) (db : Database) : UseCounts :=
  if h : db.toNat < trackedDatabases then
    { u with tracked := u.tracked.set db.toNat (u.tracked[db.toNat] + 1) }
  else
    { u with
      further := u.further.count db
      ordered := Usage.count_ordered u.ordered db
      beyond := fun p hp => by
        rcases Usage.count_mem hp with hp | ⟨rfl, hpos⟩
        · exact u.beyond p hp
        · exact ⟨Nat.not_lt.mp h, hpos⟩ }

/-- All databases that have been used, in the order of their numbers. -/
def toList (u : UseCounts) : Usage :=
  (u.tracked.toList.zipIdx.map fun (n, db) => (UInt32.ofNat db, n)).filter (0 < ·.2) ++ u.further

end UseCounts

/-! ## Counters -/

/-- What a connection counts. -/
structure Counters where
  sent : Nat := 0
  received : Nat := 0
  /-- messages that overtook one that was still waiting -/
  jumpers : Nat := 0
  cancelled : Nat := 0
  timeouts : Nat := 0
  errors : Nat := 0
  usage : UseCounts := .new
  deriving DecidableEq, Repr, Inhabited

/-- The counters at one moment, with the lengths of both queues. -/
structure Snapshot where
  counters : Counters
  /-- messages waiting to be sent -/
  unsentQueue : Nat
  /-- messages sent and not answered -/
  sentQueue : Nat
  usage : Usage
  deriving DecidableEq, Repr, Inhabited

/-- An event that is counted. -/
inductive Traffic where
  | sent | received | jumper | cancelled | timeout | error
  deriving DecidableEq, Repr, Inhabited

namespace Counters

/-- Counts one more event. -/
def count (c : Counters) : Traffic → Counters
  | .sent => { c with sent := c.sent + 1 }
  | .received => { c with received := c.received + 1 }
  | .jumper => { c with jumpers := c.jumpers + 1 }
  | .cancelled => { c with cancelled := c.cancelled + 1 }
  | .timeout => { c with timeouts := c.timeouts + 1 }
  | .error => { c with errors := c.errors + 1 }

/-- Counts the use of a database. -/
def useDatabase (c : Counters) (db : Database) : Counters := { c with usage := c.usage.count db }

/-- The counters as they are now. -/
def snapshot (c : Counters) (unsentQueue sentQueue : Nat) : Snapshot :=
  ⟨c, unsentQueue, sentQueue, c.usage.toList.ranked⟩

end Counters

/-- A snapshot as lines of text. -/
def Snapshot.text (s : Snapshot) : String :=
  let line (label : String) (n : Nat) : String := label ++ ": " ++ Decimal.natText n ++ "\n"
  line "Sent" s.counters.sent ++ line "Received" s.counters.received
    ++ line "Cancelled" s.counters.cancelled ++ line "Timeouts" s.counters.timeouts
    ++ line "Queue jumpers" s.counters.jumpers ++ line "Sent queue" s.sentQueue
    ++ line "Unsent queue" s.unsentQueue ++ line "Error messages" s.counters.errors
    ++ String.join (s.usage.map fun u => line ("DB " ++ Decimal.natText u.1.toNat) u.2)

end RespMux
