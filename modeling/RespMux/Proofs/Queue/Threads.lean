import Mathlib.Logic.Function.Basic
import RespMux.PriorityQueue.Callers

/-!
# Threads at a queue

Any number of threads share a queue and one condition variable. Whatever a thread does with the lock
in its hands is one step: it tries its call, and then it has finished or it sleeps. A sleeping
thread gets the lock again when it has been notified, or for no reason at all, and tries its call
once more. In between anything may happen. Every step that finishes something is kept in a history.

What makes a sleeper wait is said by `Blocked`. A step that notifies nobody leaves everybody blocked
who was blocked before, so no sleeper misses the moment at which it could go on.
-/

set_option autoImplicit false

namespace RespMux

variable {α : Type}

/-! ## One attempt -/

namespace PriorityQueue

/-- The items of a lane. -/
def lane (q : PriorityQueue α) : Priority → List α
  | .standard => q.standard
  | .high => q.high

/-- The standard lane holds no more than its limit. -/
def InRoom (q : PriorityQueue α) : Prop := q.standard.length ≤ q.limit

theorem isEmpty_iff {q : PriorityQueue α} : q.isEmpty = true ↔ q.high = [] ∧ q.standard = [] := by
  rw [isEmpty, length, beq_iff_eq, Nat.add_eq_zero_iff, List.length_eq_zero_iff,
    List.length_eq_zero_iff]

end PriorityQueue

namespace QueueCall

/-- What a call leads to that finishes: its result, the queue after it, and whether the sleepers are
woken. -/
inductive Finishes (q : PriorityQueue α) :
    QueueCall α → QueueResult α → PriorityQueue α → Bool → Prop where
  | high (item : α) (hopen : q.isClosed = false) :
      Finishes q (.enqueue item .high) .accepted { q with high := q.high ++ [item] } q.isEmpty
  | standard (item : α) (hopen : q.isClosed = false) (hroom : q.standard.length < q.limit) :
      Finishes q (.enqueue item .standard) .accepted { q with standard := q.standard ++ [item] }
        q.isEmpty
  | refused (item : α) (priority : Priority) (hclosed : q.isClosed = true) :
      Finishes q (.enqueue item priority) (.refused item) q false
  | fromHigh (mayWait : Bool) {item : α} {rest : List α} (hhigh : q.high = item :: rest) :
      Finishes q (.dequeue mayWait) (.item item (!q.standard.isEmpty)) { q with high := rest }
        (rest.isEmpty && q.standard.isEmpty)
  | fromStandard (mayWait : Bool) {item : α} {rest : List α} (hhigh : q.high = [])
      (hstandard : q.standard = item :: rest) :
      Finishes q (.dequeue mayWait) (.item item false) { q with standard := rest }
        (rest.length + 1 == q.limit || rest.isEmpty)
  | nothing (mayWait : Bool) (hhigh : q.high = []) (hstandard : q.standard = [])
      (hleave : (mayWait && !q.isClosed) = false) : Finishes q (.dequeue mayWait) .nothing q false

/-- Why a call has to wait: a caller that puts something in finds no room in the standard lane, one
that takes something out finds nothing, and the queue is open. -/
def Blocked (q : PriorityQueue α) : QueueCall α → Prop
  | .enqueue _ priority =>
      priority = .standard ∧ q.limit ≤ q.standard.length ∧ q.isClosed = false
  | .dequeue mayWait => mayWait = true ∧ q.high = [] ∧ q.standard = [] ∧ q.isClosed = false

/-- An attempt finishes in one of these ways, or the call is blocked. -/
theorem attempt_cases (q : PriorityQueue α) (c : QueueCall α) :
    (c.attempt q = .wait ∧ c.Blocked q)
      ∨ ∃ result q' wakes, c.attempt q = .done result q' wakes ∧ Finishes q c result q' wakes := by
  cases c with
  | enqueue item priority =>
      cases hclosed : q.isClosed with
      | true =>
          refine .inr ⟨_, _, _, ?_, .refused item priority hclosed⟩
          simp [attempt, PriorityQueue.enqueue, hclosed]
      | false =>
          cases priority with
          | high =>
              refine .inr ⟨_, _, _, ?_, .high item hclosed⟩
              simp [attempt, PriorityQueue.enqueue, hclosed]
          | standard =>
              by_cases hroom : q.standard.length < q.limit
              · refine .inr ⟨_, _, _, ?_, .standard item hclosed hroom⟩
                simp [attempt, PriorityQueue.enqueue, hclosed, PriorityQueue.isFull,
                  Nat.not_le.mpr hroom]
              · refine .inl ⟨?_, rfl, Nat.le_of_not_lt hroom, hclosed⟩
                simp [attempt, PriorityQueue.enqueue, hclosed, PriorityQueue.isFull,
                  Nat.le_of_not_lt hroom]
  | dequeue mayWait =>
      obtain ⟨high, standard, isClosed, limit, limit_pos⟩ := q
      cases high with
      | cons item rest => exact .inr ⟨_, _, _, rfl, .fromHigh mayWait rfl⟩
      | nil =>
          cases standard with
          | cons item rest => exact .inr ⟨_, _, _, rfl, .fromStandard mayWait rfl rfl⟩
          | nil =>
              cases hleave : mayWait && !isClosed with
              | false =>
                  refine .inr ⟨_, _, _, ?_, .nothing mayWait rfl rfl hleave⟩
                  simp [attempt, PriorityQueue.dequeue, PriorityQueue.next?, hleave]
              | true =>
                  obtain ⟨hwait, hopen⟩ := Bool.and_eq_true_iff.mp hleave
                  refine .inl ⟨?_, hwait, rfl, rfl, by simpa using hopen⟩
                  simp [attempt, PriorityQueue.dequeue, PriorityQueue.next?, hleave]

variable {q q' : PriorityQueue α} {c d : QueueCall α} {result : QueueResult α} {wakes : Bool}

theorem Finishes.limit_eq (h : Finishes q c result q' wakes) : q'.limit = q.limit := by
  cases h <;> rfl

theorem Finishes.inRoom (h : Finishes q c result q' wakes) (hq : q.InRoom) : q'.InRoom := by
  unfold PriorityQueue.InRoom at hq ⊢
  cases h with
  | high | refused | fromHigh | nothing => exact hq
  | standard item hopen hroom =>
      rw [List.length_append]
      exact hroom
  | fromStandard mayWait hhigh hstandard =>
      rw [hstandard] at hq
      exact Nat.le_of_succ_le hq

/-- A step that wakes nobody leaves everybody blocked who was blocked before. -/
theorem Finishes.blocked (h : Finishes q c result q' wakes) (hwakes : wakes = false)
    (hq : q.InRoom) (hd : d.Blocked q) : d.Blocked q' := by
  cases d with
  | enqueue item priority =>
      obtain ⟨hpriority, hfull, hopen⟩ := hd
      cases h with
      | high | refused | fromHigh | nothing => exact ⟨hpriority, hfull, hopen⟩
      | standard _ _ hroom => exact absurd hroom (Nat.not_lt.mpr hfull)
      | fromStandard _ _ hstandard =>
          -- the lane was full, so taking one out of it wakes the sleepers
          have hlength := Nat.le_antisymm hq hfull
          rw [hstandard, List.length_cons] at hlength
          simp [hlength] at hwakes
  | dequeue mayWait =>
      obtain ⟨hwait, hhigh, hstandard, hopen⟩ := hd
      cases h with
      | high | standard =>
          -- the first item wakes the sleepers
          rw [PriorityQueue.isEmpty_iff.mpr ⟨hhigh, hstandard⟩] at hwakes
          cases hwakes
      | refused | nothing => exact ⟨hwait, hhigh, hstandard, hopen⟩
      | fromHigh _ hitem =>
          rw [hhigh] at hitem
          cases hitem
      | fromStandard _ _ hitem =>
          rw [hstandard] at hitem
          cases hitem

end QueueCall

/-! ## Steps -/

/-- A thread that sleeps in its call. -/
structure Sleeper (α : Type) where
  call : QueueCall α
  /-- it has been notified since it fell asleep -/
  notified : Bool := false

/-- What a thread has done with the lock in its hands. -/
inductive Deed (α : Type) where
  | returned (call : QueueCall α) (result : QueueResult α)
  | drained (items : List α)
  | closed
  | reopened

/-- What a thread may do with the lock in its hands, the queue after it, and whether the sleepers
are woken. -/
inductive Does (q : PriorityQueue α) : Deed α → PriorityQueue α → Bool → Prop where
  | returned {c : QueueCall α} {result : QueueResult α} {q' : PriorityQueue α} {wakes : Bool}
      (h : c.Finishes q result q' wakes) : Does q (.returned c result) q' wakes
  | drained : Does q (.drained q.drain.1) q.drain.2 true
  | closed : Does q .closed q.close true
  | reopened : Does q .reopened q.reopen true

namespace Does

variable {q q' : PriorityQueue α} {d : QueueCall α} {deed : Deed α} {wakes : Bool}

theorem limit_eq (h : Does q deed q' wakes) : q'.limit = q.limit := by
  cases h with
  | returned h => exact h.limit_eq
  | drained | closed | reopened => rfl

theorem inRoom (h : Does q deed q' wakes) (hq : q.InRoom) : q'.InRoom := by
  cases h with
  | returned h => exact h.inRoom hq
  | drained => exact Nat.zero_le _
  | closed | reopened => exact hq

theorem blocked (h : Does q deed q' wakes) (hwakes : wakes = false) (hq : q.InRoom)
    (hd : d.Blocked q) : d.Blocked q' := by
  cases h with
  | returned h => exact h.blocked hwakes hq hd
  | drained | closed | reopened => cases hwakes

end Does

/-- A step that finished something, and the queue before and after it. -/
structure Turn (α : Type) where
  before : PriorityQueue α
  deed : Deed α
  after : PriorityQueue α

/-- A queue, the threads that sleep at it, and what has been finished, the oldest first. -/
structure Threads (α : Type) where
  queue : PriorityQueue α
  asleep : Nat → Option (Sleeper α) := fun _ => none
  history : List (Turn α) := []

/-- What the next thread does that gets the lock. -/
inductive Move (α : Type) where
  /-- starts a call -/
  | call (thread : Nat) (c : QueueCall α)
  /-- wakes up, notified or not, and tries again -/
  | wake (thread : Nat)
  | drain (thread : Nat)
  | close (thread : Nat)
  | reopen (thread : Nat)

namespace Threads

/-- A queue at which nobody sleeps. -/
def start (limit : Nat) : Threads α := { queue := .withLimit limit }

/-- The thread falls asleep in its call. -/
def sleep (t : Threads α) (thread : Nat) (c : QueueCall α) : Threads α :=
  { t with asleep := Function.update t.asleep thread (some { call := c }) }

/-- The thread does not sleep any more. -/
def rouse (t : Threads α) (thread : Nat) : Threads α :=
  { t with asleep := Function.update t.asleep thread none }

/-- Something is finished, and if it wakes the sleepers, all of them are notified. -/
def finish (t : Threads α) (deed : Deed α) (q : PriorityQueue α) (wakes : Bool) : Threads α where
  queue := q
  asleep n := (t.asleep n).map fun s => { s with notified := s.notified || wakes }
  history := t.history ++ [⟨t.queue, deed, q⟩]

/-- The thread tries its call. -/
def attempt (t : Threads α) (thread : Nat) (c : QueueCall α) : Threads α :=
  match c.attempt t.queue with
  | .wait => t.sleep thread c
  | .done result q wakes => (t.rouse thread).finish (.returned c result) q wakes

section

variable {t : Threads α} {n m : Nat} {c : QueueCall α} {s : Sleeper α}

theorem asleep_sleep (h : (t.sleep n c).asleep m = some s) :
    m = n ∧ s = { call := c } ∨ m ≠ n ∧ t.asleep m = some s := by
  change Function.update t.asleep n (some { call := c }) m = some s at h
  by_cases hm : m = n
  · rw [hm, Function.update_self] at h
    exact Or.inl ⟨hm, (Option.some.inj h).symm⟩
  · rw [Function.update_of_ne hm] at h
    exact Or.inr ⟨hm, h⟩

theorem asleep_rouse (h : (t.rouse n).asleep m = some s) : m ≠ n ∧ t.asleep m = some s := by
  change Function.update t.asleep n none m = some s at h
  by_cases hm : m = n
  · rw [hm, Function.update_self] at h
    cases h
  · rw [Function.update_of_ne hm] at h
    exact ⟨hm, h⟩

theorem attempt_wait (h : c.attempt t.queue = .wait) : t.attempt n c = t.sleep n c := by
  rw [attempt, h]

theorem attempt_done {result : QueueResult α} {q : PriorityQueue α} {wakes : Bool}
    (h : c.attempt t.queue = .done result q wakes) :
    t.attempt n c = (t.rouse n).finish (.returned c result) q wakes := by
  rw [attempt, h]

end

/-- One step; none if the thread is not in a position to make it. -/
def step (t : Threads α) : Move α → Option (Threads α)
  | .call n c => if (t.asleep n).isNone then some (t.attempt n c) else none
  | .wake n => (t.asleep n).map fun s => t.attempt n s.call
  | .drain n =>
      if (t.asleep n).isNone then
        some (t.finish (.drained t.queue.drain.1) t.queue.drain.2 true)
      else none
  | .close n => if (t.asleep n).isNone then some (t.finish .closed t.queue.close true) else none
  | .reopen n =>
      if (t.asleep n).isNone then some (t.finish .reopened t.queue.reopen true) else none

/-- A whole run; none if one of its steps is not possible. -/
def run (t : Threads α) (moves : List (Move α)) : Option (Threads α) := moves.foldlM step t

/-- What every step preserves holds after every run. -/
theorem run_induction {P : Threads α → Prop} (hstep : ∀ t m t', P t → t.step m = some t' → P t')
    {t t' : Threads α} {moves : List (Move α)} (h : t.run moves = some t') (ht : P t) : P t' := by
  induction moves generalizing t with
  | nil =>
      cases h
      exact ht
  | cons m moves ih =>
      obtain ⟨u, hu, hrest⟩ := Option.bind_eq_some_iff.mp h
      exact ih hrest (hstep t m u ht hu)

/-- In a step a thread falls asleep because its call is blocked, or something is finished. -/
inductive Steps (t : Threads α) : Threads α → Prop where
  | slept (thread : Nat) (c : QueueCall α) (h : c.Blocked t.queue) : Steps t (t.sleep thread c)
  | finished {awake : Threads α} {deed : Deed α} {q : PriorityQueue α} {wakes : Bool}
      (h : Does t.queue deed q wakes) (hqueue : awake.queue = t.queue)
      (hhistory : awake.history = t.history)
      (hasleep : ∀ n s, awake.asleep n = some s → t.asleep n = some s) :
      Steps t (awake.finish deed q wakes)

theorem attempt_steps (t : Threads α) (thread : Nat) (c : QueueCall α) :
    Steps t (t.attempt thread c) := by
  obtain ⟨hwait, hblocked⟩ | ⟨result, q, wakes, hdone, h⟩ := c.attempt_cases t.queue
  · rw [attempt_wait hwait]
    exact .slept thread c hblocked
  · rw [attempt_done hdone]
    exact .finished (.returned h) rfl rfl fun n s hs => (asleep_rouse hs).2

theorem step_steps {t t' : Threads α} {m : Move α} (h : t.step m = some t') : Steps t t' := by
  have hguard {b : Bool} {u : Threads α} (hu : (if b then some u else none) = some t') : u = t' := by
    split at hu
    · exact Option.some.inj hu
    · cases hu
  cases m with
  | call n c =>
      rw [← hguard h]
      exact t.attempt_steps n c
  | wake n =>
      obtain ⟨s, -, rfl⟩ := Option.map_eq_some_iff.mp h
      exact t.attempt_steps n s.call
  | drain n =>
      rw [← hguard h]
      exact .finished .drained rfl rfl fun _ _ hs => hs
  | close n =>
      rw [← hguard h]
      exact .finished .closed rfl rfl fun _ _ hs => hs
  | reopen n =>
      rw [← hguard h]
      exact .finished .reopened rfl rfl fun _ _ hs => hs

/-! ## Sleepers -/

/-- Whoever sleeps and has not been notified is blocked. -/
structure Patient (limit : Nat) (t : Threads α) : Prop where
  limit_eq : t.queue.limit = max limit 1
  inRoom : t.queue.InRoom
  blocked : ∀ n s, t.asleep n = some s → s.notified = false → s.call.Blocked t.queue

theorem start_patient (limit : Nat) : Patient limit (start limit : Threads α) where
  limit_eq := rfl
  inRoom := Nat.zero_le _
  blocked _ _ hs := by cases hs

theorem Steps.patient {limit : Nat} {t t' : Threads α} (h : Steps t t') (ht : Patient limit t) :
    Patient limit t' := by
  cases h with
  | slept thread c hblocked =>
      refine ⟨ht.limit_eq, ht.inRoom, fun n s hs hn => ?_⟩
      rcases asleep_sleep hs with ⟨-, rfl⟩ | ⟨-, hold⟩
      · exact hblocked
      · exact ht.blocked n s hold hn
  | finished hdoes _ _ hasleep =>
      refine ⟨hdoes.limit_eq.trans ht.limit_eq, hdoes.inRoom ht.inRoom, fun n s hs hn => ?_⟩
      obtain ⟨s, hold, rfl⟩ := Option.map_eq_some_iff.mp hs
      -- whoever has not been notified now had not been before, either
      obtain ⟨hbefore, hwakes⟩ := Bool.or_eq_false_iff.mp hn
      exact hdoes.blocked hwakes ht.inRoom (ht.blocked n s (hasleep n s hold) hbefore)

theorem run_patient {limit : Nat} {t : Threads α} {moves : List (Move α)}
    (h : (start limit).run moves = some t) : Patient limit t :=
  run_induction (fun _ _ _ ht hm => (step_steps hm).patient ht) h (start_patient limit)

/-- However the threads take turns, a thread that sleeps and has not been notified since it fell
asleep has nothing to wake up for: if it takes something out, both lanes are empty, if it puts
something in, the standard lane is full, and the queue is open. -/
theorem asleep_blocked {limit : Nat} {t : Threads α} {moves : List (Move α)}
    (h : (start limit).run moves = some t) {n : Nat} {s : Sleeper α} (hs : t.asleep n = some s)
    (hn : s.notified = false) :
    (∀ mayWait, s.call = .dequeue mayWait →
        t.queue.high = [] ∧ t.queue.standard = [] ∧ t.queue.isClosed = false)
      ∧ ∀ item priority, s.call = .enqueue item priority →
        t.queue.standard.length = max 1 limit ∧ t.queue.isClosed = false := by
  have ht := run_patient h
  have hblocked := ht.blocked n s hs hn
  constructor
  · intro mayWait hcall
    rw [hcall] at hblocked
    exact hblocked.2
  · intro item priority hcall
    rw [hcall] at hblocked
    obtain ⟨-, hfull, hopen⟩ := hblocked
    have hlength := Nat.le_antisymm ht.inRoom hfull
    rw [ht.limit_eq, Nat.max_comm] at hlength
    exact ⟨hlength, hopen⟩

end Threads

end RespMux
