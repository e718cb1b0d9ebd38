import Mathlib.Data.List.Nodup
import Mathlib.Data.List.Perm.Basic
import RespMux.Proofs.Queue.Threads

/-!
# The history of a queue

Every finished step begins with the queue that the one before it has left, and each of them is
accounted for lane by lane: what was there, followed by what it puts in, is what it takes out
followed by what is there afterwards. Laid end to end these equations are the history of a lane, in
which the items leave in the order in which they have been accepted, and none is lost or comes
twice.
-/

set_option autoImplicit false

namespace RespMux

variable {α : Type}

/-! ## One step -/

namespace Turn

/-- The item of a call that puts one in, whatever became of it. -/
def offered (t : Turn α) : List α :=
  match t.deed with
  | .returned (.enqueue item _) _ => [item]
  | _ => []

/-- The item that is accepted. -/
def accepted (t : Turn α) : List α :=
  match t.deed with
  | .returned (.enqueue item _) .accepted => [item]
  | _ => []

/-- The item that is accepted into a lane. -/
def entered (t : Turn α) (lane : Priority) : List α :=
  match t.deed with
  | .returned (.enqueue item priority) .accepted => if priority = lane then [item] else []
  | _ => []

/-- The item that is given back. -/
def refused (t : Turn α) : List α :=
  match t.deed with
  | .returned _ (.refused item) => [item]
  | _ => []

/-- The items that are handed out. -/
def handed (t : Turn α) : List α :=
  match t.deed with
  | .returned _ (.item x _) => [x]
  | .drained items => items
  | _ => []

/-- The items that leave a lane: those at its front that are not there any more afterwards. -/
def left (t : Turn α) (lane : Priority) : List α :=
  (t.before.lane lane).take ((t.before.lane lane).length - (t.after.lane lane).length)

/-- What every finished step abides by. -/
structure Lawful (t : Turn α) : Prop where
  /-- items come in at the back of a lane and leave at its front -/
  lanes : ∀ p, t.before.lane p ++ t.entered p = t.left p ++ t.after.lane p
  accepted_eq : t.accepted = t.entered .high ++ t.entered .standard
  /-- what leaves the lanes is handed out, the high lane first -/
  handed_eq : t.handed = t.left .high ++ t.left .standard
  offered_eq : t.offered = t.accepted ++ t.refused
  /-- only a closed queue gives an item back, the one it was offered, and does not change -/
  refusal : ∀ c item, t.deed = .returned c (.refused item) →
    (∃ p, c = .enqueue item p) ∧ t.before.isClosed = true ∧ t.after = t.before
  acceptance : t.accepted ≠ [] → t.before.isClosed = false
  /-- a call takes from the standard lane only when the high lane is empty -/
  standard_last : ∀ c result, t.deed = .returned c result → t.left .standard ≠ [] →
    t.before.high = []
  drainage : ∀ items, t.deed = .drained items →
    items = t.before.high ++ t.before.standard ∧ t.after.high = [] ∧ t.after.standard = []
  /-- the flag of an item that a call takes out -/
  overtaking : ∀ c x overtook, t.deed = .returned c (.item x overtook) →
    (overtook = true ↔ t.left .high = [x] ∧ t.before.standard ≠ [])

end Turn

namespace Does

variable {q q' : PriorityQueue α} {deed : Deed α} {wakes : Bool}

theorem lanes (h : Does q deed q' wakes) (p : Priority) :
    q.lane p ++ Turn.entered ⟨q, deed, q'⟩ p = Turn.left ⟨q, deed, q'⟩ p ++ q'.lane p := by
  cases h with
  | drained | closed | reopened =>
      cases p <;>
        simp [PriorityQueue.lane, Turn.entered, Turn.left, PriorityQueue.drain,
          PriorityQueue.close, PriorityQueue.reopen]
  | returned h =>
      cases h with
      | high | standard | refused =>
          cases p <;> simp [PriorityQueue.lane, Turn.entered, Turn.left]
      | fromHigh _ hhigh =>
          cases p <;> simp [PriorityQueue.lane, Turn.entered, Turn.left, hhigh]
      | fromStandard _ hhigh hstandard | nothing _ hhigh hstandard =>
          cases p <;> simp [PriorityQueue.lane, Turn.entered, Turn.left, hhigh, hstandard]

theorem accepted_eq (h : Does q deed q' wakes) :
    Turn.accepted ⟨q, deed, q'⟩
      = Turn.entered ⟨q, deed, q'⟩ .high ++ Turn.entered ⟨q, deed, q'⟩ .standard := by
  cases h with
  | drained | closed | reopened => rfl
  | returned h => cases h <;> rfl

theorem handed_eq (h : Does q deed q' wakes) :
    Turn.handed ⟨q, deed, q'⟩
      = Turn.left ⟨q, deed, q'⟩ .high ++ Turn.left ⟨q, deed, q'⟩ .standard := by
  cases h with
  | drained | closed | reopened =>
      simp [PriorityQueue.lane, Turn.handed, Turn.left, PriorityQueue.drain, PriorityQueue.toList,
        PriorityQueue.close, PriorityQueue.reopen]
  | returned h =>
      cases h with
      | high | standard | refused => simp [PriorityQueue.lane, Turn.handed, Turn.left]
      | fromHigh _ hhigh => simp [PriorityQueue.lane, Turn.handed, Turn.left, hhigh]
      | fromStandard _ hhigh hstandard | nothing _ hhigh hstandard =>
          simp [PriorityQueue.lane, Turn.handed, Turn.left, hhigh, hstandard]

theorem offered_eq (h : Does q deed q' wakes) :
    Turn.offered ⟨q, deed, q'⟩ = Turn.accepted ⟨q, deed, q'⟩ ++ Turn.refused ⟨q, deed, q'⟩ := by
  cases h with
  | drained | closed | reopened => rfl
  | returned h => cases h <;> rfl

end Does

theorem QueueCall.Finishes.refusal {q q' : PriorityQueue α} {c : QueueCall α} {item : α}
    {wakes : Bool} (h : c.Finishes q (.refused item) q' wakes) :
    (∃ p, c = .enqueue item p) ∧ q.isClosed = true ∧ q' = q := by
  cases h with
  | refused _ p hclosed => exact ⟨⟨p, rfl⟩, hclosed, rfl⟩

theorem Does.lawful {q q' : PriorityQueue α} {deed : Deed α} {wakes : Bool}
    (h : Does q deed q' wakes) : Turn.Lawful ⟨q, deed, q'⟩ where
  lanes := h.lanes
  accepted_eq := h.accepted_eq
  handed_eq := h.handed_eq
  offered_eq := h.offered_eq
  refusal c item hdeed := by
    cases hdeed
    cases h with
    | returned h => exact h.refusal
  acceptance haccepted := by
    cases h with
    | drained | closed | reopened => exact absurd rfl haccepted
    | returned h =>
        cases h with
        | high _ hopen | standard _ hopen => exact hopen
        | refused | fromHigh | fromStandard | nothing => exact absurd rfl haccepted
  standard_last c result hdeed hleft := by
    cases hdeed
    cases h with
    | returned h =>
        cases h with
        | fromStandard _ hhigh | nothing _ hhigh => exact hhigh
        | high | standard | refused | fromHigh =>
            simp [Turn.left, PriorityQueue.lane] at hleft
  drainage items hdeed := by
    cases hdeed
    cases h with
    | drained => exact ⟨rfl, rfl, rfl⟩
  overtaking c x overtook hdeed := by
    cases hdeed
    cases h with
    | returned h =>
        cases h with
        | fromHigh _ hhigh =>
            simp [Turn.left, PriorityQueue.lane, hhigh]
        | fromStandard _ hhigh =>
            simp [Turn.left, PriorityQueue.lane, hhigh]

/-! ## One step after the other -/

/-- Each step begins with the queue that the one before it has left. -/
inductive Linked (q₀ : PriorityQueue α) : List (Turn α) → PriorityQueue α → Prop where
  | start : Linked q₀ [] q₀
  | next {history : List (Turn α)} {q q' : PriorityQueue α} {deed : Deed α} {wakes : Bool}
      (hlinked : Linked q₀ history q) (hdoes : Does q deed q' wakes) :
      Linked q₀ (history ++ [⟨q, deed, q'⟩]) q'

namespace Linked

variable {q₀ q : PriorityQueue α} {history : List (Turn α)}

theorem lawful (h : Linked q₀ history q) : ∀ t ∈ history, t.Lawful := by
  induction h with
  | start => exact fun _ ht => absurd ht List.not_mem_nil
  | next _ hdoes ih =>
      intro t ht
      rw [List.mem_append, List.mem_singleton] at ht
      obtain ht | rfl := ht
      · exact ih t ht
      · exact hdoes.lawful

/-- The history of a lane. -/
theorem lane (h : Linked q₀ history q) (p : Priority) :
    q₀.lane p ++ history.flatMap (·.entered p) = history.flatMap (·.left p) ++ q.lane p := by
  induction h with
  | start => exact List.append_nil _
  | @next history q q' deed wakes _ hdoes ih =>
      have hlane := hdoes.lawful.lanes p
      rw [List.flatMap_append, List.flatMap_append, List.flatMap_singleton, List.flatMap_singleton,
        ← List.append_assoc, ih, List.append_assoc, hlane, List.append_assoc]

theorem perm_append_append (as bs cs ds : List α) :
    (as ++ bs ++ (cs ++ ds)).Perm (as ++ cs ++ (bs ++ ds)) := by
  rw [List.append_assoc, List.append_assoc]
  exact (List.perm_append_comm_assoc bs cs ds).append_left as

/-- What is said of two lists for each step is true of both histories. -/
theorem flatMap_perm {f g k : Turn α → List α} (h : ∀ t ∈ history, f t = g t ++ k t) :
    (history.flatMap f).Perm (history.flatMap g ++ history.flatMap k) := by
  rw [List.flatMap_congr h]
  exact (List.flatMap_append_perm _ _ _).symm

/-- The histories of both lanes together. -/
theorem conserved (h : Linked q₀ history q) :
    (q₀.toList ++ history.flatMap Turn.accepted).Perm
      (history.flatMap Turn.handed ++ q.toList) := by
  have haccepted := flatMap_perm fun t ht => (h.lawful t ht).accepted_eq
  have hhanded := flatMap_perm fun t ht => (h.lawful t ht).handed_eq
  have hhigh : q₀.high ++ _ = _ ++ q.high := h.lane .high
  have hstandard : q₀.standard ++ _ = _ ++ q.standard := h.lane .standard
  calc List.Perm (q₀.toList ++ history.flatMap Turn.accepted)
        (q₀.high ++ q₀.standard
          ++ (history.flatMap (·.entered .high) ++ history.flatMap (·.entered .standard))) :=
        haccepted.append_left _
    List.Perm _ (q₀.high ++ history.flatMap (·.entered .high)
          ++ (q₀.standard ++ history.flatMap (·.entered .standard))) := perm_append_append ..
    List.Perm _ (history.flatMap (·.left .high) ++ q.high
          ++ (history.flatMap (·.left .standard) ++ q.standard)) := by rw [hhigh, hstandard]
    List.Perm _ (history.flatMap (·.left .high) ++ history.flatMap (·.left .standard)
          ++ (q.high ++ q.standard)) := perm_append_append ..
    List.Perm _ (history.flatMap Turn.handed ++ q.toList) := hhanded.symm.append_right _

end Linked

namespace Threads

theorem Steps.linked {q₀ : PriorityQueue α} {t t' : Threads α} (h : Steps t t')
    (ht : Linked q₀ t.history t.queue) : Linked q₀ t'.history t'.queue := by
  cases h with
  | slept => exact ht
  | @finished awake deed q wakes hdoes hqueue hhistory _ =>
      show Linked q₀ (awake.history ++ [⟨awake.queue, deed, q⟩]) q
      rw [hqueue, hhistory]
      exact ht.next hdoes

theorem run_linked {limit : Nat} {t : Threads α} {moves : List (Move α)}
    (h : (start limit).run moves = some t) : Linked (.withLimit limit) t.history t.queue :=
  run_induction (fun _ _ _ ht hm => (step_steps hm).linked ht) h .start

/-- The queue accounts for every item. -/
structure Accounted (limit : Nat) (t : Threads α) : Prop where
  /-- the items accepted are those handed out and those in the lanes -/
  conserved : (t.history.flatMap Turn.accepted).Perm
    (t.history.flatMap Turn.handed ++ t.queue.toList)
  /-- an item that is given back is neither here nor there, if it was not offered twice -/
  refused : (t.history.flatMap Turn.offered).Nodup → ∀ item ∈ t.history.flatMap Turn.refused,
    item ∉ t.history.flatMap Turn.handed ∧ item ∉ t.queue.toList
  /-- items leave a lane in the order in which they are accepted into it -/
  inOrder : ∀ p, t.history.flatMap (·.entered p) = t.history.flatMap (·.left p) ++ t.queue.lane p
  inRoom : t.queue.standard.length ≤ max 1 limit
  lawful : ∀ turn ∈ t.history, turn.Lawful

/-- However many threads share the queue and however they take turns, it accounts for every item. -/
theorem run_accounted {limit : Nat} {t : Threads α} {moves : List (Move α)}
    (h : (start limit).run moves = some t) : Accounted limit t where
  conserved := (run_linked h).conserved
  refused hnodup item hrefused := by
    have hoffered := Linked.flatMap_perm fun turn ht => ((run_linked h).lawful turn ht).offered_eq
    have hdisjoint := List.disjoint_of_nodup_append (hoffered.nodup_iff.mp hnodup)
    have haccepted : item ∉ t.history.flatMap Turn.handed ++ t.queue.toList := by
      intro hmem
      exact hdisjoint ((run_linked h).conserved.mem_iff.mpr hmem) hrefused
    rw [List.mem_append, not_or] at haccepted
    exact haccepted
  inOrder p := by
    have hlane := (run_linked h).lane p
    cases p <;> exact hlane
  inRoom := by
    have ht := run_patient h
    have hroom := ht.inRoom
    rw [PriorityQueue.InRoom, ht.limit_eq, Nat.max_comm] at hroom
    exact hroom
  lawful := (run_linked h).lawful

/-- An item overtakes another one, a producer that sleeps is turned away when the queue is closed,
and what comes in after it is open again is drained. -/
def closing : List (Move Nat) :=
  [.call 1 (.enqueue 5 .standard), .call 2 (.enqueue 6 .standard), .call 3 (.enqueue 9 .high),
    .call 4 (.dequeue true), .close 3, .wake 2, .call 4 (.dequeue true), .reopen 3,
    .call 1 (.enqueue 7 .standard), .drain 4]

theorem run_accounted_closing :
    ∃ t, (start 1).run closing = some t ∧ t.history.flatMap Turn.handed = [9, 5, 7]
      ∧ t.history.flatMap Turn.refused = [6] ∧ Accounted 1 t :=
  ⟨_, rfl, rfl, rfl, @run_accounted Nat 1 _ closing rfl⟩

end Threads

end RespMux
