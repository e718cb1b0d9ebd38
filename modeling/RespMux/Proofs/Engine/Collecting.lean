import RespMux.Proofs.Cancellation
import RespMux.Proofs.Engine.Lanes
import RespMux.Proofs.Queue.Threads

/-!
# What a transaction has collected

Only a step that works on a transaction changes what it has collected (`step_apart`). Such a step
puts a command at the end of a lane, or it takes everything out, as a batch or to be cancelled.

Whatever callers do to a transaction, except to execute it, is done out of sight of the pumps
(`Aside`), and so is executing it when it has nothing.
-/

set_option autoImplicit false

namespace RespMux

namespace PriorityQueue

variable {α : Type} {q q' : PriorityQueue α} {x : α} {p : Priority} {wakes : Bool}

/-- An item comes in at the end of its lane. -/
theorem enqueue_lane (h : q.enqueue x p = .done (.ok ()) q' wakes) (p' : Priority) :
    q'.lane p' = q.lane p' ++ if p = p' then [x] else [] := by
  unfold enqueue at h
  split at h
  · cases h
  · cases p with
    | high =>
      cases h
      cases p' <;> simp [lane]
    | standard =>
      dsimp only at h
      split at h
      · cases h
      · cases h
        cases p' <;> simp [lane]

/-- Only a closed queue gives an item back. -/
theorem enqueue_error {y : α} (h : q.enqueue x p = .done (.error y) q' wakes) :
    q.isClosed = true := by
  unfold enqueue at h
  split at h
  · next hclosed => exact hclosed
  · cases p with
    | high => cases h
    | standard =>
      dsimp only at h
      split at h
      · cases h
      · cases h

theorem toList_eq_lanes (q : PriorityQueue α) : q.toList = q.lane .high ++ q.lane .standard := rfl

/-- An empty queue is drained already. -/
theorem drain_of_nil (h : q.toList = []) : q.drain.2 = q := by
  obtain ⟨high, standard, isClosed, limit, limit_pos⟩ := q
  obtain ⟨rfl, rfl⟩ := List.append_eq_nil_iff.1 h
  rfl

end PriorityQueue

namespace Connection

variable {c c₁ c' : Connection} {t u : Nat}

/-! ## Transactions apart -/

theorem collected_setCollected_self (ht : t < c.transactions.size) (q : PriorityQueue MessageId) :
    (c.setCollected t q).collected t = q := by
  unfold collected setCollected
  dsimp only
  rw [Array.getElem?_setIfInBounds_self_of_lt ht]
  rfl

theorem collected_setCollected_ne (h : u ≠ t) (q : PriorityQueue MessageId) :
    (c.setCollected u q).collected t = c.collected t := by
  unfold collected setCollected
  dsimp only
  rw [Array.getElem?_setIfInBounds_ne h]

/-- What the transaction has collected is the same in both. -/
structure Apart (t : Nat) (c c' : Connection) : Prop where
  size : c.transactions.size ≤ c'.transactions.size
  collected : c'.collected t = c.collected t

theorem Apart.refl (c : Connection) : Apart t c c := ⟨Nat.le_refl _, rfl⟩

theorem Apart.trans (h : Apart t c c₁) (h' : Apart t c₁ c') : Apart t c c' :=
  ⟨Nat.le_trans h.size h'.size, h'.collected.trans h.collected⟩

theorem Apart.of_eq (h : c'.transactions = c.transactions) : Apart t c c' := by
  refine ⟨Nat.le_of_eq (congrArg Array.size h.symm), ?_⟩
  unfold Connection.collected
  rw [h]

theorem apart_setCollected (h : u ≠ t) (q : PriorityQueue MessageId) :
    Apart t c (c.setCollected u q) := by
  refine ⟨Nat.le_of_eq ?_, collected_setCollected_ne h q⟩
  exact (Array.size_setIfInBounds).symm

theorem apart_newTransaction (c : Connection) (t : Nat) : Apart t c c.newTransaction.2 := by
  refine ⟨?_, ?_⟩
  · show _ ≤ (c.transactions.push _).size
    rw [Array.size_push]
    exact Nat.le_succ _
  · unfold newTransaction Connection.collected
    dsimp only
    rw [Array.getElem?_push]
    split
    · next heq => rw [heq, Array.getElem?_eq_none (Nat.le_refl _), Option.getD_some, Option.getD_none]
    · rfl

theorem apart_shutdown (c : Connection) (cause : String) (error : Option Error) :
    Apart t c (c.shutdown cause error) :=
  .of_eq (c.shutdown_transactions cause error)

theorem apart_transition (c : Connection) (origins : List Lifecycle) (target : Lifecycle) :
    Apart t c (c.transition origins target).2 := by
  obtain ⟨state, heq⟩ := c.transition_eq origins target
  rw [heq]
  exact .of_eq rfl

theorem enqueue_transactions {id : MessageId} {p : Priority}
    (h : c.enqueue id p = some (.ok c')) : c'.transactions = c.transactions := by
  unfold enqueue at h
  split at h
  · cases h
    rfl
  · cases h
  · cases h

/-- The transaction that a caller submits to, if any. -/
def Target.transaction? : Target → Option Nat
  | connection => none
  | transaction t => some t

theorem apart_executor {target : Target} {id : MessageId} {p : Priority}
    (h : (executor target).enqueue c id p = some (.ok c')) (ht : target.transaction? ≠ some t) :
    Apart t c c' := by
  cases target with
  | connection => exact .of_eq (enqueue_transactions h)
  | transaction u =>
    have hne : u ≠ t := fun heq => ht (congrArg some heq)
    simp only [executor, collector] at h
    split at h
    · cases h
      exact apart_setCollected hne _
    · cases h
    · cases h

theorem apart_submit {target : Target} {id : MessageId} {p : Priority} {shape : Shape}
    {k : CompletionId} (h : (executor target).submit c id p shape = some (k, c'))
    (ht : target.transaction? ≠ some t) : Apart t c c' := by
  have hattach : Apart t c { c with store := c.store.attach id shape } := .of_eq rfl
  rcases submit_cases h with ⟨-, e, rfl⟩ | ⟨-, hok | ⟨e, -, rfl⟩⟩
  · exact .of_eq rfl
  · exact hattach.trans (apart_executor hok ht)
  · exact .of_eq rfl

theorem apart_execute {p : Priority} {k : CompletionId}
    (h : c.executeTransaction u p = some (k, c')) (hne : u ≠ t) : Apart t c c' := by
  have hemptied : Apart t c (c.setCollected u (c.collected u).drain.2) := apart_setCollected hne _
  have hhandedOn : Apart t c (c.handedOn u) := hemptied.trans (.of_eq rfl)
  rcases execute_cases h with ⟨-, rfl⟩ | ⟨-, hok | ⟨e, -, rfl⟩⟩
  · exact hemptied.trans (.of_eq rfl)
  · exact hhandedOn.trans (.of_eq (enqueue_transactions hok))
  · exact hhandedOn.trans (.of_eq rfl)

theorem apart_answerBlock (c : Connection) (b : Block) (r : Reply) :
    Apart t c (c.answerBlock b r) := by
  cases hres : b.results? r with
  | error e =>
    unfold answerBlock
    rw [hres]
    exact .of_eq rfl
  | ok rs =>
    obtain ⟨n, events, heq⟩ := c.answerBlock_eq hres
    have hanswered : Apart t c
        { c with store := c.store.answerBlock b rs, counters := n, events := events } := .of_eq rfl
    rw [heq]
    split
    · exact hanswered.trans (apart_shutdown _ _ _)
    · exact hanswered

theorem apart_processReply (c : Connection) (r : Reply) : Apart t c (c.processReply r).2 := by
  cases h : c.ledger.entries with
  | nil =>
    rw [processReply_nil h]
    exact .refl c
  | cons f fs =>
    have hpopped : Apart t c (c.popped fs) := .of_eq rfl
    cases f with
    | message id =>
      obtain ⟨n, events, heq⟩ := (c.popped fs).answer_eq id r
      rw [processReply_cons h]
      show Apart t c (answer _ id r).2
      rw [heq]
      exact .of_eq rfl
    | exec b =>
      obtain ⟨n, events, heq⟩ := processReply_exec (r := r) h
      have hanswered := apart_answerBlock (t := t) (c.popped fs) b r
      rw [heq]
      exact (hpopped.trans hanswered).trans (.of_eq rfl)

theorem apart_finishOpening (c : Connection) (ping : Outcome) :
    Apart t c (c.finishOpening ping).2 := by
  have htransition : Apart t c (c.transition [.opening] .established).2 := c.apart_transition _ _
  unfold finishOpening
  split
  · split
    · next heq =>
      rw [heq] at htransition
      exact htransition
    · next heq =>
      rw [heq] at htransition
      exact htransition
  · next error => exact c.apart_shutdown "handshake failed" (some error)

theorem apart_close (c : Connection) (abort : Bool) : Apart t c (c.close abort) := by
  have habort : Apart t c (if abort then { c with aborting := true } else c) := by
    split
    · exact .of_eq rfl
    · exact .refl c
  unfold close
  dsimp only
  generalize (if abort then { c with aborting := true } else c) = c₁ at habort
  refine habort.trans ?_
  split
  · exact c₁.apart_shutdown _ _
  · exact .of_eq rfl
  · exact .of_eq rfl
  · split
    · exact .of_eq rfl
    · exact .refl _
  · split
    · exact .of_eq rfl
    · exact .refl _

end Connection

/-- The transaction that a step works on, if any. -/
def Event.transaction? : Event → Option Nat
  | put target _ _ => target.transaction?
  | submit target _ _ _ => target.transaction?
  | execute t _ => some t
  | discard t => some t
  | _ => none

namespace Engine

variable {accepted : List MessageId} {e e' : Engine} {ev : Event} {t : Nat}

theorem apart_settle (w : Writer) : Connection.Apart t w.connection w.settle.connection := by
  rcases settle_cases w with heq | ⟨error, heq⟩
  · rw [heq]
    exact .refl _
  · rw [heq]
    exact w.connection.apart_shutdown "error writing to the connection" (some error)

theorem apart_round (hs : e.Sound accepted) (h : e.step .round = some e') :
    Connection.Apart t e.connection e'.connection := by
  obtain ⟨id, overtook, q, wakes, hnext, hfault, rfl⟩ := step_round h
  have hready := withQueue_ready hs hfault (hs.next_open hnext) q
  obtain ⟨s, sel, fs, w, ⟨n, rfl⟩, -, hw⟩ :=
    Writer.handle_emits hready hs.custody.wellFormed id overtook
  refine .of_eq ?_
  show ((e.withQueue q).handle id overtook).connection.transactions = _
  rcases hw with ⟨-, hw⟩ | hw
  · rw [hw]
    rfl
  · rw [hw, Writer.flush_connection]
    rfl

theorem apart_finish (hs : e.Sound accepted) (h : e.step .finish = some e') :
    Connection.Apart t e.connection e'.connection := by
  obtain ⟨hfault, rfl⟩ := step_finish h
  show Connection.Apart t e.connection e.writer.finish.connection
  cases ha : e.connection.aborting with
  | true =>
    rw [finish_aborting hfault ha]
    exact e.connection.apart_shutdown "connection aborted" none
  | false =>
    obtain ⟨w, ⟨n, rfl⟩, heq, -⟩ := finish_emits hs hfault ha
    have hclosing : Connection.Apart t e.connection e.closing.connection :=
      e.connection.apart_transition _ _
    have hemitted : Connection.Apart t e.closing.connection (e.closing.after (e.store.issue .quit)
        e.writer.selected [.message e.store.messages.size] n).connection := .of_eq rfl
    have hsettled := apart_settle (t := t) (e.closing.after (e.store.issue .quit)
      e.writer.selected [.message e.store.messages.size] n).flush
    rw [heq]
    rw [Writer.flush_connection] at hsettled
    exact (hclosing.trans hemitted).trans hsettled

/-- A step that does not work on the transaction leaves it alone. -/
theorem step_apart (hs : e.Sound accepted) (hev : ev.transaction? ≠ some t)
    (h : e.step ev = some e') : Connection.Apart t e.connection e'.connection := by
  have hsame : ∀ s : Store, Connection.Apart t e.connection { e.connection with store := s } :=
    fun _ => .of_eq rfl
  cases ev with
  | make r =>
    cases h
    exact hsame _
  | attach id shape =>
    obtain ⟨-, -, rfl⟩ := step_attach_inv h
    exact hsame _
  | put target id priority =>
    obtain ⟨-, ⟨c, henq, rfl⟩ | ⟨-, rfl⟩⟩ := step_put_inv h
    · exact Connection.apart_executor henq hev
    · exact .refl _
  | submit target id priority shape =>
    obtain ⟨-, k, c, hsubmit, rfl⟩ := step_submit_inv h
    exact Connection.apart_submit hsubmit hev
  | fail id error =>
    obtain ⟨-, rfl⟩ := step_fail_inv h
    exact hsame _
  | cancel id =>
    obtain ⟨-, rfl⟩ := step_cancel_inv h
    exact hsame _
  | cancelThrough k =>
    cases h
    exact hsame _
  | look k l =>
    cases h
    exact hsame _
  | timeOut =>
    cases h
    exact .of_eq rfl
  | newTransaction =>
    cases h
    exact e.connection.apart_newTransaction t
  | execute u priority =>
    obtain ⟨k, c, hexecute, rfl⟩ := step_execute_inv h
    exact Connection.apart_execute hexecute fun heq => hev (congrArg some heq)
  | discard u =>
    cases h
    exact (Connection.apart_setCollected (fun heq => hev (congrArg some heq)) _).trans (.of_eq rfl)
  | beginOpening =>
    cases h
    exact e.connection.apart_transition _ _
  | connectFailed error =>
    cases h
    exact e.connection.apart_shutdown "connect failed" (some error)
  | finishOpening ping =>
    cases h
    exact e.connection.apart_finishOpening ping
  | openingTimedOut =>
    cases h
    have htimeout : Connection.Apart t e.connection e.connection.timeout.2 := .of_eq rfl
    exact htimeout.trans (e.connection.timeout.2.apart_shutdown "handshake timed out"
      (some e.connection.timeout.1))
  | close abort =>
    cases h
    exact e.connection.apart_close abort
  | shutdown cause error =>
    cases h
    exact e.connection.apart_shutdown cause error
  | settle =>
    cases h
    exact apart_settle e.writer
  | breakWrites text =>
    cases h
    exact .refl _
  | tick now =>
    cases h
    exact hsame _
  | round => exact apart_round hs h
  | finish => exact apart_finish hs h
  | reply r =>
    obtain ⟨-, rfl⟩ := step_reply h
    exact e.connection.apart_processReply r

end Engine

/-! ## Steps on a transaction -/

namespace Connection

variable {c c' : Connection} {t : Nat} {id : MessageId} {p : Priority}

/-- What a transaction takes goes into its queue. -/
theorem collector_ok (h : (collector t).enqueue c id p = some (.ok c')) :
    ∃ q wakes, (c.collected t).enqueue id p = .done (.ok ()) q wakes
      ∧ c' = c.setCollected t q := by
  simp only [collector] at h
  split at h
  · next q wakes henq =>
    cases h
    exact ⟨q, wakes, henq, rfl⟩
  · cases h
  · cases h

/-- A command without a completer gets one and is collected. -/
theorem submit_collector {shape : Shape} {k : CompletionId}
    (hopen : (c.collected t).isClosed = false) (hempty : c.store.sink id = .empty)
    (h : (executor (.transaction t)).submit c id p shape = some (k, c')) :
    ∃ q wakes, (c.collected t).enqueue id p = .done (.ok ()) q wakes
      ∧ c' = { c with store := c.store.attach id shape }.setCollected t q := by
  rcases submit_cases h with ⟨hne, -⟩ | ⟨-, hok | ⟨e, herr, -⟩⟩
  · exact absurd hempty hne
  · exact collector_ok hok
  · exact absurd herr
      (collector_open (c := { c with store := c.store.attach id shape }) (t := t) hopen)

/-- A command that has a completer is not collected. -/
theorem submit_assigned {target : Target} {shape : Shape} {k : CompletionId}
    (hassigned : c.store.sink id ≠ .empty)
    (h : (executor target).submit c id p shape = some (k, c')) :
    ∃ e, c' = { c with store := (c.store.addCompletion (.ready (.error e))).2 } := by
  rcases submit_cases h with ⟨-, heq⟩ | ⟨hempty, -⟩
  · exact heq
  · exact absurd hempty hassigned

/-- Without a command nothing is handed on, and the caller has the result at once. -/
theorem execute_nil (hnil : (c.collected t).toList = []) (p : Priority) :
    c.executeTransaction t p = some (c.store.completions.size,
      { c.setCollected t (c.collected t).drain.2 with
        store := (c.store.addCompletion (.ready (.ok .unit))).2 }) := by
  have hmembers : (c.collected t).drain.1 = [] := hnil
  unfold executeTransaction
  dsimp only
  rw [hmembers]
  rfl

/-- What has been collected goes to the end of its lane as one batch, or it fails because the queue
is closed. -/
theorem execute_queue {owned accepted : List MessageId} {k : CompletionId}
    (hs : c.Sound owned accepted) (hne : (c.collected t).toList ≠ [])
    (h : c.executeTransaction t p = some (k, c')) :
    (∀ p', c'.queue.lane p' = c.queue.lane p' ++ if p = p' then [c.store.messages.size] else [])
      ∨ c.queue.isClosed = true ∧ c'.queue = c.queue
        ∧ c'.store.phase c.store.messages.size = .complete := by
  rcases execute_cases h with ⟨hnil, -⟩ | ⟨-, hok | ⟨e, herr, rfl⟩⟩
  · exact absurd hnil hne
  · obtain ⟨wakes, henq⟩ := enqueue_queue hok
    exact .inl (PriorityQueue.enqueue_lane henq)
  · refine .inr ⟨?_, rfl, ?_⟩
    · unfold enqueue at herr
      split at herr
      · cases herr
      · next henq => exact PriorityQueue.enqueue_error henq
      · cases herr
    · have wf := (keeps_handedOn hs t hs).1.custody.wellFormed
      exact Store.fail_phase _ _ e _ (wf.mem_scopeOf (c.handedOn_isBatch t).lt_size)

end Connection

namespace Engine

variable {e e' : Engine} {t : Nat} {id : MessageId} {p : Priority}

/-- The pumps see nothing of it: the queue, the ledger, the counters and what has been written are
the same. -/
structure Aside (e e' : Engine) : Prop where
  queue : e'.connection.queue = e.connection.queue
  ledger : e'.connection.ledger = e.connection.ledger
  counters : e'.connection.counters = e.connection.counters
  written : e'.writer.written = e.writer.written
  buffer : e'.writer.buffer = e.writer.buffer
  wire : e'.writer.wire = e.writer.wire

/-- What is written for a message is a matter of how it was made. -/
theorem wireInFlight_congr {s s' : Store} (h : ∀ id, s'.draft? id = s.draft? id) :
    s'.wireInFlight = s.wireInFlight := by
  have hwire : ∀ (s : Store) id, s.wireInFlight (.message id)
      = ((s.draft? id).map Message.wire).getD [] := by
    intro s id
    unfold Store.draft?
    rw [Option.map_map]
    rfl
  funext f
  cases f with
  | message id => rw [hwire, hwire, h]
  | exec b => rfl

/-- Phases, completions and what transactions have collected are not the business of the pumps. -/
theorem aside_of_draft? {s : Store} (h : ∀ id, s.draft? id = e.store.draft? id)
    (ts : Array (PriorityQueue MessageId)) :
    Aside e (e.withConnection { e.connection with store := s, transactions := ts }) where
  queue := rfl
  ledger := rfl
  counters := rfl
  written := rfl
  buffer := rfl
  wire := congrArg (fun bytes => e.writer.written.flatMap bytes) (wireInFlight_congr h)

theorem aside_put (h : e.step (.put (.transaction t) id p) = some e') : Aside e e' := by
  obtain ⟨-, ⟨c, henq, rfl⟩ | ⟨-, rfl⟩⟩ := step_put_inv h
  · obtain ⟨q, wakes, -, rfl⟩ := Connection.collector_ok henq
    exact aside_of_draft? (fun _ => rfl) _
  · exact aside_of_draft? (fun _ => rfl) _

theorem aside_submit {shape : Shape} (hopen : (e.connection.collected t).isClosed = false)
    (h : e.step (.submit (.transaction t) id p shape) = some e') : Aside e e' := by
  obtain ⟨-, k, c, hsubmit, rfl⟩ := step_submit_inv h
  by_cases hempty : e.store.sink id = .empty
  · obtain ⟨q, wakes, -, rfl⟩ := Connection.submit_collector hopen hempty hsubmit
    exact aside_of_draft? (e.store.attach_draft? id · shape) _
  · obtain ⟨error, rfl⟩ := Connection.submit_assigned hempty hsubmit
    have hdraft : ∀ j, (e.store.addCompletion (.ready (.error error))).2.draft? j
        = e.store.draft? j := fun _ => rfl
    exact aside_of_draft? hdraft _

theorem aside_discard {accepted : List MessageId} (hs : e.Sound accepted)
    (h : e.step (.discard t) = some e') : Aside e e' := by
  cases h
  obtain ⟨given, hcancel⟩ :=
    Store.cancelAll_resolves hs.custody.wellFormed (e.connection.collected t).toList
  exact aside_of_draft? hcancel.draft? _

end Engine

end RespMux
