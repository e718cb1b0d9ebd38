import RespMux.Proofs.Connection.Fates
import RespMux.Proofs.Lifecycle.Forward
import RespMux.Proofs.Unpacking

/-!
# The standing of a connection

Most steps are work: messages are made, queued, written and given up, and none of this has to do
with how the connection stands, that is, where it is in its life and what its listener has been told
(`step_proceeds`). The other steps open it, close it, tear it down, or bring a reply.

A connection that has been torn down is over (`Over`): it is closed, holds nothing and takes
nothing. No step changes that.
-/

set_option autoImplicit false

namespace RespMux

theorem PriorityQueue.next?_isClosed {α : Type} {q q' : PriorityQueue α} {x : α × Bool}
    {wakes : Bool} (h : q.next? = some (x, q', wakes)) : q'.isClosed = q.isClosed := by
  unfold next? at h
  split at h
  · cases h
    rfl
  · cases h
    rfl
  · cases h

theorem Ledger.push_of_closed {l : Ledger} (h : l.isClosed = true) (f : InFlight) :
    l.push f = .error (.connectionTerminated "the connection has shut down") := by
  unfold Ledger.push
  rw [if_pos h]

namespace Connection

/-! ## Work -/

/-- The connection `c'` comes from `c` by work, and stands as before. -/
structure Proceeds (c c' : Connection) : Prop where
  state : c'.state = c.state
  events : c'.events = c.events
  aborting : c'.aborting = c.aborting
  down : c'.isShutDown = c.isShutDown
  closed : c'.queue.isClosed = c.queue.isClosed
  recording : c'.ledger.isClosed = c.ledger.isClosed

variable {c c₁ c' : Connection}

theorem Proceeds.refl (c : Connection) : Proceeds c c := ⟨rfl, rfl, rfl, rfl, rfl, rfl⟩

theorem Proceeds.trans (h : Proceeds c c₁) (h' : Proceeds c₁ c') : Proceeds c c' where
  state := h'.state.trans h.state
  events := h'.events.trans h.events
  aborting := h'.aborting.trans h.aborting
  down := h'.down.trans h.down
  closed := h'.closed.trans h.closed
  recording := h'.recording.trans h.recording

theorem proceeds_store (c : Connection) (s : Store) : Proceeds c { c with store := s } :=
  ⟨rfl, rfl, rfl, rfl, rfl, rfl⟩

theorem proceeds_executor {target : Target} {id : MessageId} {priority : Priority}
    (h : (executor target).enqueue c id priority = some (.ok c')) : Proceeds c c' := by
  cases target with
  | connection =>
      change c.enqueue id priority = some (.ok c') at h
      unfold enqueue at h
      split at h
      · next q _ hq =>
        have hclosed : q.isClosed = c.queue.isClosed :=
          (PriorityQueue.enqueue_isClosed hq).trans (PriorityQueue.enqueue_ok hq).1.symm
        cases h
        exact ⟨rfl, rfl, rfl, rfl, hclosed, rfl⟩
      · cases h
      · cases h
  | transaction t =>
      simp only [executor, collector] at h
      split at h
      · cases h
        exact ⟨rfl, rfl, rfl, rfl, rfl, rfl⟩
      · cases h
      · cases h

theorem proceeds_submit {target : Target} {id : MessageId} {priority : Priority} {shape : Shape}
    {k : CompletionId} (h : (executor target).submit c id priority shape = some (k, c')) :
    Proceeds c c' := by
  rcases submit_cases h with ⟨-, e, rfl⟩ | ⟨-, hok | ⟨e, -, rfl⟩⟩
  · exact proceeds_store c _
  · exact (proceeds_store c _).trans (proceeds_executor hok)
  · exact proceeds_store c _

theorem proceeds_execute {t : Nat} {priority : Priority} {k : CompletionId}
    (h : c.executeTransaction t priority = some (k, c')) : Proceeds c c' := by
  have hmade : Proceeds c (c.handedOn t) := ⟨rfl, rfl, rfl, rfl, rfl, rfl⟩
  rcases execute_cases h with ⟨-, rfl⟩ | ⟨-, hok | ⟨e, -, rfl⟩⟩
  · exact ⟨rfl, rfl, rfl, rfl, rfl, rfl⟩
  · have htaken : Proceeds (c.handedOn t) c' := @proceeds_executor _ _ .connection _ _ hok
    exact hmade.trans htaken
  · exact hmade.trans (proceeds_store _ _)

/-! ## Opening and closing -/

theorem finishOpening_ok (c : Connection) (v : Value) :
    (c.finishOpening (.ok v)).2 = (c.transition [.opening] .established).2 := by
  unfold finishOpening
  dsimp only
  split
  · next heq => rw [heq]
  · next heq => rw [heq]

/-- What `close` does depends on where the connection is in its life. -/
theorem close_cases (c : Connection) (abort : Bool) :
    (c.state = .fresh ∧ c.close abort
        = shutdown { c with aborting := abort || c.aborting } "closed before opening" none)
      ∨ ((c.state = .opening ∨ c.state = .established) ∧ c.close abort
        = { c with aborting := abort || c.aborting, state := .closing, queue := c.queue.close })
      ∨ ((c.state = .closing ∨ c.state = .closed) ∧ c.close abort
        = { c with
            aborting := abort || c.aborting
            queue := if abort then c.queue.close else c.queue }) := by
  have hflagged : (if abort then { c with aborting := true } else c)
      = { c with aborting := abort || c.aborting } := by
    cases abort with
    | true => rfl
    | false => rfl
  have hunlessAborted :
      (if abort then { c with aborting := abort || c.aborting, queue := c.queue.close }
        else { c with aborting := abort || c.aborting })
      = { c with
          aborting := abort || c.aborting
          queue := if abort then c.queue.close else c.queue } := by
    cases abort with
    | true => rfl
    | false => rfl
  unfold close
  rw [hflagged]
  dsimp only
  split
  · next hs => exact .inl ⟨hs, rfl⟩
  · next hs => exact .inr (.inl ⟨.inl hs, rfl⟩)
  · next hs => exact .inr (.inl ⟨.inr hs, rfl⟩)
  · next hs => exact .inr (.inr ⟨.inl hs, hunlessAborted⟩)
  · next hs => exact .inr (.inr ⟨.inr hs, hunlessAborted⟩)

theorem close_of_active (h : c.state = .opening ∨ c.state = .established) (abort : Bool) :
    c.close abort
      = { c with aborting := abort || c.aborting, state := .closing, queue := c.queue.close } := by
  rcases c.close_cases abort with ⟨hs, -⟩ | ⟨-, heq⟩ | ⟨hs | hs, -⟩
  · simp [hs] at h
  · exact heq
  · simp [hs] at h
  · simp [hs] at h

/-! ## The end -/

/-- The connection is over. -/
structure Over (c : Connection) : Prop where
  down : c.isShutDown = true
  aborting : c.aborting = true
  state : c.state = .closed
  queue : c.queue.isClosed = true ∧ c.queue.toList = []
  ledger : c.ledger.isClosed = true ∧ c.ledger.entries = []

theorem enqueue_of_closed (h : c.queue.isClosed = true) (id : MessageId) (p : Priority) :
    c.enqueue id p = some (.error .queueClosed) := by
  unfold enqueue PriorityQueue.enqueue
  rw [if_pos h]

/-- A teardown leaves nothing behind. -/
theorem shutdown_over (h : c.isShutDown = false) (cause : String) (error : Option Error) :
    (c.shutdown cause error).Over := by
  obtain ⟨events, heq⟩ := shutdown_eq h cause error
  rw [heq]
  exact ⟨rfl, rfl, rfl, ⟨rfl, rfl⟩, ⟨rfl, rfl⟩⟩

theorem shutdown_aborting (h : c.aborting = true) (cause : String) (error : Option Error) :
    (c.shutdown cause error).aborting = true := by
  cases hdown : c.isShutDown with
  | true =>
      rw [shutdown_of_down hdown]
      exact h
  | false => exact (shutdown_over hdown cause error).aborting

theorem close_aborting (c : Connection) : (c.close true).aborting = true := by
  rcases c.close_cases true with ⟨-, heq⟩ | ⟨-, heq⟩ | ⟨-, heq⟩
  · rw [heq]
    exact shutdown_aborting (Bool.true_or c.aborting) _ _
  · rw [heq]
    exact Bool.true_or c.aborting
  · rw [heq]
    exact Bool.true_or c.aborting

theorem close_isClosed (h : c.state = .fresh → c.isShutDown = false) :
    (c.close true).queue.isClosed = true := by
  rcases c.close_cases true with ⟨hs, heq⟩ | ⟨-, heq⟩ | ⟨-, heq⟩
  · have hopen : ({ c with aborting := true || c.aborting } : Connection).isShutDown = false := h hs
    rw [heq]
    exact (shutdown_over hopen _ _).queue.1
  · rw [heq]
    rfl
  · rw [heq]
    rfl

/-- Nothing but its queue, its ledger and these flags count for a connection that is over. -/
theorem Over.congr (h : c.Over) (hdown : c'.isShutDown = c.isShutDown)
    (haborting : c'.aborting = c.aborting) (hstate : c'.state = c.state)
    (hqueue : c'.queue = c.queue) (hledger : c'.ledger = c.ledger) : c'.Over where
  down := hdown.trans h.down
  aborting := haborting.trans h.aborting
  state := hstate.trans h.state
  queue := hqueue.symm ▸ h.queue
  ledger := hledger.symm ▸ h.ledger

/-- It may move on in no direction. -/
theorem Over.transition (h : c.Over) {origins : List Lifecycle} (horigins : .closed ∉ origins)
    (target : Lifecycle) : c.transition origins target = (false, c) := by
  unfold Connection.transition
  rw [if_neg]
  rw [h.state, List.contains_iff_mem]
  exact horigins

theorem Over.close (h : c.Over) (abort : Bool) : c.close abort = c := by
  have haborting : (abort || c.aborting) = c.aborting := by simp [h.aborting]
  have hqueue : (if abort then c.queue.close else c.queue) = c.queue := by
    have hclose : c.queue.close = c.queue := by
      unfold PriorityQueue.close
      rw [← h.queue.1]
    rw [hclose]
    exact ite_self _
  rcases c.close_cases abort with ⟨hs, -⟩ | ⟨hs | hs, -⟩ | ⟨-, heq⟩
  · cases hs.symm.trans h.state
  · cases hs.symm.trans h.state
  · cases hs.symm.trans h.state
  · rw [heq, haborting, hqueue]

end Connection

/-- The step is work of a caller, of the outgoing pump or of the clock. -/
def Event.isWork : Event → Bool
  | beginOpening => false
  | connectFailed _ => false
  | finishOpening _ => false
  | openingTimedOut => false
  | close _ => false
  | shutdown _ _ => false
  | settle => false
  | finish => false
  | reply _ => false
  | _ => true

namespace Engine

variable {accepted : List MessageId} {e e' : Engine} {ev : Event}

theorem proceeds_round (hs : e.Sound accepted) (h : e.step .round = some e') :
    e.connection.Proceeds e'.connection := by
  obtain ⟨id, overtook, q, wakes, hnext, hfault, rfl⟩ := step_round h
  have hready := withQueue_ready hs hfault (hs.next_open hnext) q
  have hclosed : q.isClosed = e.connection.queue.isClosed := PriorityQueue.next?_isClosed hnext
  show e.connection.Proceeds ((e.withQueue q).handle id overtook).connection
  cases ha : (e.withQueue q).connection.aborting with
  | true =>
      rw [Writer.handle_aborting ha]
      exact ⟨rfl, rfl, rfl, rfl, hclosed, rfl⟩
  | false =>
      by_cases hp : (e.withQueue q).connection.store.phase id = .notSent
      · obtain ⟨w, s', fs, sel, -, ⟨n, rfl⟩, heq⟩ := Writer.handle_picked hready ha hp overtook
        rw [heq, Writer.flush_connection]
        exact ⟨rfl, rfl, rfl, rfl, hclosed, rfl⟩
      · rw [Writer.handle_skipped ha hp]
        exact ⟨rfl, rfl, rfl, rfl, hclosed, rfl⟩

/-- Work leaves the connection standing as it was. -/
theorem step_proceeds (hs : e.Sound accepted) (hev : ev.isWork = true) (h : e.step ev = some e') :
    e.connection.Proceeds e'.connection := by
  have hstore := e.connection.proceeds_store
  cases ev with
  | make r =>
      cases h
      exact hstore _
  | attach id shape =>
      obtain ⟨-, -, rfl⟩ := step_attach_inv h
      exact hstore _
  | put target id priority =>
      obtain ⟨-, ⟨c, henq, rfl⟩ | ⟨-, rfl⟩⟩ := step_put_inv h
      · exact Connection.proceeds_executor henq
      · exact .refl _
  | submit target id priority shape =>
      obtain ⟨-, k, c, hsubmit, rfl⟩ := step_submit_inv h
      exact Connection.proceeds_submit hsubmit
  | fail id error =>
      obtain ⟨-, rfl⟩ := step_fail_inv h
      exact hstore _
  | cancel id =>
      obtain ⟨-, rfl⟩ := step_cancel_inv h
      exact hstore _
  | cancelThrough k =>
      cases h
      exact hstore _
  | look k l =>
      cases h
      exact hstore _
  | timeOut =>
      cases h
      exact ⟨rfl, rfl, rfl, rfl, rfl, rfl⟩
  | newTransaction =>
      cases h
      exact ⟨rfl, rfl, rfl, rfl, rfl, rfl⟩
  | execute t priority =>
      obtain ⟨k, c, hexecute, rfl⟩ := step_execute_inv h
      exact Connection.proceeds_execute hexecute
  | discard t =>
      cases h
      exact ⟨rfl, rfl, rfl, rfl, rfl, rfl⟩
  | breakWrites text =>
      cases h
      exact .refl _
  | tick now =>
      cases h
      exact hstore _
  | round => exact proceeds_round hs h
  | beginOpening => cases hev
  | connectFailed error => cases hev
  | finishOpening ping => cases hev
  | openingTimedOut => cases hev
  | close abort => cases hev
  | shutdown cause error => cases hev
  | settle => cases hev
  | finish => cases hev
  | reply r => cases hev

/-! ## A connection that is over -/

theorem settle_of_over {w : Writer} (h : w.connection.Over) : w.settle = w := by
  rcases settle_cases w with heq | ⟨error, heq⟩
  · exact heq
  · rw [heq, Connection.shutdown_of_down h.down]

/-- The steps that are no work change nothing any more, except that a wait that runs out of time is
counted. -/
theorem step_of_over (ho : e.connection.Over) (hev : ev.isWork = false)
    (h : e.step ev = some e') :
    e'.connection = e.connection ∨ e'.connection = e.connection.count .timeout := by
  have hshutdown := Connection.shutdown_of_down ho.down
  cases ev with
  | beginOpening =>
      cases h
      exact .inl (congrArg Prod.snd (ho.transition (by decide) .opening))
  | connectFailed error =>
      cases h
      exact .inl (hshutdown "connect failed" (some error))
  | finishOpening ping =>
      cases h
      refine .inl ?_
      cases ping with
      | ok v =>
          refine (e.connection.finishOpening_ok v).trans ?_
          rw [ho.transition (by decide)]
      | error error => exact hshutdown "handshake failed" (some error)
  | openingTimedOut =>
      cases h
      have hdown : (e.connection.count .timeout).isShutDown = true := ho.down
      exact .inr (Connection.shutdown_of_down hdown "handshake timed out"
        (some (.timeout e.connection.oldest?)))
  | close abort =>
      cases h
      exact .inl (ho.close abort)
  | shutdown cause error =>
      cases h
      exact .inl (hshutdown cause error)
  | settle =>
      cases h
      exact .inl (congrArg Writer.connection (settle_of_over ho))
  | finish =>
      obtain ⟨hfault, rfl⟩ := step_finish h
      refine .inl ?_
      show e.writer.finish.connection = _
      rw [finish_aborting hfault ho.aborting]
      exact hshutdown "connection aborted" none
  | reply r =>
      obtain ⟨-, rfl⟩ := step_reply h
      exact .inl (congrArg Prod.snd (Connection.processReply_nil ho.ledger.2 r))
  | _ => cases hev

/-- A connection that is over stays so. -/
theorem step_over (hs : e.Sound accepted) (ho : e.connection.Over) (h : e.step ev = some e') :
    e'.connection.Over := by
  cases hev : ev.isWork with
  | false =>
      rcases step_of_over ho hev h with heq | heq
      · rw [heq]
        exact ho
      · rw [heq]
        exact ho.congr rfl rfl rfl rfl rfl
  | true =>
      have hp := step_proceeds hs hev h
      have hdown := hp.down.trans ho.down
      obtain ⟨hclosed, hempty, hentries, haborting⟩ := (step_sound hs h).down hdown
      exact ⟨hdown, haborting, hp.state.trans ho.state, ⟨hclosed, hempty⟩,
        ⟨hp.recording.trans ho.ledger.1, hentries⟩⟩

theorem run_over {evs : List Event} (hs : e.Sound accepted) (ho : e.connection.Over)
    (h : e.run evs = some e') : e'.connection.Over :=
  run_induction_sound hs (fun _ _ _ hs ho h => step_over hs ho h) h ho

end Engine

end RespMux
