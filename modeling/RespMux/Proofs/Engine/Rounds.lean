import RespMux.Proofs.Engine.Line

/-!
# What the outgoing pump does in a step

A round takes the next message out of the queue, and either leaves it or writes the frames for it
(`round_handles`). Each of these frames is that of the message or one of a message that the pump has
just made (`Dispatches.frames`), and the same holds of the frame that the pump writes at its end
(`finish_frames`). So nothing is ever written for a message that is already over.
-/

set_option autoImplicit false

namespace RespMux

theorem PriorityQueue.next?_high {α : Type} {q : PriorityQueue α} {x : α} {l : List α}
    (h : q.high = x :: l) :
    q.next? = some ((x, !q.standard.isEmpty), { q with high := l },
      l.isEmpty && q.standard.isEmpty) := by
  obtain ⟨high, standard, isClosed, limit, limit_pos⟩ := q
  cases h
  rfl

/-! ## The frames for one message -/

namespace Dispatches

variable {s s' : Store} {db sel : Option Database} {id j : MessageId} {fs : List InFlight}

theorem ne_nil (h : Dispatches s db id s' fs sel) : fs ≠ [] := by
  cases h with
  | plain => exact List.cons_ne_nil _ _
  | choice => exact List.cons_ne_nil _ _
  | preceded => exact List.cons_ne_nil _ _
  | batch => exact List.cons_ne_nil _ _

/-- A request for no database is written as it is. -/
theorem eq_singleton {r : Request} (h : Dispatches s db id s' fs sel) (hr : s.Carries id r)
    (hdb : r.db = none) : fs = [.message id] := by
  obtain ⟨n, hn, hsingle, hrequest, -⟩ := hr
  cases h with
  | plain => rfl
  | choice => rfl
  | @preceded m d hm hb hs hd hne =>
      rw [Store.draft?_of_get hm] at hn
      cases hn
      have hrequest : m.request = r := hrequest
      rw [hrequest, hdb] at hd
      cases hd
  | batch hm hb hexp hsel =>
      rw [Store.draft?_of_get hm] at hn
      cases hn
      cases hb.symm.trans hsingle

end Dispatches

/-- What is flushed is written, unless writes fail. -/
theorem Writer.flush_written {w : Writer} (h : w.broken = none) :
    w.flush.written = w.written ++ w.buffer := by
  unfold flush
  split
  · next hempty => rw [List.isEmpty_iff.mp hempty, List.append_nil]
  · split
    · next t hbroken =>
      rw [h] at hbroken
      cases hbroken
    · rfl

namespace Engine

variable {accepted : List MessageId} {e e' : Engine} {ev : Event} {id : MessageId}

/-! ## Rounds -/

/-- What a round of the outgoing pump does with the message `id`: it leaves it, or it writes the
frames for it. -/
inductive Handles (id : MessageId) (e e' : Engine) : Prop where
  | left (hid : e'.store.phase id ≠ .notSent)
      (hphase : ∀ j, e'.store.phase j = e.store.phase j ∨ e'.store.phase j = .complete)
      (hsize : e.store.messages.size ≤ e'.store.messages.size)
      (hwritten : e'.writer.written = e.writer.written)
      (hbuffer : e'.writer.buffer = e.writer.buffer)
  | wrote {fs : List InFlight} {sel : Option Database} (hid : e.store.phase id = .notSent)
      (hdispatch :
        Dispatches (e.store.markSent id).2 e.writer.selected id e'.store fs sel)
      (htape : e'.writer.written ++ e'.writer.buffer
        = e.writer.written ++ e.writer.buffer ++ fs)

/-- What is queued has been made. -/
theorem Sound.queue_lt (hs : e.Sound accepted) (hid : id ∈ e.connection.queue.toList) :
    id < e.store.messages.size := by
  rcases hs.custody.kinds.queued_kind id hid with ho | ⟨ms, hb⟩
  · exact (hs.custody.kinds.owned_single id ho).lt_size
  · exact hb.lt_size

/-- What is queued fails with itself. -/
theorem Sound.mem_scopeOf (hs : e.Sound accepted) (hid : id ∈ e.connection.queue.toList) :
    id ∈ e.store.scopeOf id := by
  have wf : e.store.WellFormed := hs.custody.wellFormed
  rcases hs.custody.kinds.queued_kind id hid with ho | ⟨ms, hb⟩
  · rw [wf.scopeOf_single (hs.custody.kinds.owned_single id ho)]
    exact List.mem_singleton_self id
  · rw [wf.scopeOf_batch hb]
    exact List.mem_append_right _ (List.mem_singleton_self id)

/-- A round takes the next message out of the queue and handles it. -/
theorem round_handles (hs : e.Sound accepted) (h : e.step .round = some e') :
    ∃ id overtook q wakes, e.connection.queue.next? = some ((id, overtook), q, wakes)
      ∧ e'.connection.queue = q ∧ e'.connection.config = e.connection.config
      ∧ Handles id e e' := by
  obtain ⟨id, overtook, q, wakes, hnext, hf, rfl⟩ := step_round h
  have wf : e.store.WellFormed := hs.custody.wellFormed
  have hready := withQueue_ready hs hf (hs.next_open hnext) q
  have hqueued : id ∈ e.connection.queue.toList := by
    rw [PriorityQueue.next?_toList hnext]
    exact List.mem_cons_self
  refine ⟨id, overtook, q, wakes, hnext, ?_⟩
  cases ha : e.connection.aborting with
  | true =>
      -- whoever waits for it, the message is failed and not written
      have ha : (e.withQueue q).connection.aborting = true := ha
      have hfail := Store.fail_resolves wf id .aborted
      rw [Writer.handle_aborting ha]
      refine ⟨rfl, rfl, .left ?_ (fun j => hfail.phase j)
        (Store.Grows.of_draft? hfail.draft?).size_le rfl rfl⟩
      have hcomplete : (e.store.fail id .aborted).phase id = .complete :=
        Store.fail_phase _ _ _ id (hs.mem_scopeOf hqueued)
      intro hn
      change (e.store.fail id .aborted).phase id = .notSent at hn
      rw [hcomplete] at hn
      cases hn
  | false =>
      have ha : (e.withQueue q).connection.aborting = false := ha
      by_cases hp : (e.withQueue q).connection.store.phase id = .notSent
      · obtain ⟨w, s', fs, sel, hdispatch, hemit, heq⟩ :=
          Writer.handle_picked hready ha hp overtook
        have htape := hemit.tape
        obtain ⟨n, rfl⟩ := hemit
        rw [heq]
        refine ⟨?_, ?_, .wrote hp (?_ : Dispatches _ _ _ _ fs sel) ?_⟩
        · show (Writer.flush _).connection.queue = q
          rw [Writer.flush_connection]
          rfl
        · show (Writer.flush _).connection.config = _
          rw [Writer.flush_connection]
          rfl
        · show Dispatches _ _ _ (Writer.flush _).connection.store _ _
          rw [Writer.flush_connection]
          exact hdispatch
        · show (Writer.flush _).written ++ (Writer.flush _).buffer = _
          rw [Writer.flush_all, htape]
          rfl
      · rw [Writer.handle_skipped ha hp]
        exact ⟨rfl, rfl, .left hp (fun _ => Or.inl rfl) (Nat.le_refl _) rfl rfl⟩

/-- The pump can make a round. -/
structure Runs (e : Engine) : Prop where
  fault : e.writer.fault = none
  ended : e.ended = false
  broken : e.writer.broken = none
  aborting : e.connection.aborting = false

theorem step_round_some {x : MessageId} {l : List MessageId} (hr : e.Runs)
    (h : e.connection.queue.high = x :: l) :
    ∃ overtook, e.step .round = some { e with
      writer := (e.withQueue { e.connection.queue with high := l }).handle x overtook } := by
  have hround : e.writer.round? = some
      ((e.withQueue { e.connection.queue with high := l }).handle x
        (!e.connection.queue.standard.isEmpty)) := by
    unfold Writer.round?
    rw [show e.writer.connection.queue.next? = _ from PriorityQueue.next?_high h]
    rfl
  refine ⟨!e.connection.queue.standard.isEmpty, ?_⟩
  unfold step
  dsimp only
  rw [hr.fault, hr.ended, hround]
  rfl

/-! ## The end of the outgoing pump -/

theorem step_finish_empty (h : e.step .finish = some e') : e.connection.queue.toList = [] := by
  unfold step at h
  dsimp only at h
  split at h
  · next hguard =>
    rw [Bool.and_eq_true] at hguard
    have hempty : e.connection.queue.length = 0 := by
      simpa [PriorityQueue.isEmpty] using hguard.2
    rw [← PriorityQueue.length_toList] at hempty
    exact List.length_eq_zero_iff.mp hempty
  · cases h

theorem settle_phase {w : Writer} (wf : w.connection.store.WellFormed) (j : MessageId) :
    w.settle.connection.store.phase j = w.connection.store.phase j
      ∨ w.settle.connection.store.phase j = .complete := by
  rcases settle_cases w with heq | ⟨error, heq⟩
  · rw [heq]
    exact Or.inl rfl
  · obtain ⟨ids, own, hr⟩ :=
      Connection.shutdown_resolves wf "error writing to the connection" (some error)
    rw [heq]
    exact hr.phase j

theorem finish_config (hs : e.Sound accepted) (hf : e.writer.fault = none) :
    e.writer.finish.connection.config = e.connection.config := by
  cases ha : e.connection.aborting with
  | true =>
      rw [finish_aborting hf ha]
      exact e.connection.shutdown_config _ _
  | false =>
      obtain ⟨w, hemit, heq, -⟩ := finish_emits hs hf ha
      have hsettle : w.flush.settle.connection.config = w.flush.connection.config := by
        rcases settle_cases w.flush with heq | ⟨error, heq⟩
        · rw [heq]
        · rw [heq]
          exact Connection.shutdown_config _ _ _
      obtain ⟨n, rfl⟩ := hemit
      have hclosing : e.closing.connection.config = e.connection.config :=
        (e.connection.inLine_transition _ _).config
      rw [heq, hsettle, Writer.flush_connection]
      exact hclosing

/-- At its end the pump writes nothing for a message that has been there before. -/
theorem finish_frames (hs : e.Sound accepted) (hf : e.writer.fault = none) :
    (∀ j < e.store.messages.size, e.writer.finish.connection.store.phase j = e.store.phase j
        ∨ e.writer.finish.connection.store.phase j = .complete)
      ∧ ∃ fs, e.writer.finish.written ++ e.writer.finish.buffer
          = e.writer.written ++ e.writer.buffer ++ fs
        ∧ ∀ j, .message j ∈ fs → e.store.messages.size ≤ j
          ∧ e.writer.finish.connection.store.IsSingle j := by
  cases ha : e.connection.aborting with
  | true =>
      obtain ⟨ids, own, hr⟩ := Connection.shutdown_resolves hs.custody.wellFormed
        "connection aborted" none
      rw [finish_aborting hf ha]
      refine ⟨fun j _ => hr.phase j, [], (List.append_nil _).symm, fun j hj => ?_⟩
      cases hj
  | false =>
      obtain ⟨w, hemit, heq, hsound⟩ := finish_emits hs hf ha
      have hflushed : Sound accepted { e with writer := w.flush } := hsound
      obtain ⟨-, hrests⟩ := settle_rests hflushed
      have hstore : w.flush.connection.store = e.store.issue .quit := by
        rw [Writer.flush_connection, hemit.store]
      rw [heq]
      refine ⟨fun j hj => ?_, [.message e.store.messages.size], ?_, fun j hj => ?_⟩
      · have hsettled := settle_phase hsound.custody.wellFormed j
        rw [hstore, Store.phase_congr (Store.issue_messages_of_lt .quit hj)] at hsettled
        exact hsettled
      · rw [show w.flush.settle.written = w.flush.written from hrests.written,
          show w.flush.settle.buffer = w.flush.buffer from hrests.buffer, Writer.flush_all,
          hemit.tape]
        rfl
      · cases List.mem_singleton.mp hj
        refine ⟨Nat.le_refl _, hrests.continues.grows.isSingle ?_⟩
        show w.flush.connection.store.IsSingle e.store.messages.size
        rw [hstore]
        exact (e.store.issue_carries .quit).isSingle

/-! ## Everybody else -/

/-- Only the outgoing pump writes. -/
theorem step_tape (hs : e.Sound accepted) (hround : ev ≠ .round) (hfinish : ev ≠ .finish)
    (h : e.step ev = some e') : e'.tape = e.tape := by
  cases hq : ev.isQuiet with
  | true => exact (step_quiet hs hq h).2.tape
  | false =>
      cases ev with
      | reply r =>
          obtain ⟨-, rfl⟩ := step_reply h
          rfl
      | round => exact absurd rfl hround
      | finish => exact absurd rfl hfinish
      | _ => cases hq

/-! ## The configuration -/

theorem step_config (hs : e.Sound accepted) (h : e.step ev = some e') :
    e'.connection.config = e.connection.config := by
  by_cases hround : ev = .round
  · subst hround
    obtain ⟨-, -, -, -, -, -, hconfig, -⟩ := round_handles hs h
    exact hconfig
  by_cases hfinish : ev = .finish
  · subst hfinish
    obtain ⟨hf, rfl⟩ := step_finish h
    exact finish_config hs hf
  · exact (step_inLine hs hround hfinish h).config

/-- A connection keeps the configuration that it has been made with. -/
theorem run_config {config : Config} {evs : List Event} (h : (new config).run evs = some e) :
    e.connection.config = config :=
  run_induction_sound (P := fun e => e.connection.config = config) (new_sound config)
    (fun _ _ _ hs hconfig hstep => (step_config hs hstep).trans hconfig) h rfl

end Engine

end RespMux
