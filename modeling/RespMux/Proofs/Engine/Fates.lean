import RespMux.Proofs.Connection.Fates
import RespMux.Proofs.Engine.Replies
import RespMux.Proofs.Engine.Rounds
import RespMux.Proofs.Outgoing.Once

/-!
# What becomes of a message in a run

In a run those messages are stray that some step puts into the queue by themselves or gives up
(`Event.strays`). Every step keeps the fates of all others (`step_fated`), and no step touches what
has been called off.

The same holds of the frames. There is at most one for a message of a caller, none as long as it
waits, and one inside a block only if a batch with the message has departed (`Recorded`).
-/

set_option autoImplicit false

namespace RespMux

namespace Look

variable {c : Completion}

theorem apply_waiting (l : Look) (h : c.stage = .waiting) : (l.apply c).stage = .waiting := by
  obtain ⟨stage, waker, isOpen, target⟩ := c
  cases h
  cases l with
  | close => rfl
  | take => rfl
  | poll => rfl
  | pollComplete => rfl

theorem apply_calledOff (l : Look) (h : c.CalledOff) : (l.apply c).CalledOff := by
  obtain ⟨stage, waker, isOpen, target⟩ := c
  cases l with
  | close => cases stage <;> first | exact h | rfl
  | take => cases stage <;> first | exact h | trivial
  | poll => cases stage <;> first | exact h | trivial
  | pollComplete => cases stage <;> first | exact h | trivial

end Look

/-- A message that is picked up in a round is stray, or it departs with a batch. -/
theorem Dispatches.cause {stray : MessageId → Prop} {owned accepted queued : List MessageId}
    {frames fs : List InFlight} {s s' : Store} {db sel : Option Database} {x id : MessageId}
    (h : Dispatches (s.markSent x).2 db x s' fs sel) (hp : s.phase x = .notSent)
    (hx : x ∈ queued) (hf : Fates stray owned queued s)
    (hc : Custody owned accepted queued frames s) (hid : id ∈ owned)
    (hn : s.phase id = .notSent) (hpicked : s'.phase id ≠ .notSent) :
    stray id ∨ s'.Departed id := by
  have hs := hc.kinds.owned_single id hid
  by_cases hne : x = id
  · subst hne
    exact Or.inl ((hf.queued x hx).resolve_right fun ⟨ms, hb⟩ => hs.not_isBatch ms hb)
  · have hlt : id < (s.markSent x).2.messages.size := by
      rw [Store.markSent_size]
      exact hs.lt_size
    have hn₁ : (s.markSent x).2.phase id = .notSent :=
      (Store.phase_congr (Store.markSent_messages_ne hne)).trans hn
    obtain ⟨ms, hb, hmem⟩ := h.mem_of_picked hlt hn₁ hpicked
    have hxlt := hb.lt_size
    rw [Store.markSent_size] at hxlt
    refine Or.inr ⟨x, ms, h.grows.isBatch hb, hmem, ?_⟩
    rw [h.picked_self hp hxlt]
    decide

/-- The step puts the message into the queue by itself, or gives it up. -/
def Event.strays : Event → MessageId → Bool
  | put .connection j _, id => j = id
  | submit .connection j _ _, id => j = id
  | fail j _, id => j = id
  | _, _ => false

namespace Engine

variable {stray : MessageId → Prop} {accepted : List MessageId} {e e' : Engine} {ev : Event}
variable {id : MessageId}

/-- Nothing has become of the messages of callers that wait. -/
def Fated (stray : MessageId → Prop) (e : Engine) : Prop := e.connection.Fated stray e.owned

/-! ## The outgoing pump -/

/-- A round picks up the next message of the queue, with its members if it is a batch. -/
theorem round_fated (hs : e.Sound accepted) (hf : e.Fated stray) (h : e.step .round = some e') :
    e'.Fated stray ∧ e.store.StaysOff e'.store := by
  obtain ⟨id, overtook, q, wakes, hnext, hfault, rfl⟩ := step_round h
  have hc : Custody e.owned accepted e.connection.queue.toList e.connection.ledger.entries
      e.store := hs.custody
  have hready := withQueue_ready hs hfault (hs.next_open hnext) q
  have hlist := PriorityQueue.next?_toList hnext
  have hmem : id ∈ e.connection.queue.toList := by
    rw [hlist]
    exact List.mem_cons_self
  have hrest : ∀ {s : Store}, Fates stray e.owned e.connection.queue.toList s →
      Fates stray e.owned q.toList s := fun hfates => hfates.enqueue fun j hj =>
    hfates.queued j (by rw [hlist]; exact List.mem_cons_of_mem id hj)
  cases ha : e.connection.aborting with
  | true =>
      have heq : (e.withQueue q).handle id overtook
          = (e.withQueue q).withStore (e.store.fail id .aborted) :=
        Writer.handle_aborting (w := e.withQueue q) ha overtook
      rw [heq]
      refine ⟨⟨hrest (hf.fates.failQueued (l := [id]) hc .aborted fun j hj => ?_), hf.collecting⟩,
        fun j _ => (Store.fail_resolves hc.wellFormed id .aborted).calledOff⟩
      rw [List.mem_singleton.mp hj]
      exact hmem
  | false =>
      by_cases hp : e.store.phase id = .notSent
      · obtain ⟨w, s', fs, sel, hdispatch, ⟨n, rfl⟩, heq⟩ :=
          Writer.handle_picked hready ha hp overtook
        have hgrows := (e.store.markSent_sends id).grows.trans hdispatch.grows
        have hcompletions : s'.completions = e.store.completions :=
          hdispatch.completions.trans (e.store.markSent_completions id)
        obtain ⟨hfates, hoff⟩ := hf.fates.pick hc hgrows hcompletions
          (fun j hj => hdispatch.picked_phase hj)
          fun j hj hn hne => hdispatch.cause hp hmem hf.fates hc hj hn hne
        rw [heq]
        show Connection.Fated stray e.owned (Writer.flush _).connection
          ∧ e.store.StaysOff (Writer.flush _).connection.store
        rw [Writer.flush_connection]
        exact ⟨⟨hrest hfates, hf.collecting⟩, hoff⟩
      · have heq : (e.withQueue q).handle id overtook = (e.withQueue q).count .cancelled :=
          Writer.handle_skipped (w := e.withQueue q) ha hp overtook
        rw [heq]
        exact ⟨⟨hrest hf.fates, hf.collecting⟩, fun _ _ hoff => hoff⟩

theorem settle_fated (hs : e.Sound accepted) (hf : e.Fated stray) :
    Fated stray { e with writer := e.writer.settle }
      ∧ e.store.StaysOff e.writer.settle.connection.store := by
  show e.writer.settle.connection.Fated stray e.owned ∧ _
  rcases settle_cases e.writer with heq | ⟨error, heq⟩
  · rw [heq]
    exact ⟨hf, fun _ _ hoff => hoff⟩
  · rw [heq]
    exact e.connection.spares_shutdown "error writing to the connection" (some error) hs hf

/-- The pump ends with a good-bye, or with a shutdown. -/
theorem finish_fated (hs : e.Sound accepted) (hf : e.Fated stray) (h : e.step .finish = some e') :
    e'.Fated stray ∧ e.store.StaysOff e'.store := by
  obtain ⟨hfault, rfl⟩ := step_finish h
  cases ha : e.connection.aborting with
  | true =>
      rw [finish_aborting hfault ha]
      exact e.connection.spares_shutdown "connection aborted" none hs hf
  | false =>
      obtain ⟨w, hemit, heq, hsound⟩ := finish_emits hs hfault ha
      have hflushed : Sound accepted { e with writer := w.flush } := hsound
      have hstore : w.flush.connection.store = e.store.issue .quit := by
        rw [Writer.flush_connection, hemit.store]
      -- the message of the pump has been picked up, and no other
      have hsends := e.store.issue_sends .quit
      obtain ⟨hfates, hoff⟩ := hf.fates.pick hs.custody hsends.grows hsends.completions
        hsends.phase fun j hj hn hne => by
          have hlt := (hs.custody.kinds.owned_single j hj).lt_size
          exact absurd ((Store.phase_congr (Store.issue_messages_of_lt .quit hlt)).trans hn) hne
      have hfated : Fated stray { e with writer := w.flush } := by
        obtain ⟨n, rfl⟩ := hemit
        obtain ⟨state, hclosing⟩ := e.connection.transition_eq [.opening, .established] .closing
        have hclosing : e.closing.connection = { e.connection with state := state } := hclosing
        show Connection.Fated stray e.owned (Writer.flush _).connection
        rw [Writer.flush_connection]
        refine ⟨?_, fun t => ?_⟩
        · show Fates stray e.owned e.closing.connection.queue.toList _
          rw [hclosing]
          exact hfates
        · show (e.closing.connection.collected t).isClosed = false
          rw [hclosing]
          exact hf.collecting t
      obtain ⟨hsettled, hoff'⟩ := settle_fated hflushed hfated
      rw [heq]
      refine ⟨hsettled, fun j hj h => hoff' j ?_ ?_⟩
      · show w.flush.connection.store.IsSingle j
        rw [hstore]
        exact (e.store.issue_sends .quit).grows.isSingle hj
      · show w.flush.connection.store.CalledOff j
        rw [hstore]
        exact hoff j hj h

/-! ## Every step -/

/-- Each step keeps the fates of the messages that it does not make stray. -/
theorem step_fated (hs : e.Sound accepted) (hf : e.Fated stray)
    (hev : ∀ id, ev.strays id → stray id) (h : e.step ev = some e') :
    e'.Fated stray ∧ e.store.StaysOff e'.store := by
  cases ev with
  | make r =>
      cases h
      obtain ⟨hfates, hoff⟩ := hf.fates.add hs.custody
        { request := r, frame := some r.frame, scope := [e.store.messages.size]
          created := e.store.now }
      exact ⟨⟨hfates.own (e.store.add_phase_self _), hf.collecting⟩, hoff⟩
  | attach id shape =>
      obtain ⟨ho, hempty, rfl⟩ := step_attach_inv h
      exact Connection.spares_attach (c := e.connection) hempty (Or.inl ho) hs hf
  | put target id priority =>
      obtain ⟨-, ⟨c, henq, rfl⟩ | ⟨-, rfl⟩⟩ := step_put_inv h
      · refine Connection.spares_executor henq (fun ht => hev id ?_) hs hf
        subst ht
        exact decide_eq_true rfl
      · exact ⟨hf, fun _ _ hoff => hoff⟩
  | submit target id priority shape =>
      obtain ⟨ho, k, c, hsubmit, rfl⟩ := step_submit_inv h
      refine Connection.spares_submit_owned hsubmit ho (fun ht => hev id ?_) hs hf
      subst ht
      exact decide_eq_true rfl
  | fail id error =>
      obtain ⟨ho, rfl⟩ := step_fail_inv h
      exact Connection.spares_fail error (Or.inl ⟨ho, hev id (decide_eq_true rfl)⟩) hs hf
  | cancel id =>
      obtain ⟨-, rfl⟩ := step_cancel_inv h
      exact e.connection.spares_cancel id hs hf
  | cancelThrough k =>
      cases h
      exact e.connection.spares_cancelThrough k hs hf
  | look k l =>
      cases h
      exact e.connection.spares_look k l.apply_target (fun _ => l.apply_waiting)
        (fun _ => l.apply_calledOff) hs hf
  | timeOut =>
      cases h
      exact e.connection.spares_timeout hs hf
  | newTransaction =>
      cases h
      exact e.connection.spares_newTransaction hs hf
  | execute t priority =>
      obtain ⟨k, c, hexecute, rfl⟩ := step_execute_inv h
      exact Connection.spares_execute hexecute hs hf
  | discard t =>
      cases h
      exact e.connection.spares_discard t hs hf
  | beginOpening =>
      cases h
      exact e.connection.spares_transition _ _ hs hf
  | connectFailed error =>
      cases h
      exact e.connection.spares_shutdown "connect failed" (some error) hs hf
  | finishOpening ping =>
      cases h
      exact e.connection.spares_finishOpening ping hs hf
  | openingTimedOut =>
      cases h
      exact e.connection.spares_openingTimedOut hs hf
  | close abort =>
      cases h
      exact e.connection.spares_close abort hs hf
  | shutdown cause error =>
      cases h
      exact e.connection.spares_shutdown cause error hs hf
  | settle =>
      cases h
      exact settle_fated hs hf
  | breakWrites text =>
      cases h
      exact ⟨hf, fun _ _ hoff => hoff⟩
  | reply r =>
      obtain ⟨-, rfl⟩ := step_reply h
      exact e.connection.spares_processReply r hs hf
  | tick now =>
      cases h
      exact e.connection.spares_tick now hs hf
  | round => exact round_fated hs hf h
  | finish => exact finish_fated hs hf h

theorem new_fated (stray : MessageId → Prop) (config : Config) : (new config).Fated stray where
  fates :=
    { queued := fun _ hid => by cases hid
      target := fun k c id hk => by
        rw [Array.getElem?_eq_none (Nat.zero_le k)] at hk
        cases hk
      waiting := fun k c id hk => by
        rw [Array.getElem?_eq_none (Nat.zero_le k)] at hk
        cases hk
      cause := fun _ hid => by cases hid }
  collecting t := by
    unfold Connection.collected
    rw [Array.getElem?_eq_none (Nat.zero_le t)]
    rfl

/-- No step lets a message wait again. -/
theorem step_advances (hs : e.Sound accepted) (h : e.step ev = some e') :
    e.store.Advances e'.store := by
  intro id hid hn
  by_cases hround : ev = .round
  · subst hround
    obtain ⟨x, -, -, -, -, -, -, hhandles⟩ := round_handles hs h
    cases hhandles with
    | left _ hphase =>
        rcases hphase id with hp | hp
        · exact hp.symm.trans hn
        · cases hp.symm.trans hn
    | wrote hx hdispatch =>
        rcases hdispatch.picked_phase hid with hp | ⟨hp, -⟩
        · exact hp.symm.trans hn
        · exact hp
  by_cases hfinish : ev = .finish
  · subst hfinish
    obtain ⟨hf, rfl⟩ := step_finish h
    rcases (finish_frames hs hf).1 id hid with hp | hp
    · exact hp.symm.trans hn
    · cases hp.symm.trans hn
  · rcases (step_inLine hs hround hfinish h).phase id hid with hp | hp
    · exact hp.symm.trans hn
    · cases hp.symm.trans hn

/-! ## Frames -/

/-- How many frames have been written, or will be flushed, for the command of a message. -/
def framesOf (e : Engine) (id : MessageId) : Nat := e.tape.countP (e.store.isFrameOf id)

/-- For a message of a caller there is at most one frame, and none while it waits. -/
structure Recorded (stray : MessageId → Prop) (e : Engine) : Prop where
  known : ∀ j, .message j ∈ e.tape → j < e.store.messages.size
  once : ∀ id ∈ e.owned, e.framesOf id ≤ 1
  unsent : ∀ id ∈ e.owned, e.store.phase id = .notSent → e.framesOf id = 0
  /-- a message that is not stray is only written in a block -/
  cause : ∀ id ∈ e.owned, 0 < e.framesOf id → stray id ∨ e.store.Departed id

theorem framesOf_append {fs : List InFlight} (hgrows : e.store.Grows e'.store)
    (hknown : ∀ j, .message j ∈ e.tape → j < e.store.messages.size)
    (htape : e'.tape = e.tape ++ fs) (id : MessageId) :
    e'.framesOf id = e.framesOf id + fs.countP (e'.store.isFrameOf id) := by
  unfold framesOf
  rw [htape, List.countP_append, hgrows.countP_isFrameOf hknown]

/-- Frames are written for messages that are picked up. -/
theorem Recorded.extend {fs : List InFlight} (h : Recorded stray e)
    (hgrows : e.store.Grows e'.store) (hsingle : ∀ id ∈ e.owned, e.store.IsSingle id)
    (ha : e.store.Advances e'.store) (howned : e'.owned = e.owned)
    (htape : e'.tape = e.tape ++ fs)
    (hknown : ∀ j, .message j ∈ fs → j < e'.store.messages.size)
    (honce : ∀ id ∈ e.owned, Store.Once e.store e'.store fs id)
    (hcause : ∀ id ∈ e.owned, 0 < fs.countP (e'.store.isFrameOf id) →
      stray id ∨ e'.store.Departed id) : Recorded stray e' := by
  have hcount := framesOf_append hgrows h.known htape
  have hnone : ∀ id ∈ e.owned, ¬ 0 < fs.countP (e'.store.isFrameOf id) →
      e'.framesOf id = e.framesOf id := by
    intro id _ hzero
    rw [hcount, Nat.eq_zero_of_not_pos hzero, Nat.add_zero]
  constructor
  · intro j hj
    rw [htape] at hj
    rcases List.mem_append.mp hj with hj | hj
    · exact Nat.lt_of_lt_of_le (h.known j hj) hgrows.size_le
    · exact hknown j hj
  · intro id hid
    rw [howned] at hid
    by_cases hpos : 0 < fs.countP (e'.store.isFrameOf id)
    · rw [hcount, h.unsent id hid ((honce id hid).picked hpos).1, Nat.zero_add]
      exact (honce id hid).le
    · rw [hnone id hid hpos]
      exact h.once id hid
  · intro id hid hn
    rw [howned] at hid
    have hpos : ¬ 0 < fs.countP (e'.store.isFrameOf id) := fun hpos =>
      ((honce id hid).picked hpos).2 hn
    rw [hnone id hid hpos]
    exact h.unsent id hid (ha id (hsingle id hid).lt_size hn)
  · intro id hid hwritten
    rw [howned] at hid
    by_cases hpos : 0 < fs.countP (e'.store.isFrameOf id)
    · exact hcause id hid hpos
    · rw [hnone id hid hpos] at hwritten
      exact (h.cause id hid hwritten).imp_right fun hd => hd.advance hgrows ha

/-- Nothing has been written for a message that does not exist yet. -/
theorem Recorded.framesOf_new (h : Recorded stray e) (wf : e.store.WellFormed) :
    e.framesOf e.store.messages.size = 0 := by
  refine List.countP_eq_zero.mpr fun f hf hframe => ?_
  cases f with
  | exec b => cases hframe
  | message j =>
      rcases Store.isFrameOf_message.mp hframe with rfl | he
      · exact absurd (h.known _ hf) (Nat.lt_irrefl _)
      · exact absurd (wf.inner_single he).lt_size (Nat.lt_irrefl _)

theorem Recorded.made (h : Recorded stray e) (hs : e.Sound accepted) (r : Request) :
    Recorded stray (e.made r) := by
  have hsends := e.store.create_sends r
  have htape : (e.made r).tape = e.tape ++ [] := (List.append_nil _).symm
  have hcount : ∀ id, (e.made r).framesOf id = e.framesOf id := fun id => by
    rw [framesOf_append hsends.grows h.known htape]
    rfl
  have hnew := (hcount _).trans (h.framesOf_new hs.custody.wellFormed)
  refine ⟨fun j hj => Nat.lt_of_lt_of_le (h.known j hj) hsends.size, ?_, ?_, ?_⟩
  · intro id hid
    rcases List.mem_cons.mp hid with rfl | hid
    · rw [hnew]
      exact Nat.zero_le 1
    · rw [hcount]
      exact h.once id hid
  · intro id hid hn
    rcases List.mem_cons.mp hid with rfl | hid
    · exact hnew
    · rw [hcount]
      exact h.unsent id hid (hsends.notSent (hs.custody.kinds.owned_single id hid).lt_size hn)
  · intro id hid hpos
    rcases List.mem_cons.mp hid with rfl | hid
    · rw [hnew] at hpos
      exact absurd hpos (Nat.lt_irrefl 0)
    · rw [hcount] at hpos
      exact (h.cause id hid hpos).imp_right fun hd =>
        hd.advance hsends.grows fun j hj hn => hsends.notSent hj hn

/-- What a step that makes no message adds to the frames. -/
theorem step_frames_once (hs : e.Sound accepted) (hf : e.Fated stray) (h : e.step ev = some e') :
    ∃ fs, e'.tape = e.tape ++ fs ∧ (∀ j, .message j ∈ fs → j < e'.store.messages.size)
      ∧ ∀ id ∈ e.owned, Store.Once e.store e'.store fs id
        ∧ (0 < fs.countP (e'.store.isFrameOf id) → stray id ∨ e'.store.Departed id) := by
  have hc : Custody e.owned accepted e.connection.queue.toList e.connection.ledger.entries
      e.store := hs.custody
  have hnothing : (∀ j, .message j ∈ ([] : List InFlight) → j < e'.store.messages.size)
      ∧ ∀ id ∈ e.owned, Store.Once e.store e'.store [] id
        ∧ (0 < List.countP (e'.store.isFrameOf id) [] → stray id ∨ e'.store.Departed id) :=
    ⟨fun _ hj => absurd hj List.not_mem_nil,
      fun id _ => ⟨.nil _ _ id, fun hpos => absurd hpos (Nat.lt_irrefl 0)⟩⟩
  by_cases hround : ev = .round
  · subst hround
    obtain ⟨x, overtook, q, wakes, hnext, -, -, hhandles⟩ := round_handles hs h
    have hx : x ∈ e.connection.queue.toList := by
      rw [PriorityQueue.next?_toList hnext]
      exact List.mem_cons_self
    cases hhandles with
    | left _ _ _ hwritten hbuffer =>
        refine ⟨[], ?_, hnothing⟩
        unfold tape
        rw [hwritten, hbuffer, List.append_nil]
    | @wrote fs _ hp hdispatch htape =>
        have hkind : e.store.IsSingle x ∨ ∃ ms, e.store.IsBatch x ms :=
          (hc.kinds.queued_kind x hx).imp_left (hc.kinds.owned_single x)
        refine ⟨fs, htape, fun j hj => hdispatch.frames_lt hj, fun id hid => ?_⟩
        have honce := hdispatch.once hp hkind (hc.kinds.owned_single id hid)
        refine ⟨honce, fun hpos => ?_⟩
        obtain ⟨hn, hpicked⟩ := honce.picked hpos
        exact hdispatch.cause hp hx hf.fates hc hid hn hpicked
  by_cases hfinish : ev = .finish
  · subst hfinish
    obtain ⟨hfault, rfl⟩ := step_finish h
    obtain ⟨-, fs, htape, hfs⟩ := finish_frames hs hfault
    refine ⟨fs, htape, fun j hj => (hfs j hj).2.lt_size, fun id hid => ?_⟩
    -- the good-bye is a message of the pump
    have hnone : fs.countP (e.writer.finish.connection.store.isFrameOf id) = 0 := by
      refine List.countP_eq_zero.mpr fun f hf => ?_
      cases f with
      | exec b => exact Bool.false_ne_true
      | message j =>
          obtain ⟨hle, hsingle⟩ := hfs j hf
          rw [Store.isFrameOf_single hsingle, decide_eq_true_eq]
          rintro rfl
          exact absurd (hc.kinds.owned_single j hid).lt_size (Nat.not_lt.mpr hle)
    have hnone : fs.countP (Store.isFrameOf (Engine.store
        { e with writer := e.writer.finish, ended := true }) id) = 0 := hnone
    refine ⟨⟨?_, fun hpos => ?_⟩, fun hpos => ?_⟩
    · rw [hnone]
      exact Nat.zero_le 1
    · rw [hnone] at hpos
      cases hpos
    · rw [hnone] at hpos
      cases hpos
  · refine ⟨[], ?_, hnothing⟩
    rw [step_tape hs hround hfinish h, List.append_nil]

theorem step_recorded (hs : e.Sound accepted) (hf : e.Fated stray) (hr : Recorded stray e)
    (h : e.step ev = some e') : Recorded stray e' := by
  rcases step_owned h with howned | ⟨r, rfl, rfl⟩
  · obtain ⟨fs, htape, hknown, hall⟩ := step_frames_once hs hf h
    exact hr.extend (step_grows hs h) hs.custody.kinds.owned_single (step_advances hs h) howned
      htape hknown (fun id hid => (hall id hid).1) fun id hid => (hall id hid).2
  · exact hr.made hs r

end Engine

end RespMux
