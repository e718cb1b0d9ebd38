import RespMux.Proofs.Connection.Callers
import RespMux.Proofs.Connection.Replies
import RespMux.Proofs.Engine
import RespMux.Proofs.Outgoing.Round

/-!
# Every run is sound

Each step keeps the connection sound, and so does a run. Most steps are not a matter of the pumps:
they leave alone what the pumps have done (`Engine.Rests`). The three that are, a round of the
outgoing pump, its end, and a reply, have lemmas of their own.
-/

set_option autoImplicit false

namespace RespMux

/-- The step is not one of the pumps. -/
def Event.isQuiet : Event → Bool
  | round => false
  | finish => false
  | reply _ => false
  | _ => true

namespace Look

theorem apply_target (l : Look) (c : Completion) : (l.apply c).target = c.target := by
  obtain ⟨stage, waker, isOpen, target⟩ := c
  cases l with
  | close => rfl
  | take => cases stage <;> rfl
  | poll => cases stage <;> rfl
  | pollComplete => cases stage <;> rfl

theorem apply_stage {l : Look} {c : Completion} (h : (l.apply c).stage = .waiting) :
    c.stage = .waiting := by
  obtain ⟨stage, waker, isOpen, target⟩ := c
  cases l with
  | close => exact h
  | take => cases stage <;> first | rfl | cases h
  | poll => cases stage <;> first | rfl | cases h
  | pollComplete => cases stage <;> first | rfl | cases h

theorem apply_abandoned (l : Look) (c : Completion) (h : c.stage ≠ .abandoned) :
    (l.apply c).stage ≠ .abandoned := by
  obtain ⟨stage, waker, isOpen, target⟩ := c
  intro happly
  cases l with
  | close => exact h happly
  | take => cases stage <;> cases happly
  | poll => cases stage <;> cases happly
  | pollComplete => cases stage <;> cases happly

theorem apply_isOpen {l : Look} {c : Completion} (h : (l.apply c).isOpen = true) :
    c.isOpen = true := by
  obtain ⟨stage, waker, isOpen, target⟩ := c
  cases l with
  | close => cases h
  | take => cases stage <;> exact h
  | poll => cases stage <;> exact h
  | pollComplete => cases stage <;> exact h

/-- A look does not make a completion wait. -/
theorem apply_waits {l : Look} {c : Completion} (h : (l.apply c).Waits) : c.Waits :=
  ⟨apply_stage h.1, apply_isOpen h.2⟩

end Look

namespace Engine

variable {accepted : List MessageId} {e e' : Engine} {ev : Event}

/-- The connection is sound for the messages that callers have made. -/
def Sound (accepted : List MessageId) (e : Engine) : Prop :=
  e.connection.Sound e.owned accepted

/-- Everything that the pump has written, and what it has still to flush. -/
def tape (e : Engine) : List InFlight := e.writer.written ++ e.writer.buffer

/-- Nothing has become of what the pumps have done so far. -/
structure Rests (e e' : Engine) : Prop where
  continues : e.connection.Continues e'.connection
  selected : e'.writer.selected = e.writer.selected
  buffer : e'.writer.buffer = e.writer.buffer
  written : e'.writer.written = e.writer.written
  fault : e'.writer.fault = e.writer.fault
  failure : e'.failure = e.failure
  answered : e'.answered = e.answered

theorem Rests.tape (h : Rests e e') : e'.tape = e.tape := by
  unfold Engine.tape
  rw [h.written, h.buffer]

theorem Rests.withConnection {c : Connection} (h : e.connection.Continues c) :
    Rests e (e.withConnection c) := ⟨h, rfl, rfl, rfl, rfl, rfl, rfl⟩

/-- A step that keeps the connection sound and does nothing else. -/
theorem rests_of_keeps {c : Connection} (hs : e.Sound accepted)
    (h : Connection.Keeps e.owned accepted e.connection c) :
    (e.withConnection c).Sound accepted ∧ Rests e (e.withConnection c) := by
  obtain ⟨hsound, hcont⟩ := h hs
  exact ⟨hsound, .withConnection hcont⟩

/-! ## Steps of callers -/

section Steps

variable {id : MessageId} {target : Connection.Target} {priority : Priority} {shape : Shape}

/-- A caller asks for the outcome of a message of its own that nobody has asked for. -/
theorem step_attach_inv (h : e.step (.attach id shape) = some e') :
    id ∈ e.owned ∧ e.store.sink id = .empty ∧ e' = e.withStore (e.store.attach id shape) := by
  unfold step at h
  dsimp only at h
  split at h
  · next ho =>
    split at h
    · next s' hassign =>
      cases h
      obtain ⟨hempty, hlink⟩ := Connection.assign_ok hassign
      exact ⟨ho, hempty, congrArg e.withStore hlink⟩
    · cases h
  · cases h

/-- A message that is handed in is taken or refused. -/
theorem step_put_inv (h : e.step (.put target id priority) = some e') :
    id ∈ e.owned
      ∧ ((∃ c, (Connection.executor target).enqueue e.connection id priority = some (.ok c)
          ∧ e' = e.withConnection c)
        ∨ (∃ error, (Connection.executor target).enqueue e.connection id priority
            = some (.error error)) ∧ e' = e) := by
  unfold step at h
  dsimp only at h
  split at h
  · next ho =>
    split at h
    · next c henq =>
      cases h
      exact ⟨ho, Or.inl ⟨c, henq, rfl⟩⟩
    · next error herr =>
      cases h
      exact ⟨ho, Or.inr ⟨⟨error, herr⟩, rfl⟩⟩
    · cases h
  · cases h

theorem step_submit_inv (h : e.step (.submit target id priority shape) = some e') :
    id ∈ e.owned ∧ ∃ k c,
      (Connection.executor target).submit e.connection id priority shape = some (k, c)
        ∧ e' = e.withConnection c := by
  unfold step at h
  dsimp only at h
  split at h
  · next ho =>
    split at h
    · next k c hsubmit =>
      cases h
      exact ⟨ho, k, c, hsubmit, rfl⟩
    · cases h
  · cases h

theorem step_fail_inv {error : Error} (h : e.step (.fail id error) = some e') :
    id ∈ e.owned ∧ e' = e.withStore (e.store.fail id error) := by
  unfold step at h
  dsimp only at h
  split at h
  · next ho =>
    cases h
    exact ⟨ho, rfl⟩
  · cases h

theorem step_cancel_inv (h : e.step (.cancel id) = some e') :
    id ∈ e.owned ∧ e' = e.withStore (e.store.cancel id).2 := by
  unfold step at h
  dsimp only at h
  split at h
  · next ho =>
    cases h
    exact ⟨ho, rfl⟩
  · cases h

theorem step_execute_inv {t : Nat} (h : e.step (.execute t priority) = some e') :
    ∃ k c, e.connection.executeTransaction t priority = some (k, c)
      ∧ e' = e.withConnection c := by
  unfold step at h
  dsimp only at h
  split at h
  · next k c hexecute =>
    cases h
    exact ⟨k, c, hexecute, rfl⟩
  · cases h

end Steps

/-- Settling is nothing, or the shutdown after a failed write. -/
theorem settle_cases (w : Writer) :
    w.settle = w ∨ ∃ error, w.settle
      = { w with connection :=
          w.connection.shutdown "error writing to the connection" (some error) } := by
  unfold Writer.settle
  split
  · next error _ => exact Or.inr ⟨error, rfl⟩
  · exact Or.inl rfl

/-- The clock has no part in the custody. -/
theorem keeps_tick (c : Connection) {owned : List MessageId} (now : Duration) :
    Connection.Keeps owned accepted c { c with store := { c.store with now := now } } :=
  Connection.keeps_store fun hc =>
    ⟨hc.observe (fun _ => rfl) (fun _ => rfl) (fun _ => rfl)
        (fun _ d hk hw => ⟨d, hk, rfl, hw⟩) (fun _ d hk => ⟨d, hk, rfl⟩) fun hkept => hkept,
      .of_draft? fun _ => rfl⟩

/-- Settling keeps the connection sound, and the pumps rest. -/
theorem settle_rests (hs : e.Sound accepted) :
    Sound accepted { e with writer := e.writer.settle }
      ∧ Rests e { e with writer := e.writer.settle } := by
  rcases settle_cases e.writer with heq | ⟨error, heq⟩
  · rw [heq]
    exact ⟨hs, .withConnection (.refl e.connection)⟩
  · rw [heq]
    exact rests_of_keeps hs (Connection.keeps_shutdown e.connection _ _)

/-- A step that is not one of the pumps keeps the connection sound, and the pumps rest. -/
theorem step_quiet (hs : e.Sound accepted) (hq : ev.isQuiet = true) (h : e.step ev = some e') :
    e'.Sound accepted ∧ Rests e e' := by
  cases ev with
  | make r =>
      cases h
      exact ⟨Connection.Sound.create hs r,
        ⟨Connection.continues_create e.connection r, rfl, rfl, rfl, rfl, rfl, rfl⟩⟩
  | attach id shape =>
      obtain ⟨ho, hempty, rfl⟩ := step_attach_inv h
      have hbatch : ∀ ms, e.store.IsBatch id ms → shape = .unit ∧ e.store.phase id = .notSent :=
        fun ms hb => absurd hb ((hs.custody.kinds.owned_single id ho).not_isBatch ms)
      exact rests_of_keeps hs (Connection.keeps_attach hempty hbatch)
  | put target id priority =>
      obtain ⟨ho, ⟨c, henq, rfl⟩ | ⟨-, rfl⟩⟩ := step_put_inv h
      · exact rests_of_keeps hs (Connection.keeps_executor henq ho)
      · exact ⟨hs, .withConnection (.refl _)⟩
  | submit target id priority shape =>
      obtain ⟨ho, k, c, hsubmit, rfl⟩ := step_submit_inv h
      exact rests_of_keeps hs (Connection.keeps_submit_owned hsubmit ho)
  | fail id error =>
      obtain ⟨-, rfl⟩ := step_fail_inv h
      exact rests_of_keeps hs
        (Connection.keeps_resolves fun wf => Store.fail_resolves wf id error)
  | cancel id =>
      obtain ⟨-, rfl⟩ := step_cancel_inv h
      exact rests_of_keeps hs (Connection.keeps_cancel _ id)
  | cancelThrough k =>
      cases h
      exact rests_of_keeps hs (Connection.keeps_cancelThrough _ k)
  | look k l =>
      cases h
      exact rests_of_keeps hs
        (Connection.keeps_look _ k (Look.apply_target l) (fun _ => Look.apply_waits)
          (Look.apply_abandoned l))
  | timeOut =>
      cases h
      exact rests_of_keeps hs (Connection.keeps_timeout _)
  | newTransaction =>
      cases h
      exact rests_of_keeps hs (Connection.keeps_newTransaction _)
  | execute t priority =>
      obtain ⟨k, c, hexecute, rfl⟩ := step_execute_inv h
      exact rests_of_keeps hs (Connection.keeps_execute hexecute)
  | discard t =>
      cases h
      exact rests_of_keeps hs (Connection.keeps_discard _ t)
  | beginOpening =>
      cases h
      exact rests_of_keeps hs (Connection.keeps_beginOpening _)
  | connectFailed error =>
      cases h
      exact rests_of_keeps hs (Connection.keeps_connectFailed _ error)
  | finishOpening ping =>
      cases h
      exact rests_of_keeps hs (Connection.keeps_finishOpening _ ping)
  | openingTimedOut =>
      cases h
      exact rests_of_keeps hs (Connection.keeps_openingTimedOut _)
  | close abort =>
      cases h
      exact rests_of_keeps hs (Connection.keeps_close _ abort)
  | shutdown cause error =>
      cases h
      exact rests_of_keeps hs (Connection.keeps_shutdown _ cause error)
  | settle =>
      cases h
      exact settle_rests hs
  | breakWrites text =>
      cases h
      exact ⟨hs, ⟨.refl e.connection, rfl, rfl, rfl, rfl, rfl, rfl⟩⟩
  | tick now =>
      cases h
      exact rests_of_keeps hs (keeps_tick _ now)
  | round => cases hq
  | finish => cases hq
  | reply r => cases hq

/-! ## Steps of the pumps -/

/-- The outgoing pump when the queue has become `q`. -/
def withQueue (e : Engine) (q : PriorityQueue MessageId) : Writer :=
  { e.writer with connection := { e.connection with queue := q } }

/-- A round of the pump starts when the next message has been taken out of the queue. -/
theorem step_round (h : e.step .round = some e') :
    ∃ id overtook q wakes, e.connection.queue.next? = some ((id, overtook), q, wakes)
      ∧ e.writer.fault = none
      ∧ e' = { e with writer := (e.withQueue q).handle id overtook } := by
  unfold step at h
  dsimp only at h
  split at h
  · cases h
  · next hguard =>
    obtain ⟨w, hw, rfl⟩ := Option.map_eq_some_iff.mp h
    unfold Writer.round? at hw
    split at hw
    · cases hw
    · next id overtook q wakes hnext =>
      cases hw
      refine ⟨id, overtook, q, wakes, hnext, ?_, rfl⟩
      -- the guard of the step has excluded a fault
      cases hf : e.writer.fault with
      | none => rfl
      | some error =>
          rw [hf] at hguard
          simp at hguard

theorem step_finish (h : e.step .finish = some e') :
    e.writer.fault = none ∧ e' = { e with writer := e.writer.finish, ended := true } := by
  unfold step at h
  dsimp only at h
  split at h
  · next hguard =>
    cases h
    refine ⟨?_, rfl⟩
    cases hf : e.writer.fault with
    | none => rfl
    | some error =>
        rw [hf] at hguard
        simp at hguard
  · cases h

theorem step_reply {r : Reply} (h : e.step (.reply r) = some e') :
    e.failure = none
      ∧ e' = { e.withConnection (e.connection.processReply r).2 with
          failure := (e.connection.processReply r).1
          answered := e.answered
            ++ (e.connection.ledger.entries.head?.map fun f => (f, r)).toList } := by
  unfold step at h
  dsimp only at h
  split at h
  · cases h
  · next hguard =>
    cases h
    refine ⟨?_, rfl⟩
    -- the guard of the step has excluded a failure
    cases hf : e.failure with
    | none => rfl
    | some error =>
        rw [hf] at hguard
        simp at hguard

/-- The outgoing pump has recorded the frames `fs`, and has written what it has recorded unless it
has failed. -/
structure Writes (fs : List InFlight) (e e' : Engine) : Prop where
  grows : e.store.Grows e'.store
  down : e.connection.isShutDown = true → e'.connection.isShutDown = true
  entries : e'.connection.isShutDown = false →
    e'.connection.ledger.entries = e.connection.ledger.entries ++ fs
  tape : e'.writer.written ++ e'.writer.buffer = e.writer.written ++ e.writer.buffer ++ fs
  flushed : e.writer.buffer = [] → e'.writer.fault = none → e'.writer.buffer = []
  fault : e.writer.fault = none
  failure : e'.failure = e.failure
  answered : e'.answered = e.answered

theorem Writes.open {fs : List InFlight} (h : Writes fs e e')
    (hd : e'.connection.isShutDown = false) : e.connection.isShutDown = false := by
  cases hc : e.connection.isShutDown with
  | false => rfl
  | true =>
      rw [h.down hc] at hd
      cases hd

theorem Sound.next_open (hs : e.Sound accepted) {x : MessageId × Bool}
    {q : PriorityQueue MessageId} {wakes : Bool}
    (h : e.connection.queue.next? = some (x, q, wakes)) : e.connection.isShutDown = false := by
  cases hd : e.connection.isShutDown with
  | false => rfl
  | true =>
      have hlist := PriorityQueue.next?_toList h
      rw [(hs.down hd).2.1] at hlist
      cases hlist

theorem withQueue_ready (hs : e.Sound accepted) (hf : e.writer.fault = none)
    (hopen : e.connection.isShutDown = false) (q : PriorityQueue MessageId) :
    (e.withQueue q).Ready := ⟨hf, hs.recording hopen⟩

/-- A round keeps the connection sound. -/
theorem round_sound (hs : e.Sound accepted) (hf : e.writer.fault = none) {id : MessageId}
    {overtook : Bool} {q : PriorityQueue MessageId} {wakes : Bool}
    (hnext : e.connection.queue.next? = some ((id, overtook), q, wakes)) :
    Sound accepted { e with writer := (e.withQueue q).handle id overtook } := by
  have hopen := hs.next_open hnext
  have hready := withQueue_ready hs hf hopen q
  have hcustody : Custody e.owned accepted (id :: q.toList)
      (e.withQueue q).connection.ledger.entries (e.withQueue q).connection.store := by
    rw [← PriorityQueue.next?_toList hnext]
    exact hs.custody
  -- the message in hand counts as queued until it has been handled
  have hhandled := Writer.handle_custody hready hcustody overtook
  obtain ⟨s, sel, fs, w, ⟨n, rfl⟩, -, hw⟩ :=
    Writer.handle_emits hready hs.custody.wellFormed id overtook
  have hconnection : ((e.withQueue q).handle id overtook).connection
      = ((e.withQueue q).after s sel fs n).connection := by
    rcases hw with ⟨-, hw⟩ | hw
    · rw [hw]
    · rw [hw, Writer.flush_connection]
  have hqueue : ((e.withQueue q).handle id overtook).connection.queue = q := by
    rw [hconnection]
    rfl
  refine Connection.sound_of_open ?_ ?_ ?_ ?_
  · show Custody e.owned accepted ((e.withQueue q).handle id overtook).connection.queue.toList _ _
    rw [hqueue]
    exact hhandled
  · show ∀ t, ∀ j ∈ (((e.withQueue q).handle id overtook).connection.collected t).toList, _
    rw [hconnection]
    exact hs.collected
  · show ((e.withQueue q).handle id overtook).connection.isShutDown = false
    rw [hconnection]
    exact hopen
  · show ((e.withQueue q).handle id overtook).connection.ledger.isClosed = false
    rw [hconnection]
    exact hs.recording hopen

/-- What has been emitted and flushed, or only emitted when it is nothing, counts as written. -/
theorem writes_of_emits {v w w' : Writer} {s : Store} {sel : Option Database}
    {fs : List InFlight} (hf : e.writer.fault = none) (hopen : e.connection.isShutDown = false)
    (hgrows : e.store.Grows s) (hledger : v.connection.ledger = e.connection.ledger)
    (hwritten : v.written = e.writer.written) (hbuffer : v.buffer = e.writer.buffer)
    (hemit : Writer.Emits v s sel fs w) (hw : (fs = [] ∧ w' = w) ∨ w' = w.flush) (ended : Bool) :
    Writes fs e { e with writer := w', ended := ended } := by
  obtain ⟨n, rfl⟩ := hemit
  -- a flush changes nothing of the connection
  have hconnection : w'.connection = (v.after s sel fs n).connection := by
    rcases hw with ⟨-, rfl⟩ | rfl
    · rfl
    · exact Writer.flush_connection _
  refine ⟨?_, ?_, ?_, ?_, ?_, hf, rfl, rfl⟩
  · show e.store.Grows w'.connection.store
    rw [hconnection]
    exact hgrows
  · intro hd
    rw [hopen] at hd
    cases hd
  · intro _
    show w'.connection.ledger.entries = _
    rw [hconnection, ← hledger]
    rfl
  · show w'.written ++ w'.buffer = _
    have htape : (v.after s sel fs n).written ++ (v.after s sel fs n).buffer
        = e.writer.written ++ e.writer.buffer ++ fs := by
      rw [← hwritten, ← hbuffer]
      exact Writer.Emits.tape ⟨n, rfl⟩
    rcases hw with ⟨-, rfl⟩ | rfl
    · exact htape
    · rw [Writer.flush_all]
      exact htape
  · intro hempty hfault
    rcases hw with ⟨rfl, rfl⟩ | rfl
    · show v.buffer ++ [] = []
      rw [hbuffer, hempty]
      rfl
    · exact Writer.flush_buffer hfault

theorem round_writes (hs : e.Sound accepted) (hf : e.writer.fault = none) {id : MessageId}
    {overtook : Bool} {q : PriorityQueue MessageId} {wakes : Bool}
    (hnext : e.connection.queue.next? = some ((id, overtook), q, wakes)) :
    ∃ fs, Writes fs e { e with writer := (e.withQueue q).handle id overtook } := by
  have hopen := hs.next_open hnext
  have hready := withQueue_ready hs hf hopen q
  obtain ⟨s, sel, fs, w, hemit, hgrows, hw⟩ :=
    Writer.handle_emits hready hs.custody.wellFormed id overtook
  exact ⟨fs, writes_of_emits (v := e.withQueue q) hf hopen hgrows rfl rfl rfl hemit hw e.ended⟩

/-- The pump at its end, when it is to say good-bye. -/
def closing (e : Engine) : Writer :=
  { e.writer with
    connection := (e.connection.transition [.opening, .established] .closing).2 }

theorem finish_aborting (hf : e.writer.fault = none) (ha : e.connection.aborting = true) :
    e.writer.finish
      = { e.writer with connection := e.connection.shutdown "connection aborted" none } := by
  unfold Writer.finish
  rw [if_neg (by rw [hf]; decide)]
  show (if e.connection.aborting = true then _ else _) = _
  rw [if_pos ha]
  rfl

/-- The good-bye is recorded and flushed like any other frame. -/
theorem finish_emits (hs : e.Sound accepted) (hf : e.writer.fault = none)
    (ha : e.connection.aborting = false) :
    ∃ w, Writer.Emits e.closing (e.store.issue .quit) e.writer.selected
        [.message e.store.messages.size] w
      ∧ e.writer.finish = w.flush.settle
      ∧ Connection.Sound e.owned accepted w.flush.connection := by
  have htransition := (e.connection.keeps_transition [.opening, .established] .closing) hs
  obtain ⟨state, heq⟩ := e.connection.transition_eq [.opening, .established] .closing
  have hclosing : e.closing.connection = { e.connection with state := state } := heq
  -- the pump only says good-bye on a connection that is open
  have hdown : e.closing.connection.isShutDown = false := by
    rw [hclosing]
    exact hs.open_of_not_aborting ha
  have hstore : e.closing.connection.store = e.store := by
    rw [hclosing]
    rfl
  have hready : e.closing.Ready := ⟨hf, htransition.1.recording hdown⟩
  have hemit := (Writer.Emits.refl e.closing).pushOwn hready .quit
  have hissue := htransition.1.custody.issue .quit
  have hfinish : e.writer.finish = (e.closing.pushOwn .quit).flush.settle := by
    unfold Writer.finish
    rw [if_neg (by rw [hf]; decide)]
    show (if e.connection.aborting = true then _ else _) = _
    rw [if_neg (by rw [ha]; decide)]
    show ((e.closing.pushOwn .quit).next Writer.flush).settle = _
    rw [hemit.next hready]
  rw [hstore] at hemit
  refine ⟨_, hemit, hfinish, ?_⟩
  rw [show (e.connection.transition [.opening, .established] .closing).2.store = e.store from
    hstore] at hissue
  rw [Writer.flush_connection]
  obtain ⟨n, hn⟩ := hemit
  rw [hn]
  refine Connection.sound_of_open ?_ htransition.1.collected hdown hready.ledger
  exact hissue.perm (List.perm_append_singleton _ _)

theorem Writes.then_rests {fs : List InFlight} {e₁ : Engine} (h : Writes fs e e₁)
    (h' : Rests e₁ e') : Writes fs e e' where
  grows := h.grows.trans h'.continues.grows
  down hd := h'.continues.down (h.down hd)
  entries hd := by
    rw [h'.continues.ledger hd]
    exact h.entries (h'.continues.open hd)
  tape := by
    rw [h'.written, h'.buffer]
    exact h.tape
  flushed hempty hfault := by
    rw [h'.buffer]
    refine h.flushed hempty ?_
    rw [← h'.fault]
    exact hfault
  fault := h.fault
  failure := h'.failure.trans h.failure
  answered := h'.answered.trans h.answered

theorem Rests.writes (h : Rests e e') (hf : e.writer.fault = none) : Writes [] e e' where
  grows := h.continues.grows
  down := h.continues.down
  entries hd := by
    rw [h.continues.ledger hd, List.append_nil]
  tape := by rw [h.written, h.buffer, List.append_nil]
  flushed hempty _ := h.buffer.trans hempty
  fault := hf
  failure := h.failure
  answered := h.answered

/-- The end of the pump keeps the connection sound. -/
theorem finish_writes (hs : e.Sound accepted) (hf : e.writer.fault = none) :
    Sound accepted { e with writer := e.writer.finish, ended := true }
      ∧ ∃ fs, Writes fs e { e with writer := e.writer.finish, ended := true } := by
  cases ha : e.connection.aborting with
  | true =>
      rw [finish_aborting hf ha]
      obtain ⟨hsound, hrests⟩ :=
        rests_of_keeps hs (e.connection.keeps_shutdown "connection aborted" none)
      have hrests' : Rests e { e with
          writer := { e.writer with connection := e.connection.shutdown "connection aborted" none }
          ended := true } :=
        ⟨hrests.continues, rfl, rfl, rfl, rfl, rfl, rfl⟩
      exact ⟨hsound, [], hrests'.writes hf⟩
  | false =>
      obtain ⟨w, hemit, heq, hsound⟩ := finish_emits hs hf ha
      have hgrows := (e.store.issue_sends .quit).grows
      have hopen := hs.open_of_not_aborting ha
      have hledger : e.closing.connection.ledger = e.connection.ledger := by
        obtain ⟨state, heq⟩ := e.connection.transition_eq [.opening, .established] .closing
        show (e.connection.transition [.opening, .established] .closing).2.ledger = _
        rw [heq]
      have hwrites := writes_of_emits hf hopen hgrows hledger rfl rfl hemit (Or.inr rfl) true
      have hflushed : Sound accepted { e with writer := w.flush, ended := true } := hsound
      obtain ⟨hsettled, hrests⟩ := settle_rests hflushed
      rw [heq]
      exact ⟨hsettled, _, hwrites.then_rests hrests⟩

/-- The frame `f` has been taken out of the ledger for the reply `r`. -/
structure Takes (f : InFlight) (r : Reply) (e e' : Engine) : Prop where
  grows : e.store.Grows e'.store
  down : e.connection.isShutDown = true → e'.connection.isShutDown = true
  entries : e'.connection.isShutDown = false →
    e.connection.ledger.entries = f :: e'.connection.ledger.entries
  selected : e'.writer.selected = e.writer.selected
  buffer : e'.writer.buffer = e.writer.buffer
  written : e'.writer.written = e.writer.written
  fault : e'.writer.fault = e.writer.fault
  answered : e'.answered = e.answered ++ [(f, r)]

theorem Takes.open {f : InFlight} {r : Reply} (h : Takes f r e e')
    (hd : e'.connection.isShutDown = false) : e.connection.isShutDown = false := by
  cases hc : e.connection.isShutDown with
  | false => rfl
  | true =>
      rw [h.down hc] at hd
      cases hd

theorem Takes.tape {f : InFlight} {r : Reply} (h : Takes f r e e') : e'.tape = e.tape := by
  unfold Engine.tape
  rw [h.written, h.buffer]

/-- A reply takes the oldest frame, if there is one, and keeps the connection sound. -/
theorem reply_takes {r : Reply} (hs : e.Sound accepted) (h : e.step (.reply r) = some e') :
    e'.Sound accepted ∧ e'.failure = (e.connection.processReply r).1
      ∧ ((e.connection.ledger.entries = [] ∧ Rests { e with failure := e'.failure } e')
        ∨ ∃ f, e.connection.ledger.entries.head? = some f ∧ Takes f r e e') := by
  obtain ⟨-, rfl⟩ := step_reply h
  cases hentries : e.connection.ledger.entries with
  | nil =>
      -- a reply that nothing waits for
      rw [Connection.processReply_nil hentries]
      refine ⟨hs, rfl, Or.inl ⟨rfl, ⟨.refl e.connection, rfl, rfl, rfl, rfl, rfl, ?_⟩⟩⟩
      exact List.append_nil _
  | cons f fs =>
      obtain ⟨hsound, hcont⟩ := Connection.processReply_keeps hs hentries r
      refine ⟨hsound, rfl,
        Or.inr ⟨f, rfl, ⟨hcont.grows, hcont.down, fun hd => ?_, rfl, rfl, rfl, rfl, rfl⟩⟩⟩
      have hledger := hcont.ledger hd
      show _ = f :: (e.connection.processReply r).2.ledger.entries
      rw [hledger]
      exact hentries

/-! ## Runs -/

/-- Every step keeps the connection sound. -/
theorem step_sound (hs : e.Sound accepted) (h : e.step ev = some e') : e'.Sound accepted := by
  cases hq : ev.isQuiet with
  | true => exact (step_quiet hs hq h).1
  | false =>
      cases ev with
      | round =>
          obtain ⟨id, overtook, q, wakes, hnext, hf, rfl⟩ := step_round h
          exact round_sound hs hf hnext
      | finish =>
          obtain ⟨hf, rfl⟩ := step_finish h
          exact (finish_writes hs hf).1
      | reply r => exact (reply_takes hs h).1
      | _ => cases hq

/-- Only a caller who makes a message owns one more. -/
theorem step_owned (h : e.step ev = some e') :
    e'.owned = e.owned ∨ ∃ r, ev = .make r ∧ e' = e.made r := by
  cases ev with
  | make r =>
      cases h
      exact Or.inr ⟨r, rfl, rfl⟩
  | round =>
      obtain ⟨id, overtook, q, wakes, -, -, rfl⟩ := step_round h
      exact Or.inl rfl
  | finish =>
      obtain ⟨-, rfl⟩ := step_finish h
      exact Or.inl rfl
  | reply r =>
      obtain ⟨-, rfl⟩ := step_reply h
      exact Or.inl rfl
  | attach id shape =>
      obtain ⟨-, -, rfl⟩ := step_attach_inv h
      exact Or.inl rfl
  | put target id priority =>
      obtain ⟨-, ⟨c, -, rfl⟩ | ⟨-, rfl⟩⟩ := step_put_inv h
      · exact Or.inl rfl
      · exact Or.inl rfl
  | submit target id priority shape =>
      obtain ⟨-, k, c, -, rfl⟩ := step_submit_inv h
      exact Or.inl rfl
  | fail id error =>
      obtain ⟨-, rfl⟩ := step_fail_inv h
      exact Or.inl rfl
  | cancel id =>
      obtain ⟨-, rfl⟩ := step_cancel_inv h
      exact Or.inl rfl
  | execute t priority =>
      obtain ⟨k, c, -, rfl⟩ := step_execute_inv h
      exact Or.inl rfl
  | _ =>
      cases h
      exact Or.inl rfl

/-- So a message of a caller stays one. -/
theorem step_owns {id : MessageId} (h : e.step ev = some e') (hid : id ∈ e.owned) :
    id ∈ e'.owned := by
  rcases step_owned h with howned | ⟨r, -, rfl⟩
  · rw [howned]
    exact hid
  · exact List.mem_cons_of_mem _ hid

theorem run_owns {evs : List Event} {id : MessageId} (h : e.run evs = some e')
    (hid : id ∈ e.owned) : id ∈ e'.owned :=
  run_induction (P := fun e => id ∈ e.owned) (fun _ _ _ hid hstep => step_owns hstep hid) h hid

theorem new_sound (config : Config) : (new config).Sound [] where
  custody :=
    { kinds :=
        { wellFormed :=
            { single := fun id m hm => by
                rw [Store.draft?_of_size_le (Nat.zero_le id)] at hm
                cases hm
              envelope := fun id m inner hm => by
                rw [Store.draft?_of_size_le (Nat.zero_le id)] at hm
                cases hm
              batch := fun id m ms hm => by
                rw [Store.draft?_of_size_le (Nat.zero_le id)] at hm
                cases hm }
          owned_single := fun _ hid => by cases hid
          accepted_kind := fun _ hid => by cases hid
          queued_kind := fun _ hid => by cases hid
          members_owned := fun _ _ hb => absurd hb.lt_size (Nat.not_lt_zero _)
          message_kind := fun _ hid => by cases hid
          block_owned := fun _ hb => by cases hb }
      phases :=
        { reached := fun _ hf => by cases hf
          sent := fun _ hs => absurd hs.lt_size (Nat.not_lt_zero _)
          accepted_queued := fun _ hid => by cases hid
          members_queued := fun _ _ hb => absurd hb.lt_size (Nat.not_lt_zero _) }
      completers :=
        { complete := fun id _ => Store.sink_of_size_le (Nat.zero_le id)
          batch := fun _ _ hb => absurd hb.lt_size (Nat.not_lt_zero _)
          target := fun id c hc => by
            rw [Store.sink_of_size_le (Nat.zero_le id)] at hc
            cases hc
          done := fun _ hb => by cases hb
          kept := fun k c hk => by
            rw [Array.getElem?_eq_none (Nat.zero_le k)] at hk
            cases hk
          waits := fun k c hk => by
            rw [Array.getElem?_eq_none (Nat.zero_le k)] at hk
            cases hk } }
  collected := fun t id hid => by
    unfold Connection.collected at hid
    rw [Array.getElem?_eq_none (Nat.zero_le t)] at hid
    cases hid
  recording := fun _ => rfl
  down := fun hd => by cases hd

/-- What was queued at some time counts as accepted from then on. -/
theorem Sound.accept (hs : e.Sound accepted) :
    e.Sound (e.connection.queue.toList ++ accepted) where
  custody := hs.custody.accept fun _ hid => hid
  collected := hs.collected
  recording := hs.recording
  down := hs.down

theorem run_sound {evs : List Event} (hs : e.Sound accepted) (h : e.run evs = some e') :
    e'.Sound accepted :=
  run_induction (fun _ _ _ hs hstep => step_sound hs hstep) h hs

/-- What every step from a sound state preserves holds at the end of a run from one. -/
theorem run_induction_sound {P : Engine → Prop} {evs : List Event} (hs : e.Sound accepted)
    (hstep : ∀ e ev e', e.Sound accepted → P e → e.step ev = some e' → P e')
    (h : e.run evs = some e') (hP : P e) : P e' :=
  (run_induction (P := fun e => e.Sound accepted ∧ P e)
    (fun e ev e' hP h => ⟨step_sound hP.1 h, hstep e ev e' hP.1 hP.2 h⟩) h ⟨hs, hP⟩).2

theorem run_new_sound {config : Config} {evs : List Event} (h : (new config).run evs = some e) :
    e.Sound [] :=
  run_sound (new_sound config) h

/-- The engine with this log for the listener. -/
def listening (e : Engine) (log : EventLog) : Engine :=
  e.withConnection { e.connection with events := log }

theorem Sound.listening (hs : e.Sound accepted) (log : EventLog) :
    (e.listening log).Sound accepted := by
  have hkeeps : Connection.Keeps e.owned accepted e.connection
      { e.connection with events := log } :=
    Connection.keeps_of_eq rfl rfl rfl rfl rfl fun h => h
  exact (hkeeps hs).1

end Engine

end RespMux
