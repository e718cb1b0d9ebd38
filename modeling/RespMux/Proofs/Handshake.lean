import RespMux.Proofs.Engine.Replies
import RespMux.Proofs.Engine.Rounds

/-!
# What the server hears first

A server that wants a password should hear it before anything else. The handshake puts it into the
high lane, in front of the whole standard lane, but behind everything that callers have put into the
high lane before. So the password is the first frame just if nothing in the high lane is left to be
written at that time (`password_first_iff`). One command that a caller has submitted with high
priority before the connection was opened is enough, and the server gets it unauthenticated
(`command_before_password`).
-/

set_option autoImplicit false

namespace RespMux

namespace Engine

variable {accepted : List MessageId} {e e' : Engine} {ev : Event} {id : MessageId}

/-! ## First in line -/

/-- The message has been given up before it was written. -/
def GivenUp (e : Engine) (id : MessageId) : Prop :=
  e.store.phase id = .complete ∧ .message id ∉ e.writer.written

/-- Nothing has been written before the message, as long as this has not been given up. -/
def First (e : Engine) (id : MessageId) : Prop :=
  ∀ f, e.writer.written.head? = some f → f = .message id ∨ e.GivenUp id

/-- Nothing will be written for these messages any more. -/
def Gone (e : Engine) (ids : List MessageId) : Prop :=
  ∀ j ∈ ids, j < e.store.messages.size ∧ e.store.phase j ≠ .notSent

theorem Gone.congr {ids : List MessageId} (h : e.Gone ids)
    (hsize : e.store.messages.size ≤ e'.store.messages.size)
    (hphase : ∀ j < e.store.messages.size,
      e'.store.phase j = e.store.phase j ∨ e'.store.phase j = .complete) : e'.Gone ids := by
  intro j hj
  obtain ⟨hlt, hgone⟩ := h j hj
  refine ⟨Nat.lt_of_lt_of_le hlt hsize, fun hn => ?_⟩
  rcases hphase j hlt with hp | hp
  · exact hgone (hp.symm.trans hn)
  · cases hp.symm.trans hn

/-- Where a message is that nothing in the high lane stands in the way of. -/
inductive Course (id : MessageId) (e : Engine) : Prop where
  /-- it waits, and nothing in front of it will be written -/
  | waits {before after : List MessageId} (hid : e.store.phase id = .notSent)
      (hlane : e.connection.queue.high = before ++ id :: after) (hgone : e.Gone before)
      (hempty : e.writer.written ++ e.writer.buffer = [])
  | givenUp (hid : e.store.phase id = .complete)
      (hnot : .message id ∉ e.writer.written ++ e.writer.buffer)
  | first (hhead : (e.writer.written ++ e.writer.buffer).head? = some (.message id))

theorem Course.isFirst (h : Course id e) : e.First id := by
  intro f hf
  cases h with
  | waits hid hlane hgone hempty =>
      rw [(List.append_eq_nil_iff.mp hempty).1] at hf
      cases hf
  | givenUp hid hnot => exact Or.inr ⟨hid, fun hmem => hnot (List.mem_append_left _ hmem)⟩
  | first hhead =>
      rw [List.head?_append, hf] at hhead
      exact Or.inl (Option.some.inj hhead)

/-- A message that waited still does, in a shorter or longer line, or has been given up. -/
theorem Course.of_lane {before : List MessageId} (hid : e.store.phase id = .notSent)
    (hphase : e'.store.phase id = e.store.phase id ∨ e'.store.phase id = .complete)
    (hgone : e'.Gone before) (hempty : e'.writer.written ++ e'.writer.buffer = [])
    (hlane : e'.store.phase id = .notSent →
      ∃ after, e'.connection.queue.high = before ++ id :: after) : Course id e' := by
  rcases hphase with hp | hp
  · obtain ⟨after, hlane⟩ := hlane (hp.trans hid)
    exact .waits (hp.trans hid) hlane hgone hempty
  · refine .givenUp hp ?_
    rw [hempty]
    exact List.not_mem_nil

/-- A message that has been given up stays so, whatever is written for others. -/
theorem Course.of_givenUp {fs : List InFlight} (hid : e.store.phase id = .complete)
    (hnot : .message id ∉ e.writer.written ++ e.writer.buffer)
    (hphase : e'.store.phase id = e.store.phase id ∨ e'.store.phase id = .complete)
    (htape : e'.writer.written ++ e'.writer.buffer = e.writer.written ++ e.writer.buffer ++ fs)
    (hfs : .message id ∉ fs) : Course id e' := by
  refine .givenUp ?_ ?_
  · rcases hphase with hp | hp
    · exact hp.trans hid
    · exact hp
  · rw [htape, List.mem_append, not_or]
    exact ⟨hnot, hfs⟩

/-- What is written later comes later. -/
theorem Course.of_first {fs : List InFlight}
    (hhead : (e.writer.written ++ e.writer.buffer).head? = some (.message id))
    (htape : e'.writer.written ++ e'.writer.buffer = e.writer.written ++ e.writer.buffer ++ fs) :
    Course id e' := by
  refine .first ?_
  rw [htape, List.head?_append, hhead]
  rfl

/-- As long as the pump does nothing, a message keeps its place in the line or is given up. -/
theorem Course.stay (hc : Course id e) (hs' : e'.Sound accepted) (ha : id ∈ accepted)
    (hlt : id < e.store.messages.size) (hline : e.connection.InLine e'.connection)
    (htape : e'.writer.written ++ e'.writer.buffer = e.writer.written ++ e.writer.buffer) :
    Course id e' := by
  have htape' : e'.writer.written ++ e'.writer.buffer
      = e.writer.written ++ e.writer.buffer ++ [] := by
    rw [htape, List.append_nil]
  cases hc with
  | @waits before after hid hlane hgone hempty =>
      refine .of_lane hid (hline.phase id hlt) (hgone.congr hline.size hline.phase)
        (htape.trans hempty) fun hwaits => ?_
      -- whoever still waits is still in the queue, so this has not been emptied
      have hqueued := hs'.custody.phases.accepted_queued id ha hwaits
      have hopen : e'.connection.isShutDown = false := by
        cases hd : e'.connection.isShutDown with
        | false => rfl
        | true =>
            rw [(hs'.down hd).2.1] at hqueued
            cases hqueued
      obtain ⟨more, hmore⟩ := hline.lane hopen
      refine ⟨after ++ more, ?_⟩
      rw [← hmore, hlane, List.append_assoc]
      rfl
  | givenUp hid hnot => exact .of_givenUp hid hnot (hline.phase id hlt) htape' List.not_mem_nil
  | first hhead => exact .of_first hhead htape'

/-- A round leaves the message, or writes its frame. -/
theorem Handles.course_self {r : Request} (h : Handles id e e') (hr : e.store.Carries id r)
    (hdb : r.db = none) (hid : e.store.phase id = .notSent)
    (hempty : e.writer.written ++ e.writer.buffer = []) : Course id e' := by
  cases h with
  | left hnot hphase hsize hwritten hbuffer =>
      refine .givenUp ?_ ?_
      · exact (hphase id).resolve_left fun hp => hnot (hp.trans hid)
      · rw [hwritten, hbuffer, hempty]
        exact List.not_mem_nil
  | wrote hid hdispatch htape =>
      have hsent : (e.store.markSent id).2.Carries id r :=
        (Store.markSent_sends e.store id).grows.carries hr
      refine .first ?_
      rw [htape, hempty, hdispatch.eq_singleton hsent hdb]
      rfl

/-- A round writes nothing for a message that has been given up. -/
theorem Handles.course_givenUp {x : MessageId} (h : Handles x e e')
    (hlt : id < e.store.messages.size) (hid : e.store.phase id = .complete)
    (hnot : .message id ∉ e.writer.written ++ e.writer.buffer) : Course id e' := by
  cases h with
  | left hx hphase hsize hwritten hbuffer =>
      have htape : e'.writer.written ++ e'.writer.buffer
          = e.writer.written ++ e.writer.buffer ++ [] := by
        rw [hwritten, hbuffer, List.append_nil]
      exact .of_givenUp hid hnot (hphase id) htape List.not_mem_nil
  | wrote hx hdispatch htape =>
      have hne : id ≠ x := by
        rintro rfl
        cases hid.symm.trans hx
      have hsame : (e.store.markSent x).2.phase id = e.store.phase id :=
        Store.phase_congr (Store.markSent_messages_ne (Ne.symm hne))
      have hlt : id < (e.store.markSent x).2.messages.size := by
        rw [Store.markSent_size]
        exact hlt
      refine .of_givenUp hid hnot ?_ htape fun hmem => ?_
      · rcases hdispatch.phase hlt with hp | ⟨hn, -⟩
        · exact Or.inl (hp.trans hsame)
        · cases hid.symm.trans (hsame.symm.trans hn)
      · rcases hdispatch.frames hmem with heq | hle
        · exact hne heq
        · exact absurd hlt (Nat.not_lt.mpr hle)

/-- A round comes one message nearer. -/
theorem Course.round {r : Request} (hc : Course id e) (hs : e.Sound accepted)
    (hr : e.store.Carries id r) (hdb : r.db = none) (h : e.step .round = some e') :
    Course id e' := by
  obtain ⟨x, overtook, q, wakes, hnext, hqueue, -, hhandles⟩ := round_handles hs h
  cases hc with
  | @waits before after hid hlane hgone hempty =>
      cases before with
      | nil =>
          rw [PriorityQueue.next?_high hlane] at hnext
          cases hnext
          exact hhandles.course_self hr hdb hid hempty
      | cons y before =>
          rw [PriorityQueue.next?_high hlane] at hnext
          cases hnext
          cases hhandles with
          | wrote hy => exact absurd hy (hgone x List.mem_cons_self).2
          | left hnot hphase hsize hwritten hbuffer =>
              have hrest : e.Gone before := fun j hj => hgone j (List.mem_cons_of_mem x hj)
              refine .of_lane hid (hphase id) (hrest.congr hsize fun j _ => hphase j) ?_ fun _ => ?_
              · rw [hwritten, hbuffer, hempty]
              · exact ⟨after, by rw [hqueue]; rfl⟩
  | givenUp hid hnot => exact hhandles.course_givenUp hr.isSingle.lt_size hid hnot
  | first hhead =>
      cases hhandles with
      | left hx hphase hsize hwritten hbuffer =>
          refine .first ?_
          rw [hwritten, hbuffer]
          exact hhead
      | wrote hx hdispatch htape => exact .of_first hhead htape

/-- The pump does not come to its end while a message waits. -/
theorem Course.finish (hc : Course id e) (hs : e.Sound accepted)
    (hlt : id < e.store.messages.size) (h : e.step .finish = some e') : Course id e' := by
  have hqueue := step_finish_empty h
  obtain ⟨hf, rfl⟩ := step_finish h
  obtain ⟨hphase, fs, htape, hfs⟩ := finish_frames hs hf
  cases hc with
  | waits hid hlane hgone hempty =>
      -- the pump ends when the queue is empty, and the message is still in it
      unfold PriorityQueue.toList at hqueue
      rw [hlane] at hqueue
      simp at hqueue
  | givenUp hid hnot =>
      exact .of_givenUp hid hnot (hphase id hlt) htape fun hmem =>
        absurd hlt (Nat.not_lt.mpr (hfs id hmem).1)
  | first hhead => exact .of_first hhead htape

theorem step_course {r : Request} (hs : e.Sound accepted) (ha : id ∈ accepted)
    (hr : e.store.Carries id r) (hdb : r.db = none) (hc : Course id e)
    (h : e.step ev = some e') : Course id e' := by
  by_cases hround : ev = .round
  · subst hround
    exact hc.round hs hr hdb h
  by_cases hfinish : ev = .finish
  · subst hfinish
    exact hc.finish hs hr.isSingle.lt_size h
  · exact hc.stay (step_sound hs h) ha hr.isSingle.lt_size (step_inLine hs hround hfinish h)
      (step_tape hs hround hfinish h)

theorem run_course {r : Request} {evs : List Event} (hs : e.Sound accepted) (ha : id ∈ accepted)
    (hr : e.store.Carries id r) (hdb : r.db = none) (hc : Course id e)
    (h : e.run evs = some e') : Course id e' := by
  have hend := run_induction_sound (P := fun e => e.store.Carries id r ∧ Course id e) hs ?_ h
    ⟨hr, hc⟩
  · exact hend.2
  · rintro e ev e' hs ⟨hr, hc⟩ hstep
    exact ⟨(step_grows hs hstep).carries hr, step_course hs ha hr hdb hc hstep⟩

/-! ## Somebody in front -/

/-- The first message of the high lane that waits is written before anything behind it. -/
theorem run_first_waiting {before after : List MessageId} {x : MessageId}
    (hs : e.Sound accepted) (hr : e.Runs) (hwritten : e.writer.written = [])
    (hbuffer : e.writer.buffer = []) (hlane : e.connection.queue.high = before ++ x :: after)
    (hbefore : ∀ j ∈ before, e.store.phase j ≠ .notSent) (hx : e.store.phase x = .notSent) :
    ∃ n e' fs sel, e.run (List.replicate n .round) = some e'
      ∧ Dispatches (e.store.markSent x).2 e.writer.selected x e'.store fs sel
      ∧ e'.writer.written = fs := by
  induction before generalizing e with
  | nil =>
      obtain ⟨overtook, hstep⟩ := step_round_some hr hlane
      have hopen := hs.open_of_not_aborting hr.aborting
      have hready := withQueue_ready hs hr.fault hopen { e.connection.queue with high := after }
      have ha : (e.withQueue { e.connection.queue with high := after }).connection.aborting
          = false := hr.aborting
      obtain ⟨w, s', fs, sel, hdispatch, hemit, heq⟩ := Writer.handle_picked hready ha hx overtook
      have htape : w.written ++ w.buffer = e.writer.written ++ e.writer.buffer ++ fs := hemit.tape
      have hbroken : w.broken = none := by
        obtain ⟨n, rfl⟩ := hemit
        exact hr.broken
      rw [heq] at hstep
      refine ⟨1, _, fs, sel, (run_singleton e .round).trans hstep, ?_, ?_⟩
      · show Dispatches _ _ _ w.flush.connection.store _ _
        rw [Writer.flush_connection, hemit.store]
        exact hdispatch
      · show w.flush.written = fs
        rw [Writer.flush_written hbroken, htape, hwritten, hbuffer]
        rfl
  | cons y before ih =>
      have hlane : e.connection.queue.high = y :: (before ++ x :: after) := hlane
      obtain ⟨overtook, hstep⟩ := step_round_some hr hlane
      have ha : (e.withQueue { e.connection.queue with
          high := before ++ x :: after }).connection.aborting = false := hr.aborting
      have hy := hbefore y List.mem_cons_self
      rw [Writer.handle_skipped ha hy] at hstep
      -- the message has been given up, so that the pump only counts it
      obtain ⟨n, e', fs, sel, hrun, hdispatch, hfs⟩ := ih (step_sound hs hstep)
        ⟨hr.fault, hr.ended, hr.broken, hr.aborting⟩ hwritten hbuffer rfl
        (fun j hj => hbefore j (List.mem_cons_of_mem y hj)) hx
      refine ⟨n + 1, e', fs, sel, ?_, hdispatch, hfs⟩
      rw [List.replicate_succ, run_cons, hstep]
      exact hrun

/-- A message is not the first if another one that waits is in front of it. -/
theorem run_not_first {lane after : List MessageId} (hs : e.Sound accepted) (hr : e.Runs)
    (hwritten : e.writer.written = []) (hbuffer : e.writer.buffer = [])
    (hlane : e.connection.queue.high = lane ++ after) (hid : e.store.phase id = .notSent)
    (hnot : id ∉ lane) (hwaits : ∃ j ∈ lane, e.store.phase j = .notSent) :
    ∃ n e', e.run (List.replicate n .round) = some e' ∧ ¬ e'.First id := by
  -- the pump comes to the first of those that wait
  obtain ⟨x, hfind⟩ : ∃ x, lane.find? (fun j => decide (e.store.phase j = .notSent)) = some x := by
    obtain ⟨j, hj, hp⟩ := hwaits
    exact Option.isSome_iff_exists.mp (List.find?_isSome.mpr ⟨j, hj, decide_eq_true hp⟩)
  obtain ⟨hx, before, behind, rfl, hbefore⟩ := List.find?_eq_some_iff_append.mp hfind
  have hlane : e.connection.queue.high = before ++ x :: (behind ++ after) := by
    rw [hlane, List.append_assoc]
    rfl
  have hgone : ∀ j ∈ before, e.store.phase j ≠ .notSent := fun j hj => by
    simpa using hbefore j hj
  obtain ⟨n, e', fs, sel, hrun, hdispatch, hfs⟩ :=
    run_first_waiting hs hr hwritten hbuffer hlane hgone (of_decide_eq_true hx)
  refine ⟨n, e', hrun, fun hfirst => ?_⟩
  have hne : id ≠ x := by
    rintro rfl
    exact hnot (List.mem_append_right _ List.mem_cons_self)
  have hlt : id < (e.store.markSent x).2.messages.size := by
    rw [Store.markSent_size]
    exact Store.lt_size_of_notSent hid
  obtain ⟨f, rest, rfl⟩ := List.exists_cons_of_ne_nil hdispatch.ne_nil
  have hhead : e'.writer.written.head? = some f := by
    rw [hfs]
    rfl
  rcases hfirst f hhead with rfl | ⟨hcomplete, -⟩
  · rcases hdispatch.frames List.mem_cons_self with heq | hle
    · exact hne heq
    · exact absurd hlt (Nat.not_lt.mpr hle)
  · -- nor has it been given up, for nothing but writing has happened
    have hsame : (e.store.markSent x).2.phase id = e.store.phase id :=
      Store.phase_congr (Store.markSent_messages_ne (Ne.symm hne))
    rcases hdispatch.phase hlt with hp | ⟨-, hp⟩
    · cases hcomplete.symm.trans (hp.trans (hsame.trans hid))
    · cases hcomplete.symm.trans hp

end Engine

/-! ## The handshake -/

namespace Connection

variable {c : Connection}

/-- The connection with one more message at the end of its high lane. -/
def withHigh (c : Connection) (id : MessageId) : Connection :=
  { c with queue := { c.queue with high := c.queue.high ++ [id] } }

theorem enqueue_open (h : c.queue.isClosed = false) (id : MessageId) :
    c.enqueue id .high = some (.ok (c.withHigh id)) := by
  unfold enqueue PriorityQueue.enqueue
  rw [if_neg (by rw [h]; decide)]
  rfl

/-- A request that is submitted with high priority goes to the end of the high lane. -/
theorem submit_open (h : c.queue.isClosed = false) (r : Request) (shape : Shape) :
    (executor .connection).submit { c with store := (c.store.create r).2 } c.store.messages.size
        .high shape
      = some (c.store.completions.size,
        ({ c with store := (c.store.create r).2.attach c.store.messages.size shape }
          : Connection).withHigh c.store.messages.size) := by
  have hempty : ((c.store.create r).2.addCompletion {}).2.sink c.store.messages.size = .empty :=
    c.store.add_sink_self _
  have hassign : ((c.store.create r).2.addCompletion {}).2.assign c.store.messages.size
      ⟨c.store.completions.size, shape⟩
      = .ok (((c.store.create r).2.addCompletion {}).2.modify c.store.messages.size fun m =>
        { m with sink := .assigned ⟨c.store.completions.size, shape⟩ }) := by
    unfold Store.assign
    rw [hempty]
  have henq := enqueue_open
    (c := { c with store := (c.store.create r).2.attach c.store.messages.size shape }) h
    c.store.messages.size
  unfold Executor.submit
  dsimp only
  split
  · next hfails => cases hfails.symm.trans hassign
  · next hassigned =>
    cases hassigned.symm.trans hassign
    split
    · next hwaits => cases hwaits.symm.trans henq
    · next hok =>
      cases hok.symm.trans henq
      rfl
    · next hfails => cases hfails.symm.trans henq

end Connection

namespace Engine

variable {accepted : List MessageId} {e e' e₁ e₂ : Engine} {evs : List Event} {password : String}

/-- The engine when a request has been posted with high priority. -/
def posted (e : Engine) (r : Request) : Engine :=
  (e.made r).withConnection ((e.made r).connection.withHigh e.store.messages.size)

/-- The engine when a request has been submitted with high priority. -/
def submitted (e : Engine) (r : Request) (shape : Shape) : Engine :=
  (e.made r).withConnection
    (({ e.connection with store := (e.store.create r).2.attach e.store.messages.size shape }
      : Connection).withHigh e.store.messages.size)

theorem run_post (h : e.connection.queue.isClosed = false) (r : Request) :
    e.run [.make r, .put .connection e.store.messages.size .high] = some (e.posted r) := by
  have hput := step_put (t := .connection) (e.mem_made r)
    (Connection.enqueue_open (c := (e.made r).connection) h e.store.messages.size)
  rw [run_cons, step_make, Option.bind_some, run_cons]
  exact congrArg (fun x => x.bind fun e' => e'.run []) hput

theorem run_submit (h : e.connection.queue.isClosed = false) (r : Request) (shape : Shape) :
    e.run [.make r, .submit .connection e.store.messages.size .high shape]
      = some (e.submitted r shape) := by
  have hsubmit := step_submit (e.mem_made r) (Connection.submit_open h r shape)
  rw [run_cons, step_make, Option.bind_some, run_cons]
  exact congrArg (fun x => x.bind fun e' => e'.run []) hsubmit

theorem posted_size (e : Engine) (r : Request) :
    (e.posted r).store.messages.size = e.store.messages.size + 1 :=
  e.store.create_size r

theorem posted_phase (e : Engine) (r : Request) {j : MessageId} (hj : j < e.store.messages.size) :
    (e.posted r).store.phase j = e.store.phase j :=
  Store.add_phase_of_lt _ hj

theorem submitted_phase (e : Engine) (r : Request) (shape : Shape) {j : MessageId}
    (hj : j < e.store.messages.size) :
    (e.submitted r shape).store.phase j = e.store.phase j :=
  (Store.attach_phase _ _ j shape).trans (Store.add_phase_of_lt _ hj)

/-- The outgoing pump has not been started, and nobody has closed the connection. -/
structure Startable (e : Engine) : Prop where
  writer : e.writer = { connection := e.connection }
  ended : e.ended = false
  queue : e.connection.queue.isClosed = false
  aborting : e.connection.aborting = false

/-- The handshake of `e` leads to `e₁`, when the password has been queued, and then to `e₂`. -/
structure Opens (password : String) (e e₁ e₂ : Engine) : Prop where
  password : e.run [.make (.auth password), .put .connection e.store.messages.size .high] = some e₁
  ping : e₁.run [.make .handshakePing,
    .submit .connection e₁.store.messages.size .high .integer] = some e₂
  handshake : ∃ k, e.connection.queueHandshake = (.ok k, e₂.connection)

/-- On a connection that has not been closed the handshake is queued without a failure. -/
theorem opens (h : e.connection.queue.isClosed = false)
    (hpassword : e.connection.config.password = some password) :
    Opens password e (e.posted (.auth password))
      ((e.posted (.auth password)).submitted .handshakePing .integer) where
  password := run_post h (.auth password)
  ping := run_submit (e := e.posted (.auth password)) h .handshakePing .integer
  handshake := by
    have henq := Connection.enqueue_open (c := (e.made (.auth password)).connection) h
      e.store.messages.size
    have hpost : e.connection.post (.auth password) .high
        = some (none, (e.posted (.auth password)).connection) := by
      rcases post_cases e.connection (.auth password) .high with
        ⟨hwait, -⟩ | ⟨c, hok, hpost⟩ | ⟨error, herr, -⟩
      · cases hwait.symm.trans henq
      · cases hok.symm.trans henq
        exact hpost
      · cases herr.symm.trans henq
    have hsubmit : (e.posted (.auth password)).connection.submit .connection .handshakePing .high
        .integer = some (_, _) :=
      Connection.submit_open (c := (e.posted (.auth password)).connection) h .handshakePing .integer
    refine ⟨(e.posted (.auth password)).store.completions.size, ?_⟩
    unfold Connection.queueHandshake
    rw [hpassword]
    dsimp only
    rw [hpost]
    dsimp only [Option.getD_some]
    rw [hsubmit]
    rfl

theorem Sound.queued_lt (hs : e.Sound accepted) {j : MessageId} (hj : j ∈ e.connection.queue.high) :
    j < e.store.messages.size :=
  hs.queue_lt (List.mem_append_left _ hj)

/-- Behind messages that have been given up the password is the first. -/
theorem posted_first (hs : e.Sound accepted) (hstart : e.Startable)
    (hgone : ∀ j ∈ e.connection.queue.high, e.store.phase j ≠ .notSent)
    (h : (e.posted (.auth password)).run evs = some e') : e'.First e.store.messages.size := by
  have hs₁ := (run_sound hs (run_post hstart.queue (.auth password))).accept
  have hlane : (e.posted (.auth password)).connection.queue.high
      = e.connection.queue.high ++ e.store.messages.size :: [] := rfl
  have hqueued : e.store.messages.size
      ∈ (e.posted (.auth password)).connection.queue.toList ++ accepted := by
    refine List.mem_append_left _ (List.mem_append_left _ ?_)
    rw [hlane]
    exact List.mem_append_right _ List.mem_cons_self
  have hcarries := e.store.create_carries (.auth password)
  have hcourse : Course e.store.messages.size (e.posted (.auth password)) := by
    refine .waits (e.store.add_phase_self _) hlane (fun j hj => ?_) ?_
    · have hlt := hs.queued_lt hj
      rw [posted_size, posted_phase e _ hlt]
      exact ⟨Nat.lt_succ_of_lt hlt, hgone j hj⟩
    · show e.writer.written ++ e.writer.buffer = []
      rw [hstart.writer]
      rfl
  exact (run_course hs₁ hqueued hcarries rfl hcourse h).isFirst

/-- Behind a message that waits it is not. -/
theorem submitted_not_first (hs : e.Sound accepted) (hstart : e.Startable)
    (hwaits : ∃ j ∈ e.connection.queue.high, e.store.phase j = .notSent) :
    ∃ n e', ((e.posted (.auth password)).submitted .handshakePing .integer).run
        (List.replicate n .round) = some e' ∧ ¬ e'.First e.store.messages.size := by
  have hs₁ := run_sound hs (run_post hstart.queue (.auth password))
  have hs₂ := run_sound hs₁
    (run_submit (e := e.posted (.auth password)) hstart.queue .handshakePing .integer)
  have hruns : ((e.posted (.auth password)).submitted .handshakePing .integer).Runs := by
    refine ⟨?_, hstart.ended, ?_, hstart.aborting⟩
    · exact congrArg Writer.fault hstart.writer
    · exact congrArg Writer.broken hstart.writer
  have hlane : ((e.posted (.auth password)).submitted .handshakePing .integer).connection.queue.high
      = e.connection.queue.high ++ ([e.store.messages.size]
        ++ [(e.posted (.auth password)).store.messages.size]) :=
    List.append_assoc _ _ _
  have hphase : ∀ j < e.store.messages.size + 1,
      ((e.posted (.auth password)).submitted .handshakePing .integer).store.phase j
        = (e.posted (.auth password)).store.phase j := by
    intro j hj
    refine submitted_phase _ _ _ ?_
    rw [posted_size]
    exact hj
  refine run_not_first hs₂ hruns (congrArg Writer.written hstart.writer)
    (congrArg Writer.buffer hstart.writer) hlane ?_ (fun hj => ?_) ?_
  · rw [hphase _ (Nat.lt_succ_self _)]
    exact e.store.add_phase_self _
  · exact absurd (hs.queued_lt hj) (Nat.lt_irrefl _)
  · obtain ⟨j, hj, hp⟩ := hwaits
    have hlt := hs.queued_lt hj
    refine ⟨j, hj, ?_⟩
    rw [hphase j (Nat.lt_succ_of_lt hlt), posted_phase e _ hlt]
    exact hp

/-- In every state in which a connection with a password can be opened: if nothing that waits is in
the high lane, the password is the first frame, whatever callers, the pumps and the server do from
then on, unless it is given up unsent. If something waits there, the pump writes that first. -/
theorem password_first_iff {config : Config} (h : (new config).run evs = some e)
    (hstart : e.Startable) (hpassword : config.password = some password) :
    ∃ e₁ e₂, Opens password e e₁ e₂
      ∧ ((∀ j ∈ e.connection.queue.high, e.store.phase j ≠ .notSent) →
        ∀ evs' e', e₁.run evs' = some e' → e'.First e.store.messages.size)
      ∧ ((∃ j ∈ e.connection.queue.high, e.store.phase j = .notSent) →
        ∃ n e', e₂.run (List.replicate n .round) = some e' ∧ ¬ e'.First e.store.messages.size) := by
  have hs : e.Sound [] := run_new_sound h
  have hpassword : e.connection.config.password = some password := by
    rw [run_config h]
    exact hpassword
  refine ⟨_, _, opens hstart.queue hpassword, ?_, ?_⟩
  · intro hgone evs' e' hrun
    exact posted_first hs hstart hgone hrun
  · exact submitted_not_first hs hstart

/-- A command that has been submitted with high priority before the connection is opened. -/
def commandInFront : List Event :=
  [.make { command := .set, args := [.text "k", .text "w"] }, .put .connection 0 .high,
    .beginOpening]

theorem password_first_iff_commandInFront :
    ∃ e₁ e₂,
      Opens "s3cret" (((new { password := some "s3cret" }).run commandInFront).get (by decide))
        e₁ e₂
      ∧ ∃ n e', e₂.run (List.replicate n .round) = some e' ∧ ¬ e'.First 1 := by
  obtain ⟨e₁, e₂, hopens, -, hnot⟩ := password_first_iff (Option.some_get _).symm
    (⟨rfl, rfl, rfl, rfl⟩ :
      Startable (((new { password := some "s3cret" }).run commandInFront).get (by decide))) rfl
  exact ⟨e₁, e₂, hopens, hnot ⟨0, by decide, rfl⟩⟩

/-- The server gets the command of the caller before the password. -/
theorem command_before_password :
    ∃ e k c e', (new { password := some "s3cret" }).run commandInFront = some e
      ∧ e.connection.queueHandshake = (.ok k, c) ∧ (e.withConnection c).run [.round] = some e'
      ∧ c.store.Carries 1 (.auth "s3cret")
      ∧ e'.writer.written = [.message 0]
      ∧ e'.writer.wire = .ofText "*3\r\n$3\r\nSET\r\n$1\r\nk\r\n$1\r\nw\r\n" :=
  ⟨_, _, _, _, rfl, rfl, rfl, ⟨_, rfl, rfl, rfl, rfl⟩, rfl, rfl⟩

end Engine

end RespMux
