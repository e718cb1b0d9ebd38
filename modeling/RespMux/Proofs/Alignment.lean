import RespMux.Proofs.Engine.Replies

/-!
# Results and their members

A block is answered twice over: each of its frames is acknowledged, and then one array brings the
results of all of them. The acknowledgments are a matter of the frames alone. The array has one
result for each frame between the start and the request to run the block, and the slots say which
message each of them is for.

`block_aligned` follows a batch from the queue to the array. Whatever database the pump takes to be
selected, and whichever members have been cancelled, it writes one block; the slot of each live
member stands at the place of its own frame; and the result at that place is the one that whoever
waits for the member gets.
-/

set_option autoImplicit false

namespace RespMux

/-! ## What is written for a batch -/

/-- A batch is dispatched as a block. -/
theorem Dispatches.of_batch {s s' : Store} {db sel : Option Database} {id : MessageId}
    {ms : List MessageId} {fs : List InFlight} (h : Dispatches s db id s' fs sel)
    (hb : s.IsBatch id ms) :
    ∃ inner slots db', Expands ((s.takeCompleter id).2.issue .multi) db ms s' inner slots db'
      ∧ fs = .message s.messages.size :: inner ++ [.exec ⟨slots, (s.takeCompleter id).1⟩] := by
  have hbody : ∀ m, s.messages[id]? = some m → m.body = .batch ms := by
    intro m hm
    obtain ⟨n, hn, hbody⟩ := hb
    rw [Store.draft?_of_get hm] at hn
    cases hn
    exact hbody
  cases h with
  | plain hm hbatch =>
      rw [Message.members?_of_batch (hbody _ hm)] at hbatch
      cases hbatch
  | choice hm hs =>
      unfold Message.isSelect at hs
      rw [hbody _ hm] at hs
      simp at hs
  | preceded hm hbatch =>
      rw [Message.members?_of_batch (hbody _ hm)] at hbatch
      cases hbatch
  | batch hm hms hexp =>
      obtain rfl := Body.batch.inj ((hbody _ hm).symm.trans hms)
      exact ⟨_, _, _, hexp, rfl⟩

namespace Store

variable {s s' : Store} {db : Option Database} {id multi : MessageId} {ms : List MessageId}
variable {fs : List InFlight} {b : Block}

/-- The batch `id` of the messages `ms`, in the store `s`, has become a block: a start, the frames
`fs` for its members, which begin in the database `db`, and the request to run it. -/
structure Blocks (s s' : Store) (db : Option Database) (id : MessageId) (ms : List MessageId)
    (multi : MessageId) (fs : List InFlight) (b : Block) : Prop where
  start : s'.Carries multi .multi
  layout : ∃ db', Layout s' db (s.live ms) fs b.slots db'
  envelopes : ∀ f ∈ fs, ∃ x inner, f = .message x ∧ s'.IsEnvelope x inner
  /-- the frames are new, and nobody waits for them -/
  fresh : ∀ x, .message x ∈ .message multi :: fs →
    s.messages.size ≤ x ∧ ∀ c, s'.sink x ≠ .assigned c
  /-- the block has the completer of the batch -/
  handed : ∀ c, s.sink id = .assigned c → b.done = some c
  consumed : s'.sink id = .consumed
  /-- apart from that nothing has happened to those who wait -/
  completions : s'.completions = s.completions
  now : s'.now = s.now
  grows : s.Grows s'

/-- Whether a member is live does not depend on what is done for the batch itself. -/
theorem live_congr {ids : List MessageId} (h : ∀ j ∈ ids, s'.phase j = s.phase j) :
    s'.live ids = s.live ids := by
  unfold live
  congr 1
  refine List.filter_congr fun j hj => ?_
  rw [h j hj]

theorem live_start (hms : ∀ j ∈ ms, j ≠ id ∧ j < s.messages.size) :
    (((s.markSent id).2.takeCompleter id).2.issue .multi).live ms = s.live ms := by
  refine live_congr fun j hj => ?_
  obtain ⟨hne, hlt⟩ := hms j hj
  have hlt' : j < ((s.markSent id).2.takeCompleter id).2.messages.size := by
    rw [takeCompleter_size, markSent_size]
    exact hlt
  rw [phase_congr (issue_messages_of_lt _ hlt'), takeCompleter_phase,
    phase_congr (markSent_messages_ne hne.symm)]

/-- The expansion of a batch makes a block of it. -/
theorem blocks_of_expands {db' : Option Database} {slots : List (Option MessageId)}
    (wf : s.WellFormed) (hb : s.IsBatch id ms)
    (hexp : Expands (((s.markSent id).2.takeCompleter id).2.issue .multi) db ms s' fs slots db') :
    s.Blocks s' db id ms s.messages.size fs ⟨slots, ((s.markSent id).2.takeCompleter id).1⟩ := by
  have hsize : ((s.markSent id).2.takeCompleter id).2.messages.size = s.messages.size := by
    rw [takeCompleter_size, markSent_size]
  have hms := wf.member_ne hb
  have hsends := (issue_sends ((s.markSent id).2.takeCompleter id).2 .multi).trans hexp.sends
  have hlayout := hexp.layout fun j hj => by
    rw [issue_size, hsize]
    exact Nat.lt_succ_of_lt (hms j hj).2
  rw [live_start hms] at hlayout
  constructor
  · rw [← hsize]
    exact hexp.sends.grows.carries (issue_carries _ .multi)
  · exact ⟨db', hlayout⟩
  · intro f hf
    obtain ⟨x, inner, hfx, hx, -⟩ := hexp.frames_fresh f hf
    exact ⟨x, inner, hfx, hx⟩
  · intro x hx
    have hle : s.messages.size ≤ x := by
      rcases List.mem_cons.mp hx with hx | hx
      · exact Nat.le_of_eq (InFlight.message.inj hx).symm
      · obtain ⟨y, -, hy, -, hle⟩ := hexp.frames_fresh _ hx
        rw [issue_size, hsize] at hle
        rw [InFlight.message.inj hy]
        exact Nat.le_of_succ_le hle
    exact ⟨hle, fun c => hsends.fresh x c (by rw [hsize]; exact hle)⟩
  · intro c hc
    refine (takeCompleter_fst _ id c).mpr ?_
    rw [markSent_sink]
    exact hc
  · rw [hsends.sink id (by rw [hsize]; exact hb.lt_size)]
    exact takeCompleter_sink_self _ id
  · rw [hsends.completions, takeCompleter_completions, markSent_completions]
  · rw [hsends.now, takeCompleter_now, markSent_now]
  · have htaken : (s.markSent id).2.Grows ((s.markSent id).2.takeCompleter id).2 :=
      .of_draft? (takeCompleter_draft? _ id)
    exact (markSent_sends s id).grows.trans (htaken.trans hsends.grows)

end Store

/-! ## Acknowledgments -/

/-- The word that a request expects passes as it is. -/
theorem Request.judge_status {q : Request} {l : Literal} (h : q.expected = some l) :
    q.judge (.status l.bytes) = .status l.bytes := by
  unfold judge
  rw [h]
  simp [Reply.expect, Reply.payload?]

namespace Store

theorem Carries.judge_ok {s : Store} {id : MessageId} (h : s.Carries id .multi) :
    ((s.requestOf id).judge (.status Literal.ok.bytes)).isError = false := by
  rw [h.requestOf, Request.judge_status rfl]
  rfl

theorem WellFormed.judge_queued {s : Store} (wf : s.WellFormed) {id inner : MessageId}
    (h : s.IsEnvelope id inner) :
    ((s.requestOf id).judge (.status Literal.queued.bytes)).isError = false := by
  obtain ⟨m, hm, hb⟩ := h
  obtain ⟨i, -, -, hrequest, -⟩ := wf.envelope id m inner hm hb
  rw [requestOf_of_draft? hm, hrequest, Request.judge_status rfl]
  rfl

end Store

/-- Whatever an answer to a frame in flight reaches is reached by the failure of the frame. -/
theorem Custody.touched_reach {owned accepted queued : List MessageId} {frames : List InFlight}
    {s : Store} (h : Custody owned accepted queued frames s) {f : InFlight} (hf : f ∈ frames)
    (r : Reply) : ∀ j ∈ s.touched f r, j ∈ s.reach f := by
  intro j hj
  cases f with
  | exec b => exact hj
  | message id =>
      unfold Store.touched at hj
      dsimp only at hj
      split at hj
      · exact hj
      · obtain rfl := List.mem_singleton.mp hj
        show j ∈ s.scopeOf j
        rcases h.kinds.message_kind j hf with hs | ⟨inner, he⟩
        · rw [h.wellFormed.scopeOf_single hs]
          exact List.mem_singleton_self j
        · rw [h.wellFormed.scopeOf_envelope he]
          exact List.mem_cons_of_mem inner (List.mem_singleton_self j)

namespace Store

variable {s s' : Store} {db : Option Database} {id multi : MessageId} {ms : List MessageId}
variable {fs : List InFlight} {b : Block}

/-- The frames before the end of a block are messages, and their acknowledgments are no errors. -/
theorem Blocks.ack (h : s.Blocks s' db id ms multi fs b) {s₁ : Store} (hg : s'.Grows s₁)
    (wf : s₁.WellFormed) {f : InFlight} {r : Reply}
    (hf : f = .message multi ∧ r = .status Literal.ok.bytes
      ∨ f ∈ fs ∧ r = .status Literal.queued.bytes) :
    ∃ x, f = .message x ∧ s.messages.size ≤ x ∧ ((s₁.requestOf x).judge r).isError = false := by
  rcases hf with ⟨rfl, rfl⟩ | ⟨hf, rfl⟩
  · exact ⟨multi, rfl, (h.fresh multi List.mem_cons_self).1, (hg.carries h.start).judge_ok⟩
  · obtain ⟨x, inner, rfl, hx⟩ := h.envelopes f hf
    exact ⟨x, rfl, (h.fresh x (List.mem_cons_of_mem _ hf)).1,
      wf.judge_queued (hg.isEnvelope hx)⟩

end Store

namespace Engine

variable {accepted : List MessageId} {e e' : Engine} {evs : List Event}
variable {id multi : MessageId} {ms : List MessageId} {fs : List InFlight} {b : Block}

/-- The engine with a pump that takes the database `db` to be selected. -/
def tracking (e : Engine) (db : Option Database) : Engine :=
  { e with writer := { e.writer with selected := db } }

/-- From `e` to `e'` a block has been written for the batch `id` of the messages `ms`, in one piece,
and recorded in the ledger. -/
structure WritesBlock (e e' : Engine) (id : MessageId) (ms : List MessageId) (multi : MessageId)
    (fs : List InFlight) (b : Block) : Prop where
  store : e.store.Blocks e'.store e.writer.selected id ms multi fs b
  ledger : e'.connection.ledger.entries
    = e.connection.ledger.entries ++ (.message multi :: fs ++ [.exec b])
  tape : e'.writer.written ++ e'.writer.buffer
    = e.writer.written ++ e.writer.buffer ++ (.message multi :: fs ++ [.exec b])

/-- The pump writes a block for the next batch in the queue. -/
theorem round_writes_block (hs : e.Sound accepted)
    (hnext : (e.connection.queue.next?).map (fun x => x.1.1) = some id)
    (hb : e.store.IsBatch id ms) (hp : e.store.phase id = .notSent)
    (ha : e.connection.aborting = false) (hstep : e.step .round = some e') :
    ∃ multi fs b, WritesBlock e e' id ms multi fs b := by
  obtain ⟨i, overtook, q, wakes, hq, hf, rfl⟩ := step_round hstep
  rw [hq] at hnext
  obtain rfl : i = id := by simpa using hnext
  have hready := withQueue_ready hs hf (hs.next_open hq) q
  obtain ⟨w, s', fs, sel, hdispatch, hemit, heq⟩ := Writer.handle_picked hready ha hp overtook
  obtain ⟨inner, slots, db, hexp, rfl⟩ :=
    hdispatch.of_batch ((Store.markSent_sends e.store i).grows.isBatch hb)
  have hstore : ((e.withQueue q).handle i overtook).connection.store = s' := by
    rw [heq, Writer.flush_connection, hemit.store]
  rw [Store.markSent_size] at hemit
  refine ⟨e.store.messages.size, inner, ⟨slots, ((e.store.markSent i).2.takeCompleter i).1⟩,
    ?_, ?_, ?_⟩
  · show e.store.Blocks ((e.withQueue q).handle i overtook).connection.store _ _ _ _ _ _
    rw [hstore]
    exact Store.blocks_of_expands hs.custody.wellFormed hb hexp
  · show ((e.withQueue q).handle i overtook).connection.ledger.entries = _
    rw [heq, Writer.flush_connection, hemit.entries]
    rfl
  · show ((e.withQueue q).handle i overtook).written
      ++ ((e.withQueue q).handle i overtook).buffer = _
    rw [heq, Writer.flush_all]
    exact hemit.tape

/-- Whatever has happened in between: the acknowledgment of a frame before the end of the block
keeps the connection alive, and is nothing to those who wait for a message that was there before the
block. -/
theorem WritesBlock.ack (h : WritesBlock e e' id ms multi fs b) (hs : e'.Sound accepted)
    {e₁ : Engine} {f : InFlight} {rest : List InFlight} {r : Reply}
    (hrun : e'.run evs = some e₁) (ha : e₁.Alive)
    (hentries : e₁.connection.ledger.entries = f :: rest)
    (hf : f = .message multi ∧ r = .status Literal.ok.bytes
      ∨ f ∈ fs ∧ r = .status Literal.queued.bytes) :
    ∃ e₂, e₁.step (.reply r) = some e₂ ∧ e₂.Alive
      ∧ ∀ j < e.store.messages.size, e₂.store.messages[j]? = e₁.store.messages[j]?
        ∧ ∀ (k : CompletionId) c, e₁.store.completions[k]? = some c → c.target = some j →
          e₂.store.completions[k]? = some c := by
  have hs₁ := run_sound hs hrun
  obtain ⟨x, rfl, hle, hack⟩ := h.store.ack (run_grows hs hrun) hs₁.custody.wellFormed hf
  obtain ⟨e₂, hstep, ha₂, -, hstore⟩ := ha.acknowledged hentries hack
  refine ⟨e₂, hstep, ha₂, fun j hj => ?_⟩
  have hbatch : ∀ ms, ¬ e₁.store.IsBatch x ms :=
    hs₁.custody.message_not_batch (hentries ▸ List.mem_cons_self)
  have hresolves : e₁.store.Resolves (fun _ => True) (e₁.store.touched (.message x) r) [] _ :=
    Store.answer_touches hs₁.custody.wellFormed hbatch r
  rw [Store.touched_of_ack hack] at hresolves
  rw [hstore]
  have hne : x ≠ j := fun heq => Nat.lt_irrefl j (Nat.lt_of_lt_of_le hj (heq ▸ hle))
  refine ⟨hresolves.messages j (by simpa using hne.symm), fun k c hk ht => ?_⟩
  refine hresolves.apart hk (fun i hi sh hsink => ?_) List.not_mem_nil
  rw [List.mem_singleton.mp hi] at hsink
  exact hne (hs₁.custody.target_of_sink hk ht hsink)

/-! ## From the queue to the results -/

/-- What the server sends for a block with `q` frames between its start and its end. -/
def blockReplies (q : Nat) (rs : List Reply) : List Reply :=
  .status Literal.ok.bytes :: (List.replicate q (.status Literal.queued.bytes) ++ [.multi rs])

/-- The frames of a block before its end, each with its acknowledgment. -/
def acknowledgments (multi : MessageId) (fs : List InFlight) : List (InFlight × Reply) :=
  (.message multi, .status Literal.ok.bytes)
    :: fs.map fun f => (f, .status Literal.queued.bytes)

theorem acknowledgments_frames (multi : MessageId) (fs : List InFlight) :
    (acknowledgments multi fs).map Prod.fst = .message multi :: fs := by
  unfold acknowledgments
  rw [List.map_cons, List.map_map]
  exact congrArg _ (List.map_id fs)

theorem blockReplies_events (multi : MessageId) (fs : List InFlight) (rs : List Reply) :
    (blockReplies fs.length rs).map Event.reply
      = ((acknowledgments multi fs).map fun x => .reply x.2) ++ [.reply (.multi rs)] := by
  have hqueued : (List.replicate fs.length (.status Literal.queued.bytes)).map Event.reply
      = (fs.map fun f => (f, Reply.status Literal.queued.bytes)).map fun x => Event.reply x.2 := by
    rw [List.map_replicate, List.map_map]
    exact List.map_const'.symm
  unfold blockReplies acknowledgments
  rw [List.map_cons, List.map_append, hqueued]
  rfl

theorem mem_acknowledgments {x : InFlight × Reply} (hx : x ∈ acknowledgments multi fs) :
    x.1 = .message multi ∧ x.2 = .status Literal.ok.bytes
      ∨ x.1 ∈ fs ∧ x.2 = .status Literal.queued.bytes := by
  rcases List.mem_cons.mp hx with rfl | hx
  · exact Or.inl ⟨rfl, rfl⟩
  · obtain ⟨f, hf, rfl⟩ := List.mem_map.mp hx
    exact Or.inr ⟨hf, rfl⟩

/-- The frames in front of the end of a block, each with its reply: `olds` for those that were in
flight already, and the acknowledgments of the block. -/
def acknowledged (e : Engine) (olds : List Reply) (multi : MessageId) (fs : List InFlight) :
    List (InFlight × Reply) :=
  e.connection.ledger.entries.zip olds ++ acknowledgments multi fs

theorem mem_acknowledged {olds : List Reply} {x : InFlight × Reply}
    (hx : x ∈ e.acknowledged olds multi fs) :
    x.1 ∈ e.connection.ledger.entries
      ∨ (x.1 = .message multi ∧ x.2 = .status Literal.ok.bytes
        ∨ x.1 ∈ fs ∧ x.2 = .status Literal.queued.bytes) :=
  (List.mem_append.mp hx).imp (fun hx => (List.of_mem_zip hx).1) mem_acknowledgments

/-- These replies reach no message that was there before the block, but for those that were in
flight. -/
theorem WritesBlock.untouched (h : WritesBlock e e' id ms multi fs b) (hs : e.Sound accepted)
    (hs' : e'.Sound accepted) {olds : List Reply} {j : MessageId}
    (hlt : j < e.store.messages.size)
    (hj : ∀ f ∈ e.connection.ledger.entries, j ∉ e.store.reach f) :
    j ∉ (e.acknowledged olds multi fs).flatMap fun x => e'.store.touched x.1 x.2 := by
  intro hmem
  obtain ⟨⟨f, r⟩, hx, hjx⟩ := List.mem_flatMap.mp hmem
  rcases mem_acknowledged hx with hf | hack
  · have hf' : f ∈ e'.connection.ledger.entries := by
      rw [h.ledger]
      exact List.mem_append_left _ hf
    have hreach := hs'.custody.touched_reach hf' r j hjx
    rw [show e'.connection.store.reach f = e.store.reach f from
      hs.custody.reach_grows h.store.grows hf] at hreach
    exact hj f hf hreach
  · obtain ⟨y, hy, hle, hjudge⟩ := h.store.ack (.refl _) hs'.custody.wellFormed hack
    obtain rfl : f = .message y := hy
    have hjy : j ∈ [y] := Store.touched_of_ack hjudge ▸ hjx
    obtain rfl := List.mem_singleton.mp hjy
    exact Nat.lt_irrefl j (Nat.lt_of_lt_of_le hlt hle)

/-- So whoever waits for a message that had not been picked up still waits after them, provided that
the message was not reached by what was in flight, or has lost its completer to the block. -/
theorem WritesBlock.kept (h : WritesBlock e e' id ms multi fs b) (hs : e.Sound accepted)
    (hs' : e'.Sound accepted) {olds : List Reply} {e₁ : Engine}
    (hresolves : e'.store.Resolves (fun _ => True)
      ((e.acknowledged olds multi fs).flatMap fun x => e'.store.touched x.1 x.2)
      ((e.acknowledged olds multi fs).flatMap fun x => x.1.own) e₁.store)
    {j : MessageId} (hp : e.store.phase j = .notSent)
    (hj : (∀ f ∈ e.connection.ledger.entries, j ∉ e.store.reach f) ∨ e'.store.sink j = .consumed)
    {k : CompletionId} {c : Completion} (hk : e.store.completions[k]? = some c)
    (ht : c.target = some j) : e₁.store.completions[k]? = some c := by
  have hk' : e'.store.completions[k]? = some c := by
    rw [h.store.completions]
    exact hk
  have hlt := Store.lt_size_of_notSent hp
  refine hresolves.apart hk' (fun i hi sh hsink => ?_) fun hown => ?_
  · obtain rfl := hs'.custody.target_of_sink hk' ht hsink
    rcases hj with hreach | hconsumed
    · exact h.untouched hs hs' hlt hreach hi
    · rw [hconsumed] at hsink
      cases hsink
  · obtain ⟨⟨f, r⟩, hx, hkx⟩ := List.mem_flatMap.mp hown
    rcases mem_acknowledged hx with hf | hack
    · cases f with
      | message x => cases hkx
      | exec b' => exact (hs.target_of_done hf hk ht hkx).2.2 hp
    · obtain ⟨y, hy, -⟩ := h.store.ack (.refl _) hs'.custody.wellFormed hack
      obtain rfl : f = .message y := hy
      cases hkx

/-- From `e` to `e'` a block has been written for the batch `id` of the messages `ms`, and in `e₂`
it has been answered with the array `rs`. -/
structure Answered (e e' e₂ : Engine) (id : MessageId) (ms : List MessageId) (b : Block)
    (rs : List Reply) : Prop where
  /-- whoever waited for a member gets the result in the slot of that member -/
  member : ∀ (i : Nat) j r, b.slots[i]? = some (some j) → rs[i]? = some r →
    ∀ (k : CompletionId) c, e.store.completions[k]? = some c → c.target = some j → c.Waits →
      ∃ m sh d, e'.store.messages[j]? = some m ∧ m.sink = .assigned ⟨k, sh⟩
        ∧ e₂.store.completions[k]? = some d
        ∧ d.stage = .delivered (m.outcome e.store.now r sh)
  /-- whoever had the outcome of a member, that it was cancelled for instance, still has it -/
  cancelled : ∀ j ∈ ms, e.store.phase j = .complete → ∀ (k : CompletionId) c,
    e.store.completions[k]? = some c → c.target = some j → e₂.store.completions[k]? = some c
  /-- whoever waited for the batch gets to know that it has been run -/
  batch : ∀ (k : CompletionId) c, e.store.completions[k]? = some c → c.target = some id →
    c.Waits → ∃ d, e₂.store.completions[k]? = some d ∧ d.stage = .delivered (.ok .unit)

theorem WritesBlock.members (h : WritesBlock e e' id ms multi fs b) :
    b.members = e.store.live ms := by
  obtain ⟨db, hlayout⟩ := h.store.layout
  exact hlayout.members

theorem WritesBlock.length (h : WritesBlock e e' id ms multi fs b) :
    fs.length = b.slots.length := by
  obtain ⟨db, hlayout⟩ := h.store.layout
  exact hlayout.length

theorem WritesBlock.nodup (h : WritesBlock e e' id ms multi fs b) : b.members.Nodup := by
  rw [h.members]
  exact e.store.live_nodup ms

/-- The slot of a live member is at the place of its own frame. -/
theorem WritesBlock.position (h : WritesBlock e e' id ms multi fs b) {j : MessageId}
    (hj : j ∈ e.store.live ms) :
    ∃ (i : Nat) (x : MessageId), b.slots[i]? = some (some j) ∧ fs[i]? = some (.message x)
      ∧ e'.store.IsEnvelope x j := by
  rw [← h.members] at hj
  obtain ⟨slot, hslot, hsome⟩ := List.mem_filterMap.mp hj
  obtain rfl : slot = some j := hsome
  obtain ⟨i, hi⟩ := List.getElem?_of_mem hslot
  obtain ⟨db, hlayout⟩ := h.store.layout
  obtain ⟨x, hx, henvelope⟩ := hlayout.position hi
  exact ⟨i, x, hi, hx, henvelope⟩

/-- When nothing comes in between, the acknowledgments of the block lead from a connection that is
alive to the array. -/
theorem WritesBlock.reaches_array (h : WritesBlock e e' id ms multi fs b) (hs' : e'.Sound accepted)
    {olds : List Reply} {e₀ : Engine} (holds : olds.length = e.connection.ledger.entries.length)
    (hrun : e'.run (olds.map .reply) = some e₀) (ha : e₀.Alive) :
    ∃ e₁, e₀.run ((acknowledgments multi fs).map fun x => .reply x.2) = some e₁ ∧ e₁.Alive
      ∧ e₁.Sound accepted ∧ e₁.connection.ledger.entries = [.exec b]
      ∧ e'.store.Resolves (fun _ => True)
        ((e.acknowledged olds multi fs).flatMap fun x => e'.store.touched x.1 x.2)
        ((e.acknowledged olds multi fs).flatMap fun x => x.1.own) e₁.store := by
  have hfst : (e.connection.ledger.entries.zip olds).map Prod.fst = e.connection.ledger.entries :=
    List.map_fst_zip (Nat.le_of_eq holds.symm)
  have hsnd : (e.connection.ledger.entries.zip olds).map (fun x => Event.reply x.2)
      = olds.map .reply := by
    conv_rhs => rw [← List.map_snd_zip (Nat.le_of_eq holds), List.map_map]
    rfl
  have hledger : e'.connection.ledger.entries
      = (e.connection.ledger.entries.zip olds).map Prod.fst
        ++ ((acknowledgments multi fs).map Prod.fst ++ [.exec b]) := by
    rw [hfst, acknowledgments_frames]
    exact h.ledger
  -- what was in flight before the block
  rw [← hsnd] at hrun
  obtain ⟨hs₀, hentries₀, holder⟩ := run_replies hs' hledger hrun ha.up
  -- its own frames
  obtain ⟨e₁, hacks, ha₁⟩ := ha.acknowledged_all hentries₀ fun x hx => by
    obtain ⟨y, hy, -, hjudge⟩ :=
      h.store.ack (.of_draft? holder.draft?) hs₀.custody.wellFormed (mem_acknowledgments hx)
    exact ⟨y, hy, hjudge⟩
  have hall : e'.run ((e.acknowledged olds multi fs).map fun x => .reply x.2) = some e₁ := by
    unfold acknowledged
    rw [List.map_append, run_append, hrun]
    exact hacks
  have hframes : e'.connection.ledger.entries
      = (e.acknowledged olds multi fs).map Prod.fst ++ [.exec b] := by
    unfold acknowledged
    rw [List.map_append, List.append_assoc]
    exact hledger
  exact ⟨e₁, hacks, ha₁, run_replies hs' hframes hall ha₁.up⟩

/-- Then everybody who waited has the outcome in the end, whatever the results are. -/
theorem WritesBlock.answered (h : WritesBlock e e' id ms multi fs b) (hs : e.Sound accepted)
    (hs' : e'.Sound accepted) (hb : e.store.IsBatch id ms) (hp : e.store.phase id = .notSent)
    {olds rs : List Reply} {e₀ : Engine} (holds : olds.length = e.connection.ledger.entries.length)
    (hrs : rs.length = fs.length) (hrun : e'.run (olds.map .reply) = some e₀) (ha : e₀.Alive) :
    ∃ e₂, e₀.run ((blockReplies fs.length rs).map .reply) = some e₂
      ∧ Answered e e' e₂ id ms b rs := by
  obtain ⟨e₁, hacks, ha₁, hs₁, hentries₁, hresolves⟩ := h.reaches_array hs' holds hrun ha
  obtain ⟨e₂, hlast⟩ := exists_step_reply ha₁.reading (.multi rs)
  have hblock : e₀.run ((blockReplies fs.length rs).map .reply) = some e₂ := by
    rw [blockReplies_events multi, run_append, hacks]
    exact (run_singleton _ _).trans hlast
  refine ⟨e₂, hblock, ?_⟩
  have hgives := hs₁.gives_out hentries₁ (hrs.trans h.length) h.nodup hlast
  have hnow : e₁.store.now = e.store.now := hresolves.now.trans h.store.now
  constructor
  · -- a live member: nothing before the array reaches it
    intro i j r hi hr k c hk ht hw
    have hmem : j ∈ e.store.live ms := by
      rw [← h.members]
      exact List.mem_filterMap.mpr ⟨some j, List.mem_of_getElem? hi, rfl⟩
    obtain ⟨hjms, hpj⟩ := Store.mem_live.mp hmem
    have hj := hs.custody.kinds.members_owned id ms hb j hjms
    have hreach : ∀ f ∈ e.connection.ledger.entries, j ∉ e.store.reach f := fun f hf hjf =>
      hs.custody.phases.reached f hf j hjf hj hpj
    have hlt := (hs.custody.kinds.owned_single j hj).lt_size
    have huntouched :
        j ∉ (e.acknowledged olds multi fs).flatMap fun x => e'.store.touched x.1 x.2 :=
      h.untouched hs hs' hlt hreach
    obtain ⟨m, hm⟩ : ∃ m, e'.store.messages[j]? = some m := by
      obtain ⟨n, hn, -⟩ := (h.store.grows.isSingle (hs.custody.kinds.owned_single j hj))
      obtain ⟨m, hm, -⟩ := Store.exists_get_of_draft? hn
      exact ⟨m, hm⟩
    have hm₁ : e₁.store.messages[j]? = some m := (hresolves.messages j huntouched).trans hm
    have hk₁ := h.kept hs hs' hresolves hpj (Or.inl hreach) hk ht
    obtain ⟨sh, hsink, hd⟩ := hgives.member i j r m hi hr hm₁ k c hk₁ ht hw
    rw [hnow] at hd
    exact ⟨m, sh, _, hm, hsink, hd, Completion.deliver_stage hw _⟩
  · -- a member that was complete already: nobody waits for it any more
    intro j hj hpj k c hk ht
    have hsingle := hs.custody.wellFormed.member_single hb j hj
    have hwaits : ¬ c.Waits := by
      intro hw
      obtain ⟨sh, hsink⟩ := hs.custody.sink_of_waits hsingle.not_isBatch hk ht hw
      cases hsink.symm.trans (hs.custody.completers.complete j hpj)
    have hk' : e'.store.completions[k]? = some c := by
      rw [h.store.completions]
      exact hk
    exact hgives.others k c (hresolves.completion_of_not_waits hk' hwaits) hwaits
  · -- the batch itself: its completer is in the block
    intro k c hk ht hw
    have hk₁ := h.kept hs hs' hresolves hp (Or.inr h.store.consumed) hk ht
    have hdone : b.done = some ⟨k, .unit⟩ := by
      obtain ⟨i, sh, hi, hsink | ⟨ms', b', hb', hf, hd⟩⟩ := hs.custody.completers.waits k c hk hw
      · cases hi.symm.trans ht
        have hshape : sh = .unit := (hs.custody.completers.target id _ hsink).2 ms hb
        rw [← hshape]
        exact h.store.handed _ hsink
      · -- a batch that has not been picked up is not in flight
        have hown : k ∈ InFlight.own (.exec b') := by
          rw [InFlight.own_exec, hd]
          exact List.mem_singleton_self k
        exact absurd hp (hs.target_of_done hf hk ht hown).2.2
    exact ⟨_, hgives.batch k c hdone hk₁, Completion.deliver_stage hw _⟩

/-- From `e` to `e'` a block has been written for the batch `id` of the messages `ms`, and its
results are those of its members. -/
structure Aligned (e e' : Engine) (id : MessageId) (ms : List MessageId) (multi : MessageId)
    (fs : List InFlight) (b : Block) : Prop where
  block : WritesBlock e e' id ms multi fs b
  /-- each live member has one slot, in order, and it is at the place of its own frame -/
  members : b.members = e.store.live ms
  once : b.members.Nodup
  positions : ∀ j ∈ e.store.live ms, ∃ (i : Nat) (x : MessageId), b.slots[i]? = some (some j)
    ∧ fs[i]? = some (.message x) ∧ e'.store.IsEnvelope x j
  /-- whatever has happened in between, an acknowledgment keeps the connection alive and is nothing
  to the messages that were there before -/
  acks : ∀ evs e₁ f rest r, e'.run evs = some e₁ → e₁.Alive →
    e₁.connection.ledger.entries = f :: rest →
    (f = .message multi ∧ r = .status Literal.ok.bytes
      ∨ f ∈ fs ∧ r = .status Literal.queued.bytes) →
    ∃ e₂, e₁.step (.reply r) = some e₂ ∧ e₂.Alive
      ∧ ∀ j < e.store.messages.size, e₂.store.messages[j]? = e₁.store.messages[j]?
        ∧ ∀ (k : CompletionId) c, e₁.store.completions[k]? = some c → c.target = some j →
          e₂.store.completions[k]? = some c
  /-- and the array that finds it alive is given out slot by slot, also if one of the results ends
  the connection -/
  results : ∀ evs e₁ rest rs, e'.run evs = some e₁ → e₁.Alive →
    e₁.connection.ledger.entries = .exec b :: rest → rs.length = fs.length →
    ∃ e₂, e₁.step (.reply (.multi rs)) = some e₂ ∧ GivesOut e₁ e₂ b rs
  /-- so once the replies to what was in flight before have left it alive, everybody has the outcome
  when those to the block have come -/
  answered : ∀ (olds rs : List Reply) e₀, olds.length = e.connection.ledger.entries.length →
    rs.length = fs.length → e'.run (olds.map .reply) = some e₀ → e₀.Alive →
    ∃ e₂, e₀.run ((blockReplies fs.length rs).map .reply) = some e₂
      ∧ Answered e e' e₂ id ms b rs

/-- In every state that a run can reach, and whatever database the pump takes to be selected, the
next batch in the queue is written as a block whose results are those of its members. -/
theorem block_aligned {config : Config} (h : (new config).run evs = some e) (db : Option Database)
    (hnext : (e.connection.queue.next?).map (fun x => x.1.1) = some id)
    (hb : e.store.IsBatch id ms) (hp : e.store.phase id = .notSent)
    (ha : e.connection.aborting = false) (hstep : (e.tracking db).step .round = some e') :
    ∃ multi fs b, Aligned (e.tracking db) e' id ms multi fs b := by
  have hsound : e.Sound [] := run_new_sound h
  have hs : (e.tracking db).Sound [] := hsound
  have hs' := step_sound hs hstep
  obtain ⟨multi, fs, b, hblock⟩ := round_writes_block hs hnext hb hp ha hstep
  refine ⟨multi, fs, b, hblock, hblock.members, hblock.nodup, fun j hj => hblock.position hj,
    ?_, ?_, ?_⟩
  · intro evs e₁ f rest r hrun ha hentries hf
    exact hblock.ack hs' hrun ha hentries hf
  · intro evs e₁ rest rs hrun ha hentries hlen
    obtain ⟨e₂, hreply⟩ := exists_step_reply ha.reading (.multi rs)
    exact ⟨e₂, hreply,
      (run_sound hs' hrun).gives_out hentries (hlen.trans hblock.length) hblock.nodup hreply⟩
  · intro olds rs e₀ holds hrs hrun ha
    exact hblock.answered hs hs' hb hp holds hrs hrun ha

/-- A transaction with commands for another database, one of which is cancelled, around a choice of
a third one. -/
def mixed : List Event :=
  [.make { command := .get, db := some 5, args := [.text "k"] },
   .make { command := .set, db := some 5, args := [.text "k", .text "v"] },
   .make (.select 7), .make { command := .get, db := some 5, args := [.text "x"] },
   .newTransaction, .submit (.transaction 0) 0 .standard .text,
   .submit (.transaction 0) 1 .standard .unit, .submit (.transaction 0) 2 .standard .unit,
   .submit (.transaction 0) 3 .standard .text, .cancel 1, .execute 0 .standard]

/-- The choice is refused, the rest is accepted. -/
def mixedResults : List Reply :=
  [.status Literal.ok.bytes, .bulk (some [118]), .error "ERR DB index is out of range",
   .status Literal.ok.bytes, .bulk (some [119])]

/-- The slots of the members are apart, since the pump has put choices between them. The refused
choice ends the connection, and all members have their own results. -/
theorem block_aligned_mixed :
    ∃ e e' multi fs b e₂, (new {}).run mixed = some e
      ∧ (e.tracking (some 0)).step .round = some e'
      ∧ Aligned (e.tracking (some 0)) e' 4 [0, 1, 2, 3] multi fs b
      ∧ b.slots = [none, some 0, some 2, none, some 3]
      ∧ e'.run ((blockReplies 5 mixedResults).map .reply) = some e₂
      ∧ Answered (e.tracking (some 0)) e' e₂ 4 [0, 1, 2, 3] b mixedResults
      ∧ e₂.connection.isShutDown = true := by
  have hrun : (new {}).run mixed = some (((new {}).run mixed).get (by decide)) :=
    (Option.some_get _).symm
  have hstep : ((((new {}).run mixed).get (by decide)).tracking (some 0)).step .round
      = some (((((new {}).run mixed).get (by decide)).tracking (some 0)).step .round |>.get
        (by decide)) := (Option.some_get _).symm
  have hbatch : (((new {}).run mixed).get (by decide)).store.IsBatch 4 [0, 1, 2, 3] := ⟨_, rfl, rfl⟩
  obtain ⟨multi, fs, b, h⟩ :=
    block_aligned hrun (some 0) (by decide) hbatch (by decide) (by decide) hstep
  have hslots : b.slots = [none, some 0, some 2, none, some 3] := by
    have hlast := congrArg List.getLast? h.block.ledger
    rw [List.getLast?_append, List.getLast?_concat, Option.some_or] at hlast
    obtain rfl := InFlight.exec.inj (Option.some.inj hlast)
    rfl
  have hlength : fs.length = 5 := by
    rw [h.block.length, hslots]
    rfl
  obtain ⟨e₂, hreplies, hanswered⟩ :=
    h.answered [] mixedResults _ rfl hlength.symm rfl ⟨rfl, rfl⟩
  rw [hlength] at hreplies
  refine ⟨_, _, multi, fs, b, e₂, hrun, hstep, h, hslots,
    hreplies, hanswered, ?_⟩
  have hdown : e₂ = _ := Option.some.inj (hreplies.symm.trans rfl)
  rw [hdown]
  rfl

end Engine

end RespMux
