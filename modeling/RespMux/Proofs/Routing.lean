import RespMux.Proofs.Engine.Replies
import RespMux.Proofs.Routing.Backend

/-!
# Every command reaches its database

The pump keeps track of the database that the server has selected. What it believes is right
whenever no block is open (`Backend.Follows`), or it believes nothing: after a block with a choice
of a database it cannot know whether the block has been run.

Each thing that the pump writes keeps this up (`Dispatches.follows`), whether blocks are run or
aborted. Inside a block the commands follow the choices of the block itself (`Layout.follows`), for
if the block is run at all, all of it is. So no command is executed in a database it was not meant
for.
-/

set_option autoImplicit false

namespace RespMux

/-! ## The commands of frames -/

namespace Store

variable {s s' : Store} {f : InFlight} {fs : List InFlight} {x : Sent} {id : MessageId}
variable {m : Message}

/-- The database that a frame is meant for. -/
def targetOf (s : Store) : InFlight → Option Database
  | .message id => (s.requestOf id).db
  | .exec _ => none

/-- A frame as the server receives it. -/
def sent? (s : Store) (f : InFlight) : Option Sent :=
  (s.frameOf? f).map fun frame => ⟨frame, s.targetOf f⟩

def sent (s : Store) (fs : List InFlight) : List Sent := fs.filterMap s.sent?

theorem sent_append (s : Store) (fs fs' : List InFlight) :
    s.sent (fs ++ fs') = s.sent fs ++ s.sent fs' :=
  List.filterMap_append

theorem sent_cons (h : s.sent? f = some x) (fs : List InFlight) :
    s.sent (f :: fs) = x :: s.sent fs :=
  List.filterMap_cons_some h

theorem sent_singleton (h : s.sent? f = some x) : s.sent [f] = [x] := sent_cons h []

/-- What has been written stays as it is. -/
theorem Grows.sent? (h : s.Grows s') (hf : s.sent? f = some x) : s'.sent? f = some x := by
  obtain ⟨frame, hframe, rfl⟩ := Option.map_eq_some_iff.mp hf
  have htarget : s'.targetOf f = s.targetOf f := by
    cases f with
    | exec b => rfl
    | message id =>
        obtain ⟨m, hm, -⟩ := Option.bind_eq_some_iff.mp hframe
        show (s'.requestOf id).db = (s.requestOf id).db
        rw [requestOf_of_draft? hm, requestOf_of_draft? (h id m hm)]
  unfold Store.sent?
  rw [h.frameOf? hframe, htarget]
  rfl

theorem Grows.sent (h : s.Grows s') (hfs : ∀ f ∈ fs, ∃ x, s.sent? f = some x) :
    s'.sent fs = s.sent fs := by
  induction fs with
  | nil => rfl
  | cons f fs ih =>
      obtain ⟨x, hx⟩ := hfs f List.mem_cons_self
      rw [sent_cons hx, sent_cons (h.sent? hx), ih fun g hg => hfs g (List.mem_cons_of_mem f hg)]

/-- A single message is the command of its request. -/
theorem WellFormed.sent?_single (wf : s.WellFormed) (hm : s.draft? id = some m)
    (hb : m.body = .single) : s.sent? (.message id) = some m.request.sent := by
  have hframe : s.frameOf? (.message id) = some m.request.frame :=
    Option.bind_eq_some_iff.mpr ⟨m, hm, (wf.single id m hm hb).1⟩
  have htarget : s.targetOf (.message id) = m.request.db := by
    show (s.requestOf id).db = _
    rw [requestOf_of_draft? hm]
  unfold sent?
  rw [hframe, htarget]
  rfl

theorem Carries.sent? {r : Request} (h : s.Carries id r) : s.sent? (.message id) = some r.sent := by
  have hrequest := h.requestOf
  obtain ⟨m, hm, -, -, hframe⟩ := h
  have hframe' : s.frameOf? (.message id) = some r.frame :=
    Option.bind_eq_some_iff.mpr ⟨m, hm, hframe⟩
  have htarget : s.targetOf (.message id) = r.db := by
    show (s.requestOf id).db = _
    rw [hrequest]
  unfold Store.sent?
  rw [hframe', htarget]
  rfl

/-- An envelope is the command of the message inside. -/
theorem WellFormed.sent?_envelope (wf : s.WellFormed) {e : MessageId} (he : s.IsEnvelope e id)
    (hm : s.draft? id = some m) : s.sent? (.message e) = some m.request.sent := by
  obtain ⟨n, hn, hb⟩ := he
  obtain ⟨i, hi, hsingle, hrequest, hframe, -⟩ := wf.envelope e n id hn hb
  cases hm.symm.trans hi
  have hframe' : s.frameOf? (.message e) = some m.request.frame :=
    Option.bind_eq_some_iff.mpr ⟨n, hn, hframe.trans (wf.single id m hm hsingle).1⟩
  have htarget : s.targetOf (.message e) = m.request.db := by
    have hdb : n.request.db = m.request.db := by
      rw [hrequest]
      rfl
    show (s.requestOf e).db = _
    rw [requestOf_of_draft? hn]
    exact hdb
  unfold sent?
  rw [hframe', htarget]
  rfl

theorem sent?_exec (s : Store) (b : Block) : s.sent? (.exec b) = some ⟨⟨.exec, []⟩, none⟩ := rfl

end Store

/-- What is in flight is some command. -/
theorem Custody.sent? {owned accepted queued : List MessageId} {frames : List InFlight}
    {s : Store} (h : Custody owned accepted queued frames s) {f : InFlight} (hf : f ∈ frames) :
    ∃ x, s.sent? f = some x := by
  obtain ⟨frame, hframe⟩ := h.frameOf? hf
  refine ⟨⟨frame, s.targetOf f⟩, ?_⟩
  unfold Store.sent?
  rw [hframe]
  rfl

theorem Message.isSelect_of_single {m : Message} (hb : m.body = .single) :
    m.isSelect = true ↔ m.request.command = .select := by
  unfold isSelect
  rw [hb]
  simp

/-! ## Blocks -/

/-- The message is a command that a caller may send. -/
def Store.Asks (s : Store) (id : MessageId) : Prop :=
  ∃ m, s.draft? id = some m ∧ m.body = .single ∧ m.request.Routable

theorem Store.Grows.asks {s s' : Store} (h : s.Grows s') {id : MessageId} (ha : s.Asks id) :
    s'.Asks id := by
  obtain ⟨m, hm, hrest⟩ := ha
  exact ⟨m, h id m hm, hrest⟩

theorem Store.WellFormed.choice_sent? {s : Store} (wf : s.WellFormed) {e id : MessageId}
    {d : Database} (he : s.IsEnvelope e id) (hc : s.Carries id (.select d)) :
    s.sent? (.message e) = some (Request.select d).sent := by
  obtain ⟨m, hm, -, hrequest, -⟩ := hc
  rw [wf.sent?_envelope he hm, hrequest]

namespace Layout

variable {s : Store} {db db' : Option Database} {ids : List MessageId} {fs : List InFlight}
variable {slots : List (Option MessageId)}

/-- Inside of a block there is no other. -/
theorem plain (h : Layout s db ids fs slots db') (wf : s.WellFormed)
    (hids : ∀ j ∈ ids, s.Asks j) : ∀ c ∈ s.sent fs, c.frame.IsPlain := by
  induction h with
  | nil db =>
      intro c hc
      cases hc
  | stays hm hstay he rest ih =>
      obtain ⟨n, hn, -, hr⟩ := hids _ List.mem_cons_self
      cases hm.symm.trans hn
      rw [Store.sent_cons (wf.sent?_envelope he hm)]
      intro c hc
      rcases List.mem_cons.mp hc with rfl | hc
      · exact hr.1
      · exact ih (fun j hj => hids j (List.mem_cons_of_mem _ hj)) c hc
  | @moves _ _ _ _ _ _ _ _ _ _ d hm hd hne hs hchoice hce he rest ih =>
      obtain ⟨n, hn, -, hr⟩ := hids _ List.mem_cons_self
      cases hm.symm.trans hn
      rw [Store.sent_cons (wf.choice_sent? hce hchoice), Store.sent_cons (wf.sent?_envelope he hm)]
      intro c hc
      rcases List.mem_cons.mp hc with rfl | hc
      · exact (Request.select_routable d).1
      rcases List.mem_cons.mp hc with rfl | hc
      · exact hr.1
      · exact ih (fun j hj => hids j (List.mem_cons_of_mem _ hj)) c hc

/-- A block that is run takes the server from the database in which it begins to that in which it
ends, and each of its commands finds the server where it should. -/
theorem follows (h : Layout s db ids fs slots db') (wf : s.WellFormed)
    (hids : ∀ j ∈ ids, s.Asks j) {t : Backend} (ht : t.Follows db) :
    ((s.sent fs).foldl Backend.execute t).Follows db' := by
  induction h generalizing t with
  | nil db => exact ht
  | stays hm hstay he rest ih =>
      obtain ⟨n, hn, hb, hr⟩ := hids _ List.mem_cons_self
      cases hm.symm.trans hn
      rw [Store.sent_cons (wf.sent?_envelope he hm)]
      refine ih (fun j hj => hids j (List.mem_cons_of_mem _ hj)) (ht.execute hr fun d hd => ?_)
      exact (hstay d hd).imp_right (Message.isSelect_of_single hb).mp
  | @moves _ _ _ _ _ _ _ _ _ m d hm hd hne hs hchoice hce he rest ih =>
      obtain ⟨n, hn, hb, hr⟩ := hids _ List.mem_cons_self
      cases hm.symm.trans hn
      rw [Store.sent_cons (wf.choice_sent? hce hchoice), Store.sent_cons (wf.sent?_envelope he hm)]
      have hmoved := ht.execute (Request.select_routable d) fun _ _ => Or.inr rfl
      have hmember := hmoved.execute hr fun d' hd' => Or.inl (hd.symm.trans hd')
      rw [hd] at hmember
      exact ih (fun j hj => hids j (List.mem_cons_of_mem _ hj)) hmember

end Layout

/-! ## Everything that is written for a message -/

/-- A batch is written as a block, which is run as a whole or not at all. -/
theorem Expands.follows {s s' : Store} {db db' sel : Option Database} {ids : List MessageId}
    {fs : List InFlight} {slots : List (Option MessageId)} {multi : MessageId}
    (h : Expands s db ids s' fs slots db') (wf : s'.WellFormed) (hids : ∀ j ∈ ids, s.Asks j)
    (hmulti : s.Carries multi .multi) (hsel : sel = none ∨ sel = db ∧ db' = db)
    {t : Backend} (ht : t.Follows db) (runs : Nat → Bool) (done : Option Completer) :
    (t.feed runs (s'.sent (.message multi :: fs ++ [.exec ⟨slots, done⟩]))).Follows sel := by
  have hgrows := h.sends.grows
  have hlayout := h.layout fun j hj => by
    obtain ⟨m, hm, -⟩ := hids j hj
    exact Store.lt_size_of_draft? hm
  have hlive : ∀ j ∈ s.live ids, s'.Asks j := fun j hj =>
    hgrows.asks (hids j (Store.mem_live.mp hj).1)
  have hrun := hlayout.follows wf hlive (ht.withEnded (t.ended + 1))
  rw [Store.sent_append, Store.sent_cons (hgrows.carries hmulti).sent?,
    Store.sent_singleton (s'.sent?_exec _),
    Backend.feed_block ht.block rfl (hlayout.plain wf hlive) rfl]
  rcases hsel with rfl | ⟨rfl, rfl⟩
  · split
    · exact hrun.forget
    · exact (ht.withEnded _).forget
  · split
    · exact hrun
    · exact ht.withEnded _

/-- Whatever the pump writes for a message, afterwards the server is where it is believed to be. -/
theorem Dispatches.follows {s s' : Store} {db sel : Option Database} {id : MessageId}
    {fs : List InFlight} (h : Dispatches s db id s' fs sel) (wf : s'.WellFormed)
    (hask : s.Asks id ∨ ∃ ms, s.IsBatch id ms ∧ ∀ j ∈ ms, s.Asks j)
    {t : Backend} (ht : t.Follows db) (runs : Nat → Bool) :
    (t.feed runs (s'.sent fs)).Follows sel := by
  -- a message that is no batch was made by a caller
  have hsingle : ∀ m, s.messages[id]? = some m → m.members? = none →
      s.draft? id = some m.draft ∧ m.body = .single ∧ m.request.Routable := by
    intro m hm hb
    have hdraft := Store.draft?_of_get hm
    rcases hask with ⟨n, hn, hbody, hr⟩ | ⟨ms, ⟨n, hn, hbody⟩, -⟩
    · cases hdraft.symm.trans hn
      exact ⟨hdraft, hbody, hr⟩
    · cases hdraft.symm.trans hn
      have hmembers : m.members? = some ms := Message.members?_of_batch hbody
      rw [hmembers] at hb
      cases hb
  cases h with
  | @plain m hm hb hs hdb =>
      obtain ⟨hdraft, hbody, hr⟩ := hsingle m hm hb
      -- the message names no database, or the selected one
      have hreceived := ht.receive runs hr fun d hd => Or.inl (hdb d hd)
      have hstays : m.request.db.or db = db := by
        cases hd : m.request.db with
        | none => rfl
        | some d => exact (hdb d hd).symm
      rw [Store.sent_singleton (wf.sent?_single hdraft hbody)]
      rw [hstays] at hreceived
      exact hreceived
  | @choice m hm hs =>
      have hb : m.members? = none := Message.members?_of_isSelect hs
      obtain ⟨hdraft, hbody, hr⟩ := hsingle m hm hb
      have hselect := (Message.isSelect_of_single hbody).mp hs
      have hreceived := ht.receive runs hr fun _ _ => Or.inr hselect
      obtain ⟨d, hd⟩ := hr.2 hselect
      have hdb : m.request.db = some d := congrArg Request.db hd
      rw [Store.sent_singleton (wf.sent?_single hdraft hbody)]
      rw [hdb] at hreceived ⊢
      exact hreceived
  | @preceded m d hm hb hs hd hne =>
      obtain ⟨hdraft, hbody, hr⟩ := hsingle m hm hb
      have hdraft' := (s.issue_sends (.select d)).grows id _ hdraft
      -- the choice of the database moves the server before the message comes
      have hmoved := ht.receive runs (Request.select_routable d) fun _ _ => Or.inr rfl
      have hreceived := hmoved.receive runs hr fun d' hd' => Or.inl (hd.symm.trans hd')
      rw [Store.sent_cons (s.issue_carries (.select d)).sent?,
        Store.sent_singleton (wf.sent?_single hdraft' hbody)]
      rw [hd] at hreceived
      exact hreceived
  | @batch m ms _ fs slots _ _ hm hb hexp hsel =>
      have hbatch : s.IsBatch id ms := ⟨m.draft, Store.draft?_of_get hm, hb⟩
      have hmembers : ∀ j ∈ ms, s.Asks j := by
        rcases hask with ⟨n, hn, hbody, -⟩ | ⟨ms', hb', hms'⟩
        · exact absurd hbatch (Store.IsSingle.not_isBatch ⟨n, hn, hbody⟩ ms)
        · rw [hbatch.unique hb']
          exact hms'
      have htaken : s.Grows (s.takeCompleter id).2 := .of_draft? (s.takeCompleter_draft? id)
      have hgrows := htaken.trans (Store.issue_sends _ .multi).grows
      have hmulti := Store.issue_carries (s.takeCompleter id).2 .multi
      rw [Store.takeCompleter_size] at hmulti
      exact hexp.follows wf (fun j hj => hgrows.asks (hmembers j hj)) hmulti hsel ht runs _

namespace Engine

variable {accepted : List MessageId} {e e' : Engine} {ev : Event} {evs : List Event}
variable {fs : List InFlight}

/-! ## What callers ask for -/

/-- All messages of callers are commands that a caller may send. -/
def Asks (e : Engine) : Prop := ∀ id ∈ e.owned, e.store.Asks id

theorem new_asks (config : Config) : (new config).Asks := by
  intro id hid
  cases hid

theorem step_asks (hs : e.Sound accepted) (h : e.step ev = some e')
    (hr : ∀ r, ev = .make r → r.Routable) (ha : e.Asks) : e'.Asks := by
  rcases step_owned h with howned | ⟨r, rfl, rfl⟩
  · intro id hid
    rw [howned] at hid
    exact (step_grows hs h).asks (ha id hid)
  · intro id hid
    rcases List.mem_cons.mp hid with rfl | hid
    · obtain ⟨m, hm, hb, hrequest, -⟩ := e.store.create_carries r
      refine ⟨m, hm, hb, ?_⟩
      rw [hrequest]
      exact hr r rfl
    · exact (e.store.create_sends r).grows.asks (ha id hid)

/-! ## What the server receives -/

/-- The server when it has received everything that the pump has written or buffered. -/
def backend (e : Engine) (runs : Nat → Bool) : Backend :=
  ({} : Backend).feed runs (e.store.sent e.tape)

/-- The next round is for a message that still has to be sent. -/
structure Picks (e : Engine) (id : MessageId) : Prop where
  next : (e.connection.queue.next?).map (fun x => x.1.1) = some id
  phase : e.store.phase id = .notSent
  aborting : e.connection.aborting = false

theorem Picks.queued {id : MessageId} (h : e.Picks id) : id ∈ e.connection.queue.toList := by
  obtain ⟨⟨⟨_, overtook⟩, q, wakes⟩, hq, rfl⟩ := Option.map_eq_some_iff.mp h.next
  rw [PriorityQueue.next?_toList hq]
  exact List.mem_cons_self

/-- A round writes nothing, or whatever the next message leads to. -/
theorem round_tape (hs : e.Sound accepted) (h : e.step .round = some e') :
    (e'.tape = e.tape ∧ e'.writer.selected = e.writer.selected)
      ∨ ∃ id fs, e.Picks id
        ∧ Dispatches (e.store.markSent id).2 e.writer.selected id e'.store fs e'.writer.selected
        ∧ e'.tape = e.tape ++ fs ∧ ∀ f ∈ fs, f ∈ e'.connection.ledger.entries := by
  obtain ⟨id, overtook, q, wakes, hq, hf, rfl⟩ := step_round h
  have hready := withQueue_ready hs hf (hs.next_open hq) q
  have hnext : (e.connection.queue.next?).map (fun x => x.1.1) = some id := by rw [hq]; rfl
  cases ha : (e.withQueue q).connection.aborting with
  | true =>
      -- an abort makes the message fail, and nothing is written
      have heq : (e.withQueue q).handle id overtook = _ := Writer.handle_aborting ha overtook
      refine Or.inl ⟨?_, ?_⟩
      · show ((e.withQueue q).handle id overtook).written
          ++ ((e.withQueue q).handle id overtook).buffer = _
        rw [heq]
        rfl
      · show ((e.withQueue q).handle id overtook).selected = _
        rw [heq]
        rfl
  | false =>
      by_cases hp : (e.withQueue q).connection.store.phase id = .notSent
      · obtain ⟨w, s', fs, sel, hdispatch, hemit, heq⟩ :=
          Writer.handle_picked hready ha hp overtook
        have hstore : ((e.withQueue q).handle id overtook).connection.store = s' := by
          rw [heq, Writer.flush_connection, hemit.store]
        have hselected : ((e.withQueue q).handle id overtook).selected = sel := by
          rw [heq, Writer.flush_selected, hemit.selected]
        refine Or.inr ⟨id, fs, ⟨hnext, hp, ha⟩, ?_, ?_, ?_⟩
        · show Dispatches _ _ _ ((e.withQueue q).handle id overtook).connection.store _
            ((e.withQueue q).handle id overtook).selected
          rw [hstore, hselected]
          exact hdispatch
        · show ((e.withQueue q).handle id overtook).written
            ++ ((e.withQueue q).handle id overtook).buffer = _
          rw [heq, Writer.flush_all]
          exact hemit.tape
        · intro f hfs
          show f ∈ ((e.withQueue q).handle id overtook).connection.ledger.entries
          rw [heq, Writer.flush_connection, hemit.entries]
          exact List.mem_append_right _ hfs
      · -- a message that is complete already is passed over
        have heq := Writer.handle_skipped ha hp overtook
        refine Or.inl ⟨?_, ?_⟩
        · show ((e.withQueue q).handle id overtook).written
            ++ ((e.withQueue q).handle id overtook).buffer = _
          rw [heq]
          rfl
        · show ((e.withQueue q).handle id overtook).selected = _
          rw [heq]
          rfl

/-- The end of the pump writes nothing, or the good-bye. -/
theorem finish_tape (hs : e.Sound accepted) (h : e.step .finish = some e') :
    e'.writer.selected = e.writer.selected
      ∧ (e'.tape = e.tape
        ∨ ∃ id, e'.store.Carries id .quit ∧ e'.tape = e.tape ++ [.message id]) := by
  obtain ⟨hf, rfl⟩ := step_finish h
  cases ha : e.connection.aborting with
  | true =>
      -- no good-bye after an abort
      have heq := finish_aborting hf ha
      refine ⟨?_, Or.inl ?_⟩
      · show e.writer.finish.selected = _
        rw [heq]
      · show e.writer.finish.written ++ e.writer.finish.buffer = _
        rw [heq]
        rfl
  | false =>
      obtain ⟨w, hemit, heq, hsound⟩ := finish_emits hs hf ha
      have hflushed : Sound accepted { e with writer := w.flush, ended := true } := hsound
      obtain ⟨-, hrests⟩ := settle_rests hflushed
      have hstore : w.flush.connection.store = e.store.issue .quit := by
        rw [Writer.flush_connection, hemit.store]
      rw [heq]
      refine ⟨?_, Or.inr ⟨e.store.messages.size, ?_, ?_⟩⟩
      · rw [hrests.selected]
        show w.flush.selected = _
        rw [Writer.flush_selected, hemit.selected]
      · refine hrests.continues.grows.carries ?_
        show Store.Carries w.flush.connection.store e.store.messages.size .quit
        rw [hstore]
        exact e.store.issue_carries .quit
      · show w.flush.settle.written ++ w.flush.settle.buffer = _
        rw [show w.flush.settle.written = w.flush.written from hrests.written,
          show w.flush.settle.buffer = w.flush.buffer from hrests.buffer, Writer.flush_all]
        exact hemit.tape

/-- What has been written are commands, and whichever blocks are run, the server is where the pump
believes it to be. -/
structure Routes (e : Engine) : Prop where
  framed : ∀ f ∈ e.tape, ∃ x, e.store.sent? f = some x
  follows : ∀ runs, (e.backend runs).Follows e.writer.selected

/-- More may be written if the server follows it. -/
theorem Routes.extend (h : Routes e) (hgrows : e.store.Grows e'.store)
    (htape : e'.tape = e.tape ++ fs) (hframed : ∀ f ∈ fs, ∃ x, e'.store.sent? f = some x)
    (hfollows : ∀ runs (t : Backend), t.Follows e.writer.selected →
      (t.feed runs (e'.store.sent fs)).Follows e'.writer.selected) : Routes e' where
  framed f hf := by
    rw [htape] at hf
    rcases List.mem_append.mp hf with hf | hf
    · obtain ⟨x, hx⟩ := h.framed f hf
      exact ⟨x, hgrows.sent? hx⟩
    · exact hframed f hf
  follows runs := by
    unfold backend
    rw [htape, Store.sent_append, hgrows.sent h.framed, Backend.feed_append]
    exact hfollows runs _ (h.follows runs)

theorem Routes.rest (h : Routes e) (hgrows : e.store.Grows e'.store) (htape : e'.tape = e.tape)
    (hselected : e'.writer.selected = e.writer.selected) : Routes e' := by
  have hnothing : e'.tape = e.tape ++ [] := by
    rw [List.append_nil]
    exact htape
  refine h.extend hgrows hnothing (fun f hf => by cases hf) fun runs t ht => ?_
  rw [hselected]
  exact ht

/-- A round keeps the server where it is believed to be. -/
theorem round_routes (hs : e.Sound accepted) (h : e.step .round = some e') (ha : e.Asks)
    (hr : Routes e) : Routes e' := by
  have hgrows := step_grows hs h
  have hs' := step_sound hs h
  rcases round_tape hs h with ⟨htape, hselected⟩ | ⟨id, fs, hpicks, hdispatch, htape, hfs⟩
  · exact hr.rest hgrows htape hselected
  · have hpicked := (Store.markSent_sends e.store id).grows
    have hask : (e.store.markSent id).2.Asks id
        ∨ ∃ ms, (e.store.markSent id).2.IsBatch id ms
          ∧ ∀ j ∈ ms, (e.store.markSent id).2.Asks j := by
      rcases hs.custody.kinds.queued_kind id hpicks.queued with ho | ⟨ms, hb⟩
      · exact Or.inl (hpicked.asks (ha id ho))
      · have hmembers := hs.custody.kinds.members_owned id ms hb
        exact Or.inr ⟨ms, hpicked.isBatch hb, fun j hj => hpicked.asks (ha j (hmembers j hj))⟩
    refine hr.extend hgrows htape (fun f hf => hs'.custody.sent? (hfs f hf)) fun runs t ht => ?_
    exact hdispatch.follows hs'.custody.wellFormed hask ht runs

/-- So does every step. -/
theorem step_routes (hs : e.Sound accepted) (h : e.step ev = some e') (ha : e.Asks)
    (hr : Routes e) : Routes e' := by
  have hgrows := step_grows hs h
  cases hq : ev.isQuiet with
  | true =>
      obtain ⟨-, hrests⟩ := step_quiet hs hq h
      exact hr.rest hgrows hrests.tape hrests.selected
  | false =>
      cases ev with
      | round => exact round_routes hs h ha hr
      | finish =>
          obtain ⟨hselected, htape | ⟨id, hquit, htape⟩⟩ := finish_tape hs h
          · exact hr.rest hgrows htape hselected
          · refine hr.extend hgrows htape (fun f hf => ?_) fun runs t ht => ?_
            · rw [List.mem_singleton.mp hf]
              exact ⟨_, hquit.sent?⟩
            · rw [Store.sent_singleton hquit.sent?, hselected]
              exact ht.receive runs Request.quit_routable fun d hd => by cases hd
      | reply r =>
          obtain ⟨-, -, ⟨-, hrests⟩ | ⟨f, -, htakes⟩⟩ := reply_takes hs h
          · exact hr.rest hgrows hrests.tape hrests.selected
          · exact hr.rest hgrows htakes.tape htakes.selected
      | _ => cases hq

theorem new_routes (config : Config) : Routes (new config) where
  framed f hf := by cases hf
  follows runs :=
    { block := rfl
      db := fun d hd => Option.some.inj hd
      routed := fun x hx => by cases hx }

theorem run_routes {config : Config} (h : (new config).run evs = some e)
    (hr : ∀ r, .make r ∈ evs → r.Routable) : Routes e := by
  have hall := run_induction_mem (P := fun e => e.Sound [] ∧ e.Asks ∧ Routes e) ?_ h
    ⟨new_sound config, new_asks config, new_routes config⟩
  · exact hall.2.2
  · rintro e ev e' hev ⟨hs, ha, hroutes⟩ hstep
    refine ⟨step_sound hs hstep, step_asks hs hstep (fun r hmake => hr r (hmake ▸ hev)) ha, ?_⟩
    exact step_routes hs hstep ha hroutes

/-! ## Every command in its database -/

/-- Whatever part of its commands the server has received, and whichever blocks it has run. -/
structure Routed (e : Engine) (runs : Nat → Bool) : Prop where
  /-- a command other than a choice was executed in the database that its message is meant for -/
  executed : ∀ seen, seen <+: e.tape → ∀ c db,
    (c, db) ∈ (({} : Backend).feed runs (e.store.sent seen)).executed →
      c.frame.command ≠ .select → ∀ d, c.target = some d → db = d
  /-- between messages and blocks no block is open -/
  closed : (e.backend runs).block = none
  /-- and a database that is believed to be selected is selected -/
  boundary : ∀ d, e.writer.selected = some d → (e.backend runs).db = d

/-- If callers leave the blocks to the pump, and choose databases as it is meant, then in every run
each command is executed in its database. -/
theorem commands_routed {config : Config} (h : (new config).run evs = some e)
    (hr : ∀ r, .make r ∈ evs → r.Routable) (runs : Nat → Bool) : Routed e runs := by
  have hfollows := (run_routes h hr).follows runs
  refine ⟨?_, hfollows.block, hfollows.db⟩
  rintro seen ⟨rest, hrest⟩ c db hmem hne d hd
  -- what has been executed by then stays in the log
  have hlog : (e.backend runs).executed
      = ((({} : Backend).feed runs (e.store.sent seen)).feed runs (e.store.sent rest)).executed := by
    unfold backend
    rw [← hrest, Store.sent_append, Backend.feed_append]
  refine hfollows.routed (c, db) ?_ hne d hd
  rw [hlog]
  exact (Backend.feed_executed runs _ (e.store.sent rest)).subset hmem

theorem commands_routed_twoCommands :
    Routed (((new {}).run twoCommands).get (by decide)) (fun _ => true) := by
  refine commands_routed (Option.some_get _).symm (fun r hr => ?_) _
  have hmade : r = { command := .get, db := some 1, args := [.text "k"] }
      ∨ r = { command := .incr, args := [.text "n"] } := by simpa [twoCommands] using hr
  rcases hmade with rfl | rfl
  · exact ⟨⟨by decide, by decide, by decide⟩, fun h => by cases h⟩
  · exact ⟨⟨by decide, by decide, by decide⟩, fun h => by cases h⟩

end Engine

end RespMux
