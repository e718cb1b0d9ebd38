import RespMux.Proofs.Custody.Moves
import RespMux.Proofs.Outgoing.Block

/-!
# One round of the outgoing pump

`Dispatches` lists the four things that can be written for a message that has been picked up: the
message alone, a choice of a database that a caller made, the message after a choice of its
database, or the block of a batch. `handle_picked` says that the pump does one of them and flushes.

The custody is kept in each of the four cases. Between picking a message up and recording it the
pump holds it in hand, and that counts as in flight.
-/

set_option autoImplicit false

namespace RespMux

/-- With the store `s` and the database `db`, the message `id` leads to the frames `fs`, and to a
new store and a new selected database. -/
inductive Dispatches (s : Store) (db : Option Database) (id : MessageId) :
    Store → List InFlight → Option Database → Prop where
  | plain {m : Message} (hm : s.messages[id]? = some m) (hb : m.members? = none)
      (hs : m.isSelect = false) (hdb : ∀ d, m.request.db = some d → db = some d) :
      Dispatches s db id s [.message id] db
  | choice {m : Message} (hm : s.messages[id]? = some m) (hs : m.isSelect = true) :
      Dispatches s db id s [.message id] m.request.db
  | preceded {m : Message} {d : Database} (hm : s.messages[id]? = some m)
      (hb : m.members? = none) (hs : m.isSelect = false) (hd : m.request.db = some d)
      (hne : db ≠ some d) :
      Dispatches s db id (s.issue (.select d)) [.message s.messages.size, .message id] (some d)
  | batch {m : Message} {ms : List MessageId} {s' : Store} {fs : List InFlight}
      {slots : List (Option MessageId)} {db' sel : Option Database}
      (hm : s.messages[id]? = some m) (hb : m.body = .batch ms)
      (hexp : Expands ((s.takeCompleter id).2.issue .multi) db ms s' fs slots db')
      (hsel : sel = none ∨ sel = db ∧ db' = db) :
      Dispatches s db id s'
        (.message s.messages.size :: fs ++ [.exec ⟨slots, (s.takeCompleter id).1⟩]) sel

theorem Message.members?_of_batch {m : Message} {ms : List MessageId} (h : m.body = .batch ms) :
    m.members? = some ms := by
  unfold Message.members?
  rw [h]

theorem Message.batch_of_members? {m : Message} {ms : List MessageId}
    (h : m.members? = some ms) : m.body = .batch ms := by
  unfold Message.members? at h
  split at h
  · next hb =>
    cases h
    exact hb
  · cases h

/-- A choice of a database is no batch. -/
theorem Message.members?_of_isSelect {m : Message} (h : m.isSelect = true) : m.members? = none := by
  unfold isSelect at h
  unfold members?
  split
  · next hb =>
    rw [hb] at h
    simp at h
  · rfl

theorem Dispatches.grows {s s' : Store} {db sel : Option Database} {id : MessageId}
    {fs : List InFlight} (h : Dispatches s db id s' fs sel) : s.Grows s' := by
  cases h with
  | plain => exact .refl s
  | choice => exact .refl s
  | preceded => exact (s.issue_sends _).grows
  | batch hm hb hexp hsel =>
      have htaken : s.Grows (s.takeCompleter id).2 := .of_draft? (s.takeCompleter_draft? id)
      exact htaken.trans ((Store.issue_sends _ .multi).grows.trans hexp.sends.grows)

/-- What is written does not become complete by that. -/
theorem Dispatches.phase {s s' : Store} {db sel : Option Database} {id j : MessageId}
    {fs : List InFlight} (h : Dispatches s db id s' fs sel) (hj : j < s.messages.size) :
    s'.phase j = s.phase j ∨ (s.phase j = .notSent ∧ s'.phase j = .sent) := by
  cases h with
  | plain => exact Or.inl rfl
  | choice => exact Or.inl rfl
  | preceded => exact (s.issue_sends _).phase j hj
  | batch hm hb hexp hsel =>
      have hsize : j < (s.takeCompleter id).2.messages.size := by
        rw [Store.takeCompleter_size]
        exact hj
      have hsends := ((Store.issue_sends _ .multi).trans hexp.sends).phase j hsize
      rw [Store.takeCompleter_phase] at hsends
      exact hsends

/-- Each frame is for the message itself or for one of the pump. -/
theorem Dispatches.frames {s s' : Store} {db sel : Option Database} {id j : MessageId}
    {fs : List InFlight} (h : Dispatches s db id s' fs sel) (hj : .message j ∈ fs) :
    j = id ∨ s.messages.size ≤ j := by
  cases h with
  | plain =>
      cases List.mem_singleton.mp hj
      exact Or.inl rfl
  | choice =>
      cases List.mem_singleton.mp hj
      exact Or.inl rfl
  | preceded =>
      rcases List.mem_cons.mp hj with heq | hj
      · cases heq
        exact Or.inr (Nat.le_refl _)
      · cases List.mem_singleton.mp hj
        exact Or.inl rfl
  | batch hm hb hexp hsel =>
      rcases List.mem_append.mp hj with hj | hj
      · rcases List.mem_cons.mp hj with heq | hj
        · cases heq
          exact Or.inr (Nat.le_refl _)
        · obtain ⟨i, inner, heq, -, hle⟩ := hexp.frames_fresh _ hj
          cases heq
          rw [Store.issue_size, Store.takeCompleter_size] at hle
          exact Or.inr (by omega)
      · cases List.mem_singleton.mp hj

namespace Writer

variable {w : Writer} {id : MessageId}

/-! ## Flushing -/

@[simp] theorem flush_connection (w : Writer) : w.flush.connection = w.connection := by
  unfold flush
  split
  · rfl
  · split
    · rfl
    · rfl

@[simp] theorem flush_selected (w : Writer) : w.flush.selected = w.selected := by
  unfold flush
  split
  · rfl
  · split
    · rfl
    · rfl

/-- Nothing is lost between the buffer and the wire. -/
@[simp] theorem flush_all (w : Writer) :
    w.flush.written ++ w.flush.buffer = w.written ++ w.buffer := by
  unfold flush
  split
  · rfl
  · split
    · rfl
    · exact List.append_nil _

/-- A flush that succeeds leaves nothing behind. -/
theorem flush_buffer (h : w.flush.fault = none) : w.flush.buffer = [] := by
  unfold flush at h ⊢
  split
  · next hempty => exact List.isEmpty_iff.mp hempty
  · next hempty =>
    rw [if_neg hempty] at h
    split
    · next t hbroken =>
      rw [hbroken] at h
      cases h
    · rfl

/-! ## Handling a message -/

theorem handle_aborting (ha : w.connection.aborting = true) (overtook : Bool) :
    w.handle id overtook = w.withStore (w.connection.store.fail id .aborted) := by
  unfold handle
  rw [if_pos ha]

theorem handle_skipped (ha : w.connection.aborting = false)
    (hp : w.connection.store.phase id ≠ .notSent) (overtook : Bool) :
    w.handle id overtook = w.count .cancelled := by
  unfold handle
  rw [ha, Store.markSent_of_ne hp]
  rfl

/-- What is dispatched is emitted by the pump that has picked the message up. -/
theorem dispatch_emits (hr : w.Ready) (hp : w.connection.store.phase id = .sent) :
    ∃ s' fs sel, Dispatches w.connection.store w.selected id s' fs sel
      ∧ Emits w s' sel fs
          (match (w.connection.store.messages[id]?).bind Message.members? with
          | some members => w.writeBatch id members
          | none => w.writeMessage id) := by
  obtain ⟨m, hm⟩ := Store.exists_get_of_phase_ne (by rw [hp]; decide)
  rw [hm]
  show ∃ s' fs sel, _ ∧ Emits w s' sel fs
    (match m.members? with
    | some members => w.writeBatch id members
    | none => w.writeMessage id)
  cases hb : m.members? with
  | some ms =>
      obtain ⟨s', fs, slots, db', sel, hexp, hemit, hsel⟩ := writeBatch_emits hr id ms
      exact ⟨s', _, sel, .batch hm (Message.batch_of_members? hb) hexp hsel, hemit⟩
  | none =>
      cases hs : m.isSelect with
      | true => exact ⟨_, _, _, .choice hm hs, writeMessage_emits_choice hr hm hs⟩
      | false =>
          by_cases hdb : ∀ d, m.request.db = some d → w.selected = some d
          · exact ⟨_, _, _, .plain hm hb hs hdb, writeMessage_emits hr hm hs hdb⟩
          · -- the message wants another database, which is chosen first
            obtain ⟨d, hd⟩ := Classical.not_forall.mp hdb
            obtain ⟨hd, hne⟩ := Classical.not_imp.mp hd
            exact ⟨_, _, _, .preceded hm hb hs hd hne, writeMessage_emits_select hr hm hs hd hne⟩

/-- Picking a message up counts jumpers, which changes nothing else. -/
theorem handle_eq (ha : w.connection.aborting = false)
    (hp : w.connection.store.phase id = .notSent) (overtook : Bool) :
    ∃ w₁, Emits w (w.connection.store.markSent id).2 w.selected [] w₁
      ∧ w.handle id overtook =
        (match (w₁.connection.store.messages[id]?).bind Message.members? with
        | some members => w₁.writeBatch id members
        | none => w₁.writeMessage id).next flush := by
  have hsent : w.connection.store.markSent id = (true, (w.connection.store.markSent id).2) := by
    rw [← (w.connection.store.markSent_fst id).mpr hp]
  have hstore := (Emits.refl w).withStore (w.connection.store.markSent id).2
  unfold handle
  rw [ha, hsent]
  cases overtook with
  | true => exact ⟨_, hstore.count .jumper, rfl⟩
  | false => exact ⟨_, hstore, rfl⟩

/-- A message that can be picked up is dispatched, and the buffer is flushed. -/
theorem handle_picked (hr : w.Ready) (ha : w.connection.aborting = false)
    (hp : w.connection.store.phase id = .notSent) (overtook : Bool) :
    ∃ w' s' fs sel, Dispatches (w.connection.store.markSent id).2 w.selected id s' fs sel
      ∧ Emits w s' sel fs w' ∧ w.handle id overtook = w'.flush := by
  obtain ⟨w₁, hw₁, heq⟩ := handle_eq ha hp overtook
  have hphase : w₁.connection.store.phase id = .sent := by
    rw [hw₁.store]
    exact Store.markSent_phase_self hp
  obtain ⟨s', fs, sel, hdispatch, hemit⟩ := dispatch_emits (hw₁.ready hr) hphase
  rw [heq]
  rw [hw₁.store] at hdispatch hemit ⊢
  rw [hw₁.selected] at hdispatch
  have hall := hw₁.trans hemit
  exact ⟨_, s', fs, sel, hdispatch, hall, hall.next hr flush⟩

end Writer

/-! ## What is written stays in custody -/

theorem Block.members_append (b : Block) (slots : List (Option MessageId)) :
    (⟨b.slots ++ slots, b.done⟩ : Block).members = b.members ++ slots.filterMap id :=
  List.filterMap_append

namespace Custody

variable {owned accepted queued : List MessageId} {frames : List InFlight} {s s' : Store}
variable {id : MessageId}

theorem perm {frames' : List InFlight} (h : Custody owned accepted queued frames s)
    (hf : frames'.Perm frames) : Custody owned accepted queued frames' s :=
  h.congr (fun _ => Iff.rfl) fun _ => hf.mem_iff

theorem swap {f g : InFlight} (h : Custody owned accepted queued (f :: g :: frames) s) :
    Custody owned accepted queued (g :: f :: frames) s :=
  h.perm (List.Perm.swap f g frames)

theorem issue (h : Custody owned accepted queued frames s) (r : Request) :
    Custody owned accepted queued (.message s.messages.size :: frames) (s.issue r) :=
  (h.create r).pickUp (s.add_phase_self _) (Or.inl (s.create_carries r).isSingle)

theorem wrap (h : Custody owned accepted queued frames s) (hs : s.IsSingle id)
    (hp : id ∈ owned → s.phase id ≠ .notSent) :
    Custody owned accepted queued (.message s.messages.size :: frames) (s.wrap id) := by
  refine (h.envelope hs).pickUp (s.add_phase_self _)
    (Or.inr ⟨id, ⟨_, s.add_draft?_self _, rfl⟩, fun ho hn => hp ho ?_⟩)
  rw [← hn]
  exact (Store.phase_congr (Store.add_messages_of_lt _ hs.lt_size)).symm

/-- A member is picked up by the block in hand. -/
theorem pickMember {b b' : Block} (h : Custody owned accepted (id :: queued) (.exec b :: frames) s)
    (ho : id ∈ owned) (hp : s.phase id = .notSent) (hdone : b'.done = b.done)
    (hmembers : b'.members = b.members ++ [id]) :
    Custody owned accepted queued (.exec b' :: frames) (s.markSent id).2 := by
  have hself : (s.markSent id).2.phase id ≠ .notSent := by
    rw [Store.markSent_phase_self hp]
    decide
  have hpicked := h.pickUp hp (Or.inl (h.kinds.owned_single id ho))
  have hnew : ∀ j ∈ b'.members, j ∈ owned ∧ (s.markSent id).2.phase j ≠ .notSent := by
    intro j hj
    rw [hmembers] at hj
    rcases List.mem_append.mp hj with hj | hj
    · have hb := h.kinds.block_owned b List.mem_cons_self
      have hreach := h.phases.reached (.exec b) List.mem_cons_self j
        (by rw [h.reach_block hb]; exact hj) (hb j hj)
      exact ⟨hb j hj, fun hn => hreach (s.markSent_notSent id hn)⟩
    · rw [List.mem_singleton.mp hj]
      exact ⟨ho, hself⟩
  have hblock := hpicked.swap.extendBlock hdone
    (fun j hj => by rw [hmembers]; exact List.mem_append_left _ hj) hnew
  -- the frame that picked the member up is not needed beside the block
  refine (hblock.swap.dropFrame ?_ fun k hk => by cases hk).dequeue hself
  intro j hs _ hcover
  rcases hcover with hj | ⟨c, hc, -⟩
  · cases List.mem_singleton.mp hj
    refine Or.inr ⟨b', List.mem_cons_self, ?_⟩
    rw [hmembers]
    exact List.mem_append_right _ (List.mem_singleton_self _)
  · cases List.mem_singleton.mp hc

/-- The members of a batch go from the queue into the block, one after the other. -/
theorem expand {db db' : Option Database} {ids : List MessageId} {fs : List InFlight}
    {slots : List (Option MessageId)} (hexp : Expands s db ids s' fs slots db') {b : Block}
    (h : Custody owned accepted (ids ++ queued) (.exec b :: frames) s) (ho : ∀ j ∈ ids, j ∈ owned) :
    Custody owned accepted queued (.exec ⟨b.slots ++ slots, b.done⟩ :: (frames ++ fs)) s' := by
  induction hexp generalizing b frames with
  | nil s db =>
      rw [List.append_nil, List.append_nil]
      exact h
  | @skipped s _ _ _ id ids _ _ hp rest ih =>
      exact ih (h.dequeue hp) fun j hj => ho j (List.mem_cons_of_mem id hj)
  | @stays s _ _ _ id ids _ slots m hp hm hstay rest ih =>
      have hid : id ∈ owned := ho id List.mem_cons_self
      have hdone : (⟨b.slots ++ [some id], b.done⟩ : Block).done = b.done := rfl
      have hpicked := h.pickMember hid hp hdone (b.members_append _)
      have hwrapped := hpicked.wrap (hpicked.kinds.owned_single id hid) fun _ => by
        rw [Store.markSent_phase_self hp]
        decide
      have hrest := ih hwrapped.swap fun j hj => ho j (List.mem_cons_of_mem id hj)
      rw [List.append_assoc, Store.markSent_size] at hrest
      exact hrest.perm (List.perm_middle.cons _)
  | @moves s _ _ _ id ids fs slots m d hp hm hd hne hs rest ih =>
      have hid : id ∈ owned := ho id List.mem_cons_self
      have hlt : id < (s.markSent id).2.messages.size := by
        rw [Store.markSent_size]
        exact (h.kinds.owned_single id hid).lt_size
      have hdone : (⟨b.slots ++ [none, some id], b.done⟩ : Block).done = b.done := rfl
      have hpicked := h.pickMember hid hp hdone (b.members_append _)
      have hsingle := ((s.markSent id).2.create_carries (.select d)).isSingle
      rw [Store.markSent_size] at hsingle
      -- the choice belongs to the pump
      have hchoice := (hpicked.create (.select d)).wrap hsingle fun ho => by
        have hold := (hpicked.kinds.owned_single _ ho).lt_size
        rw [Store.markSent_size] at hold
        exact absurd hold (Nat.lt_irrefl _)
      have hwrapped := hchoice.wrap (hchoice.kinds.owned_single id hid) fun _ hn => by
        have hsent := ((Store.create_sends _ (.select d)).trans
          (Store.wrap_sends _ s.messages.size)).notSent hlt hn
        rw [Store.markSent_phase_self hp] at hsent
        cases hsent
      rw [Store.wrap_size, Expands.moved_choice_size] at hwrapped
      have hhand := hwrapped.perm ((List.Perm.swap _ _ _).trans ((List.Perm.swap _ _ _).cons _))
      have hrest := ih hhand fun j hj => ho j (List.mem_cons_of_mem id hj)
      rw [List.append_assoc] at hrest
      refine hrest.perm (List.Perm.cons _ ?_)
      exact (List.perm_middle.trans (List.perm_middle.cons _)).trans (List.Perm.swap _ _ _)

/-- The block of a batch takes over everything the batch has to answer for. -/
theorem dispatchBatch (h : Custody owned accepted (id :: queued) frames s)
    {ms : List MessageId} (hb : s.IsBatch id ms) (hp : s.phase id = .notSent)
    {db db' : Option Database} {fs : List InFlight} {slots : List (Option MessageId)}
    (hexp : Expands (((s.markSent id).2.takeCompleter id).2.issue .multi) db ms s' fs slots db') :
    Custody owned accepted queued
      (frames ++ (.message s.messages.size :: fs
        ++ [.exec ⟨slots, ((s.markSent id).2.takeCompleter id).1⟩])) s' := by
  have hsize : ((s.markSent id).2.takeCompleter id).2.messages.size = s.messages.size := by
    rw [Store.takeCompleter_size, Store.markSent_size]
  have hpicked := (h.pickUpBatch hb hp).issue .multi
  rw [hsize] at hpicked
  have hexpanded := expand hexp hpicked.swap (h.kinds.members_owned id ms hb)
  -- the batch has been picked up, and it stays so while its members are written
  have hphase : s'.phase id ≠ .notSent := by
    intro hn
    have hlt : id < ((s.markSent id).2.takeCompleter id).2.messages.size := by
      rw [hsize]
      exact hb.lt_size
    have hsent := ((Store.issue_sends _ .multi).trans hexp.sends).notSent hlt hn
    rw [Store.takeCompleter_phase, Store.markSent_phase_self hp] at hsent
    cases hsent
  -- the frame of the block was in hand first and goes last
  refine (hexpanded.dequeue hphase).perm ?_
  rw [List.nil_append, List.cons_append, List.cons_append]
  exact (List.perm_middle.trans
    ((List.Perm.cons _ (by
      rw [← List.append_assoc]
      exact List.perm_append_singleton _ _)).trans (List.Perm.swap _ _ _)))

/-- Whatever a message leads to is in flight afterwards. -/
theorem dispatch {db sel : Option Database} {fs : List InFlight}
    (h : Custody owned accepted (id :: queued) frames s) (hp : s.phase id = .notSent)
    (hd : Dispatches (s.markSent id).2 db id s' fs sel) :
    Custody owned accepted queued (frames ++ fs) s' := by
  have hself : (s.markSent id).2.phase id ≠ .notSent := by
    rw [Store.markSent_phase_self hp]
    decide
  -- a message that is no batch was put into the queue by its owner
  have hsingle : (∀ ms, ¬ s.IsBatch id ms) →
      Custody owned accepted queued (.message id :: frames) (s.markSent id).2 := by
    intro hnot
    have ho := (h.kinds.queued_kind id List.mem_cons_self).resolve_right fun ⟨ms, hb⟩ => hnot ms hb
    exact (h.pickUp hp (Or.inl (h.kinds.owned_single id ho))).dequeue hself
  have hbody : ∀ m, (s.markSent id).2.messages[id]? = some m → m.members? = none →
      ∀ ms, ¬ s.IsBatch id ms := by
    rintro m hm hb ms ⟨n, hn, hbatch⟩
    rw [← s.markSent_draft? id id, Store.draft?_of_get hm] at hn
    cases hn
    have hmembers : m.members? = some ms := Message.members?_of_batch hbatch
    rw [hmembers] at hb
    cases hb
  cases hd with
  | plain hm hb hs hdb => exact (hsingle (hbody _ hm hb)).perm (List.perm_append_singleton _ _)
  | @choice m hm hs =>
      have hb := Message.members?_of_isSelect hs
      exact (hsingle (hbody _ hm hb)).perm (List.perm_append_singleton _ _)
  | @preceded m d hm hb hs hdb hne =>
      refine ((hsingle (hbody _ hm hb)).issue (.select d)).perm ?_
      exact List.perm_append_comm
  | @batch m ms _ _ _ _ _ hm hb hexp hsel =>
      have hbatch : s.IsBatch id ms := by
        refine ⟨m.draft, ?_, hb⟩
        rw [← s.markSent_draft? id id]
        exact Store.draft?_of_get hm
      rw [Store.markSent_size]
      exact h.dispatchBatch hbatch hp hexp

end Custody

namespace Writer

variable {w : Writer} {id : MessageId}

/-- A round emits something or nothing, and flushes it or not. -/
theorem handle_emits (hr : w.Ready) (wf : w.connection.store.WellFormed) (id : MessageId)
    (overtook : Bool) :
    ∃ s sel fs w', Emits w s sel fs w' ∧ w.connection.store.Grows s
      ∧ ((fs = [] ∧ w.handle id overtook = w') ∨ w.handle id overtook = w'.flush) := by
  have hstart := Emits.refl w
  cases ha : w.connection.aborting with
  | true =>
      have hfail := Store.fail_resolves wf id .aborted
      exact ⟨_, _, [], _, hstart.withStore _, .of_draft? hfail.draft?,
        Or.inl ⟨rfl, handle_aborting ha overtook⟩⟩
  | false =>
      by_cases hp : w.connection.store.phase id = .notSent
      · obtain ⟨w', s', fs, sel, hdispatch, hemit, heq⟩ := handle_picked hr ha hp overtook
        have hgrows := (Store.markSent_sends _ id).grows.trans hdispatch.grows
        exact ⟨s', sel, fs, w', hemit, hgrows, Or.inr heq⟩
      · exact ⟨_, _, [], _, hstart.count .cancelled, .refl _,
          Or.inl ⟨rfl, handle_skipped ha hp overtook⟩⟩

/-- One round of the pump keeps the custody of everything. -/
theorem handle_custody {owned accepted queued : List MessageId} (hr : w.Ready)
    (h : Custody owned accepted (id :: queued) w.connection.ledger.entries w.connection.store)
    (overtook : Bool) :
    Custody owned accepted queued (w.handle id overtook).connection.ledger.entries
      (w.handle id overtook).connection.store := by
  cases ha : w.connection.aborting with
  | true =>
      rw [handle_aborting ha]
      exact h.failQueued .aborted
  | false =>
      by_cases hp : w.connection.store.phase id = .notSent
      · obtain ⟨w', s', fs, sel, hdispatch, hemit, heq⟩ := handle_picked hr ha hp overtook
        rw [heq, flush_connection, hemit.entries, hemit.store]
        exact h.dispatch hp hdispatch
      · rw [handle_skipped ha hp]
        exact h.dequeue hp

end Writer

end RespMux
