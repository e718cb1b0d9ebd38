import RespMux.Proofs.RawChoices

/-!
# What the outgoing pump counts

A frame is counted where it is recorded, so the frames counted and those recorded never drift apart,
whatever happens to the pump. A message that is passed over is counted instead, and the database of
a message that is written counts as used, unless the message is a choice of it that stands alone.
`Writer.Tallies` says so of any part of the work of the pump, and tallies add up
(`Writer.Tallies.trans`).

Which messages are passed over, and which use their databases, can be read off the store before
the message is handled (`Store.skips`, `Store.users`). For a batch this is an induction over its
members, each of which finds the members before it picked up.
-/

set_option autoImplicit false

namespace RespMux

namespace Store

/-- The databases that messages are for. -/
def targets (s : Store) (ids : List MessageId) : List Database :=
  ids.filterMap fun id => (s.requestOf id).db

/-- The members of a message, if it is a batch. -/
def membersOf? (s : Store) (id : MessageId) : Option (List MessageId) :=
  (s.draft? id).bind Message.members?

/-- The messages that the pump passes over when it comes to the message `id`: the message itself if
it has been called off, or else the members of a batch that have been, or that come again. -/
def skips (s : Store) (id : MessageId) : List MessageId :=
  if s.phase id = .notSent then
    match s.membersOf? id with
    | some ms => ms.diff (s.live ms)
    | none => []
  else [id]

/-- The messages that use their databases when the pump comes to the message `id`. -/
def users (s : Store) (id : MessageId) : List MessageId :=
  if s.phase id = .notSent then
    match s.membersOf? id with
    | some ms => s.live ms
    | none => if s.chooses id then [] else [id]
  else []

variable {s s' : Store} {id : MessageId} {ids : List MessageId}

theorem membersOf?_eq (s : Store) (id : MessageId) :
    s.membersOf? id = (s.messages[id]?).bind Message.members? := by
  unfold membersOf? draft?
  cases s.messages[id]? with
  | none => rfl
  | some m => rfl

theorem isBatch_of_membersOf? (h : s.membersOf? id = some ids) : s.IsBatch id ids := by
  obtain ⟨m, hm, hmembers⟩ := Option.bind_eq_some_iff.mp h
  exact ⟨m, hm, Message.batch_of_members? hmembers⟩

theorem targets_cons (s : Store) (id : MessageId) (ids : List MessageId) :
    s.targets (id :: ids) = (s.requestOf id).db.toList ++ s.targets ids := by
  unfold targets
  cases h : (s.requestOf id).db with
  | none => simp [h]
  | some d => simp [h]

theorem targets_singleton (s : Store) (id : MessageId) :
    s.targets [id] = (s.requestOf id).db.toList := by
  rw [targets_cons]
  exact List.append_nil _

theorem Grows.targets (h : s.Grows s') (hids : ∀ j ∈ ids, j < s.messages.size) :
    s'.targets ids = s.targets ids := by
  refine List.filterMap_congr fun j hj => ?_
  rw [h.requestOf (hids j hj)]

end Store

namespace Writer

variable {w w₁ w' : Writer} {n n' : Nat} {dbs dbs' : List Database} {id : MessageId}

/-- From `w` to `w'` the pump has counted the frames that it has recorded, `n` messages that it has
passed over, and the uses of the databases `dbs`. -/
structure Tallies (w : Writer) (n : Nat) (dbs : List Database) (w' : Writer) : Prop where
  sent : w'.connection.counters.sent + (w.written ++ w.buffer).length
    = w.connection.counters.sent + (w'.written ++ w'.buffer).length
  cancelled : w'.connection.counters.cancelled = w.connection.counters.cancelled + n
  usage : w'.connection.counters.usage = dbs.foldl UseCounts.count w.connection.counters.usage
  received : w'.connection.counters.received = w.connection.counters.received
  errors : w'.connection.counters.errors = w.connection.counters.errors

theorem Tallies.refl (w : Writer) : Tallies w 0 [] w := ⟨rfl, rfl, rfl, rfl, rfl⟩

theorem Tallies.trans (h : Tallies w n dbs w₁) (h' : Tallies w₁ n' dbs' w') :
    Tallies w (n + n') (dbs ++ dbs') w' where
  sent := by
    have hsent := h.sent
    have hsent' := h'.sent
    omega
  cancelled := by rw [h'.cancelled, h.cancelled, Nat.add_assoc]
  usage := by rw [h'.usage, h.usage, List.foldl_append]
  received := h'.received.trans h.received
  errors := h'.errors.trans h.errors

/-- More work that counts only the frames it records. -/
theorem Tallies.andThen (h : Tallies w n dbs w₁) (h' : Tallies w₁ 0 [] w') :
    Tallies w n dbs w' := by
  have hall := h.trans h'
  rw [List.append_nil] at hall
  exact hall

/-- Work that neither records nor counts anything. -/
theorem tallies_of_eq (htape : w'.written ++ w'.buffer = w.written ++ w.buffer)
    (hcounters : w'.connection.counters = w.connection.counters) : Tallies w 0 [] w' := by
  refine ⟨?_, ?_, ?_, ?_, ?_⟩
  · rw [htape, hcounters]
  · exact congrArg Counters.cancelled hcounters
  · exact congrArg Counters.usage hcounters
  · exact congrArg Counters.received hcounters
  · exact congrArg Counters.errors hcounters

theorem tallies_withStore (w : Writer) (s : Store) : Tallies w 0 [] (w.withStore s) :=
  tallies_of_eq rfl rfl

theorem tallies_skip (w : Writer) : Tallies w 1 [] (w.count .cancelled) := ⟨rfl, rfl, rfl, rfl, rfl⟩

theorem tallies_jumper (w : Writer) : Tallies w 0 [] (w.count .jumper) := ⟨rfl, rfl, rfl, rfl, rfl⟩

theorem tallies_useDatabase (w : Writer) (d : Database) : Tallies w 0 [d] (w.useDatabase d) :=
  ⟨rfl, rfl, rfl, rfl, rfl⟩

/-! ## Frames -/

/-- A frame is counted just if it is recorded. -/
theorem tallies_push (w : Writer) (f : InFlight) : Tallies w 0 [] (w.push f) := by
  unfold push
  split
  · refine ⟨?_, rfl, rfl, rfl, rfl⟩
    show w.connection.counters.sent + 1 + _ = _
    simp only [List.length_append, List.length_singleton]
    omega
  · exact tallies_of_eq rfl rfl

theorem tallies_pushOwn (w : Writer) (r : Request) : Tallies w 0 [] (w.pushOwn r) :=
  (tallies_withStore w _).andThen (tallies_push _ _)

theorem tallies_pushEnvelope (w : Writer) (id : MessageId) : Tallies w 0 [] (w.pushEnvelope id) :=
  (tallies_withStore w _).andThen (tallies_push _ _)

/-- Nothing is counted if the pump has failed already. -/
theorem tallies_next {f : Writer → Writer} (h : Tallies w 0 [] (f w)) :
    Tallies w 0 [] (w.next f) := by
  unfold next
  split
  · exact .refl w
  · exact h

theorem tallies_flush (w : Writer) : Tallies w 0 [] w.flush :=
  tallies_of_eq w.flush_all (congrArg Connection.counters w.flush_connection)

theorem Ready.next (hr : w.Ready) (f : Writer → Writer) : w.next f = f w := (Emits.refl w).next hr f

theorem Ready.pushEnvelope (hr : w.Ready) (id : MessageId) : (w.pushEnvelope id).Ready :=
  ((Emits.refl w).pushEnvelope hr id).ready hr

/-! ## Single messages -/

theorem Ready.select (hr : w.Ready) (d : Database) : (w.select d).Ready := by
  by_cases h : w.selected = some d
  · rw [select_of_eq h]
    exact hr
  · exact (select_emits hr h).ready hr

theorem tallies_select (w : Writer) (d : Database) : Tallies w 0 [] (w.select d) := by
  unfold select
  split
  · exact .refl w
  · exact (tallies_pushOwn w _).andThen (tallies_next (tallies_of_eq rfl rfl))

/-- On its own a choice of a database does not count as a use of it. -/
theorem tallies_writeMessage (hr : w.Ready) {m : Message}
    (hm : w.connection.store.messages[id]? = some m) :
    Tallies w 0 (if m.isSelect then [] else m.request.db.toList) (w.writeMessage id) := by
  unfold writeMessage
  rw [hm]
  dsimp only
  split
  · have hselected : Tallies w 0 [] { w with selected := m.request.db } := tallies_of_eq rfl rfl
    exact hselected.andThen (tallies_push _ _)
  · cases hd : m.request.db with
    | none => exact tallies_push _ _
    | some d =>
      dsimp only
      rw [(hr.select d).next]
      have huse := (tallies_select w d).trans (tallies_useDatabase (w.select d) d)
      exact huse.andThen (tallies_push _ _)

/-! ## Blocks -/

namespace BlockWriter

variable {b : BlockWriter} {m : Message}

theorem tallies_moveTo (b : BlockWriter) (d : Database) (isSelect : Bool) :
    b.writer.Tallies 0 [] (b.moveTo d isSelect).writer := by
  unfold moveTo
  split
  · exact .refl _
  · cases isSelect with
    | true => exact .refl _
    | false => exact (tallies_withStore _ _).andThen (tallies_pushEnvelope _ _)

theorem ready_moveTo (hr : b.writer.Ready) (d : Database) (isSelect : Bool) :
    (b.moveTo d isSelect).writer.Ready := by
  unfold moveTo
  split
  · exact hr
  · cases isSelect with
    | true => exact hr
    | false =>
      have hstored : ∀ s, (b.writer.withStore s).Ready := fun s => ⟨hr.fault, hr.ledger⟩
      exact (hstored _).pushEnvelope _

/-- In a block every member counts as a use of its database. -/
theorem tallies_writeMember (hr : b.writer.Ready)
    (hp : b.writer.connection.store.phase id = .notSent)
    (hm : b.writer.connection.store.messages[id]? = some m) :
    b.writer.Tallies 0 m.request.db.toList (b.writeMember id).writer := by
  rw [writeMember_picked (Emits.refl _) hr hp hm]
  have hpicked := tallies_withStore b.writer (b.writer.connection.store.markSent id).2
  have hready : (b.writer.withStore (b.writer.connection.store.markSent id).2).Ready :=
    ⟨hr.fault, hr.ledger⟩
  dsimp only
  cases hd : m.request.db with
  | none => exact hpicked.andThen (tallies_next (tallies_pushEnvelope _ id))
  | some d =>
    dsimp only
    generalize b.writer.withStore (b.writer.connection.store.markSent id).2 = v at hpicked hready
    have hmoved := tallies_moveTo { b with writer := v } d m.isSelect
    rw [(ready_moveTo (b := { b with writer := v }) hready d m.isSelect).next]
    have huse := (hpicked.trans hmoved).trans (tallies_useDatabase _ d)
    exact huse.andThen (tallies_next (tallies_pushEnvelope _ id))

/-- The live members are written, and all others are passed over. -/
theorem tallies_foldl (hr : b.writer.Ready) {ids : List MessageId}
    (hids : ∀ j ∈ ids, j < b.writer.connection.store.messages.size) :
    let s := b.writer.connection.store
    b.writer.Tallies (ids.diff (s.live ids)).length
      (s.targets (s.live ids)) (ids.foldl writeMember b).writer := by
  dsimp only
  -- over the writer too: every member finds what the members before it have left
  induction ids generalizing b with
  | nil => exact .refl _
  | cons id ids ih =>
    have htail : ∀ j ∈ ids, j < b.writer.connection.store.messages.size := fun j hj =>
      hids j (List.mem_cons_of_mem id hj)
    rw [List.foldl_cons]
    by_cases hp : b.writer.connection.store.phase id = .notSent
    · obtain ⟨m, hm⟩ := Store.exists_get_of_phase_ne (by rw [hp]; decide)
      obtain ⟨s', fs, hemit, hsends, hlive⟩ := writeMember_emits (Emits.refl _) hr hp hm
      have hwrite := tallies_writeMember hr hp hm
      have hrest := ih (hemit.ready hr) fun j hj => by
        rw [hemit.store]
        exact Nat.lt_of_lt_of_le (htail j hj) hsends.size
      rw [hemit.store] at hrest
      have hlater : s'.targets (s'.live ids)
          = b.writer.connection.store.targets (s'.live ids) :=
        hsends.grows.targets fun j hj => htail j (Store.mem_live.mp hj).1
      have hall := hwrite.trans hrest
      rw [hlater, Nat.zero_add] at hall
      rw [Store.live_picked hp fun j hj => hlive j (htail j hj), List.diff_cons,
        List.erase_cons_head, Store.targets_cons,
        Store.requestOf_of_draft? (Store.draft?_of_get hm)]
      exact hall
    · have hnot : id ∉ b.writer.connection.store.live ids := fun hmem =>
        hp (Store.mem_live.mp hmem).2
      have hskip := writeMember_skipped (b := b) (Emits.refl _) hr hp
      have hrest := ih (b := b.writeMember id) (by rw [hskip]; exact ⟨hr.fault, hr.ledger⟩)
        (by rw [hskip]; exact htail)
      rw [hskip] at hrest ⊢
      have hall := (tallies_skip b.writer).trans hrest
      rw [Store.live_skipped hp, List.cons_diff_of_not_mem hnot, List.length_cons, Nat.add_comm]
      exact hall

end BlockWriter

theorem tallies_writeBatch (hr : w.Ready) (id : MessageId) {ms : List MessageId}
    (hms : ∀ j ∈ ms, j < w.connection.store.messages.size) :
    let s := w.connection.store
    Tallies w (ms.diff (s.live ms)).length (s.targets (s.live ms)) (w.writeBatch id ms) := by
  have hopen := openBlock_emits hr id
  have htaken : Tallies w 0 [] (w.openBlock id).writer :=
    (tallies_withStore w _).andThen (tallies_pushOwn _ .multi)
  have hsize : ∀ j ∈ ms, j < (w.connection.store.takeCompleter id).2.messages.size := by
    intro j hj
    rw [Store.takeCompleter_size]
    exact hms j hj
  have hopened : ∀ j ∈ ms, j < (w.openBlock id).writer.connection.store.messages.size := by
    intro j hj
    rw [hopen.store, Store.issue_size]
    exact Nat.lt_succ_of_lt (hsize j hj)
  have hmembers := BlockWriter.tallies_foldl (hopen.ready hr) hopened
  -- the start of the block changes neither which members are live nor what they are for
  have hlive : ((w.connection.store.takeCompleter id).2.issue .multi).live ms
      = w.connection.store.live ms := by
    refine Store.live_congr fun j hj => ?_
    rw [Store.phase_congr (Store.issue_messages_of_lt _ (hsize j hj)), Store.takeCompleter_phase]
  have htargets : ((w.connection.store.takeCompleter id).2.issue .multi).targets
        (w.connection.store.live ms) = w.connection.store.targets (w.connection.store.live ms) := by
    have htaken : w.connection.store.Grows (w.connection.store.takeCompleter id).2 :=
      .of_draft? (Store.takeCompleter_draft? _ id)
    have hgrows := htaken.trans (Store.issue_sends _ .multi).grows
    exact hgrows.targets fun j hj => hms j (Store.mem_live.mp hj).1
  rw [hopen.store] at hmembers
  dsimp only at hmembers ⊢
  rw [hlive, htargets] at hmembers
  have hall := htaken.trans hmembers
  rw [Nat.zero_add, List.nil_append] at hall
  rw [writeBatch_eq]
  refine hall.andThen (tallies_next ((tallies_push _ _).andThen (tallies_next ?_)))
  split
  · exact tallies_of_eq rfl rfl
  · exact .refl _

/-! ## A round -/

/-- Picking a message up records nothing, and counts only jumpers. -/
theorem handle_picks (ha : w.connection.aborting = false)
    (hp : w.connection.store.phase id = .notSent) (overtook : Bool) :
    ∃ w₁, Emits w (w.connection.store.markSent id).2 w.selected [] w₁ ∧ Tallies w 0 [] w₁
      ∧ w.handle id overtook =
        (match w₁.connection.store.membersOf? id with
        | some members => w₁.writeBatch id members
        | none => w₁.writeMessage id).next flush := by
  have hsent : w.connection.store.markSent id = (true, (w.connection.store.markSent id).2) := by
    rw [← (w.connection.store.markSent_fst id).mpr hp]
  have hstore := (Emits.refl w).withStore (w.connection.store.markSent id).2
  have htally := tallies_withStore w (w.connection.store.markSent id).2
  simp only [Store.membersOf?_eq]
  unfold handle
  rw [ha, hsent]
  cases overtook with
  | true => exact ⟨_, hstore.count .jumper, htally.andThen (tallies_jumper _), rfl⟩
  | false => exact ⟨_, hstore, htally, rfl⟩

theorem tallies_picked (hr : w.Ready) (ha : w.connection.aborting = false)
    (hp : w.connection.store.phase id = .notSent) (overtook : Bool)
    (hms : ∀ ms, w.connection.store.IsBatch id ms →
      ∀ j ∈ ms, j ≠ id ∧ j < w.connection.store.messages.size) :
    Tallies w (w.connection.store.skips id).length
      (w.connection.store.targets (w.connection.store.users id)) (w.handle id overtook) := by
  obtain ⟨w₁, hemit, htally, heq⟩ := handle_picks ha hp overtook
  have hr₁ := hemit.ready hr
  have hgrows := (w.connection.store.markSent_sends id).grows
  have hdraft := w.connection.store.markSent_draft? id id
  have hmembers : w₁.connection.store.membersOf? id = w.connection.store.membersOf? id := by
    rw [hemit.store]
    exact congrArg (Option.bind · Message.members?) hdraft
  unfold Store.skips Store.users
  rw [heq, hmembers, if_pos hp, if_pos hp]
  cases hbatch : w.connection.store.membersOf? id with
  | some ms =>
    have hinside := hms ms (Store.isBatch_of_membersOf? hbatch)
    have hpicked : ∀ j ∈ ms, j < w₁.connection.store.messages.size := by
      intro j hj
      rw [hemit.store, Store.markSent_size]
      exact (hinside j hj).2
    have hblock := tallies_writeBatch hr₁ id hpicked
    -- the batch itself is none of its members
    have hlive : (w.connection.store.markSent id).2.live ms = w.connection.store.live ms := by
      refine Store.live_congr fun j hj => ?_
      exact Store.phase_congr (Store.markSent_messages_ne (hinside j hj).1.symm)
    have htargets : (w.connection.store.markSent id).2.targets (w.connection.store.live ms)
        = w.connection.store.targets (w.connection.store.live ms) :=
      hgrows.targets fun j hj => (hinside j (Store.mem_live.mp hj).1).2
    rw [hemit.store] at hblock
    dsimp only at hblock
    rw [hlive, htargets] at hblock
    have hall := htally.trans hblock
    rw [Nat.zero_add, List.nil_append] at hall
    exact hall.andThen (tallies_next (tallies_flush _))
  | none =>
    have hphase : w₁.connection.store.phase id ≠ .complete := by
      rw [hemit.store, Store.markSent_phase_self hp]
      decide
    obtain ⟨m, hm⟩ := Store.exists_get_of_phase_ne hphase
    have hmessage := tallies_writeMessage hr₁ hm
    have hget : w.connection.store.draft? id = some m.draft := by
      rw [← hdraft, ← hemit.store]
      exact Store.draft?_of_get hm
    have hchooses : w.connection.store.chooses id = m.isSelect := by
      unfold Store.chooses
      rw [hget]
      rfl
    have hrequest : w.connection.store.requestOf id = m.request :=
      Store.requestOf_of_draft? (m := m.draft) hget
    have hall := htally.trans hmessage
    dsimp only
    rw [hchooses, apply_ite w.connection.store.targets, Store.targets_singleton, hrequest]
    exact hall.andThen (tallies_next (tallies_flush _))

/-- What the pump counts when it handles a message. -/
theorem tallies_handle (hr : w.Ready) (ha : w.connection.aborting = false) (id : MessageId)
    (overtook : Bool)
    (hms : ∀ ms, w.connection.store.IsBatch id ms →
      ∀ j ∈ ms, j ≠ id ∧ j < w.connection.store.messages.size) :
    Tallies w (w.connection.store.skips id).length
      (w.connection.store.targets (w.connection.store.users id)) (w.handle id overtook) := by
  by_cases hp : w.connection.store.phase id = .notSent
  · exact tallies_picked hr ha hp overtook hms
  · unfold Store.skips Store.users
    rw [handle_skipped ha hp, if_neg hp, if_neg hp]
    exact tallies_skip w

end Writer

end RespMux
