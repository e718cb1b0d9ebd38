import RespMux.Proofs.Outgoing.Emission

/-!
# Writing a transaction block

`Expands` retells how the members of a batch become the inside of a block: a member that has been
cancelled is skipped, any other gets an envelope, and if it is for another database than the one
before it, an envelope around a choice of that database goes first. `writeBatch_emits` says that a
block is what the pump writes for a batch; what holds of blocks is then proved by induction on
`Expands`.

`Layout` describes the finished inside of a block without its history.
-/

set_option autoImplicit false

namespace RespMux

/-- A block is expanded from the members `ids`, starting with the store `s` in the database `db`.
The result is a store, frames, the slots for their results and a database. -/
inductive Expands : Store → Option Database → List MessageId →
    Store → List InFlight → List (Option MessageId) → Option Database → Prop where
  | nil (s : Store) (db : Option Database) : Expands s db [] s [] [] db
  | skipped {s s' : Store} {db db' : Option Database} {id : MessageId} {ids : List MessageId}
      {fs : List InFlight} {slots : List (Option MessageId)}
      (hp : s.phase id ≠ .notSent) (rest : Expands s db ids s' fs slots db') :
      Expands s db (id :: ids) s' fs slots db'
  | stays {s s' : Store} {db db' : Option Database} {id : MessageId} {ids : List MessageId}
      {fs : List InFlight} {slots : List (Option MessageId)} {m : Message}
      (hp : s.phase id = .notSent) (hm : s.messages[id]? = some m)
      (hstay : ∀ d, m.request.db = some d → db = some d ∨ m.isSelect = true)
      (rest : Expands ((s.markSent id).2.wrap id) (m.request.db.or db) ids s' fs slots db') :
      Expands s db (id :: ids) s' (.message s.messages.size :: fs) (some id :: slots) db'
  | moves {s s' : Store} {db db' : Option Database} {id : MessageId} {ids : List MessageId}
      {fs : List InFlight} {slots : List (Option MessageId)} {m : Message} {d : Database}
      (hp : s.phase id = .notSent) (hm : s.messages[id]? = some m)
      (hd : m.request.db = some d) (hne : db ≠ some d) (hs : m.isSelect = false)
      (rest : Expands ((((s.markSent id).2.create (.select d)).2.wrap s.messages.size).wrap id)
        (some d) ids s' fs slots db') :
      Expands s db (id :: ids) s'
        (.message (s.messages.size + 1) :: .message (s.messages.size + 2) :: fs)
        (none :: some id :: slots) db'

namespace Writer

namespace BlockWriter

variable {w : Writer} {b : BlockWriter} {s : Store} {sel : Option Database} {fs : List InFlight}
variable {id : MessageId} {m : Message}

theorem writeMember_skipped (h : Emits w s sel fs b.writer) (hr : w.Ready)
    (hp : s.phase id ≠ .notSent) :
    b.writeMember id = { b with writer := b.writer.count .cancelled } := by
  unfold writeMember
  rw [(h.ready hr).fault, h.store, Store.markSent_of_ne hp]
  simp

/-- A member that has not been cancelled, in the hands of the pump. -/
theorem writeMember_picked (h : Emits w s sel fs b.writer) (hr : w.Ready)
    (hp : s.phase id = .notSent) (hm : s.messages[id]? = some m) :
    b.writeMember id =
      let b := { b with writer := b.writer.withStore (s.markSent id).2 }
      let b :=
        match m.request.db with
        | none => b
        | some db =>
            let b := b.moveTo db m.isSelect
            { b with writer := b.writer.next fun w => w.useDatabase db }
      { b with
        writer := b.writer.next fun w => w.pushEnvelope id
        slots := b.slots ++ [some id] } := by
  have hsent : s.markSent id = (true, (s.markSent id).2) := by
    rw [← (s.markSent_fst id).mpr hp]
  unfold writeMember
  rw [(h.ready hr).fault, h.store, hm, hsent]
  rfl

theorem writeMember_stays (h : Emits w s sel fs b.writer) (hr : w.Ready)
    (hp : s.phase id = .notSent) (hm : s.messages[id]? = some m)
    (hstay : ∀ d, m.request.db = some d → b.db = some d ∨ m.isSelect = true) :
    Emits w ((s.markSent id).2.wrap id) sel (fs ++ [.message s.messages.size])
        (b.writeMember id).writer
      ∧ (b.writeMember id).slots = b.slots ++ [some id]
      ∧ (b.writeMember id).db = m.request.db.or b.db
      ∧ ((b.writeMember id).switched = false →
          b.switched = false ∧ m.request.db.or b.db = b.db) := by
  have hpicked := h.withStore (s.markSent id).2
  have hpush := hpicked.pushEnvelope hr id
  rw [Store.markSent_size] at hpush
  rw [writeMember_picked h hr hp hm]
  cases hd : m.request.db with
  | none =>
      dsimp only
      rw [hpicked.next hr]
      exact ⟨hpush, rfl, rfl, fun hsw => ⟨hsw, rfl⟩⟩
  | some d =>
      have huse := (hpicked.useDatabase d).pushEnvelope hr id
      rw [Store.markSent_size] at huse
      dsimp only
      unfold moveTo
      by_cases hdb : b.db = some d
      · rw [if_pos hdb, hpicked.next hr, (hpicked.useDatabase d).next hr]
        exact ⟨huse, rfl, hdb, fun hsw => ⟨hsw, hdb.symm⟩⟩
      · -- another database, so the member is the choice of it
        have hs : m.isSelect = true := (hstay d hd).resolve_left hdb
        rw [if_neg hdb, if_pos hs, hpicked.next hr, (hpicked.useDatabase d).next hr]
        exact ⟨huse, rfl, rfl, fun hsw => by cases hsw⟩

theorem writeMember_moves (h : Emits w s sel fs b.writer) (hr : w.Ready) {d : Database}
    (hp : s.phase id = .notSent) (hm : s.messages[id]? = some m)
    (hd : m.request.db = some d) (hne : b.db ≠ some d) (hs : m.isSelect = false) :
    Emits w ((((s.markSent id).2.create (.select d)).2.wrap s.messages.size).wrap id) sel
        (fs ++ [.message (s.messages.size + 1), .message (s.messages.size + 2)])
        (b.writeMember id).writer
      ∧ (b.writeMember id).slots = b.slots ++ [none, some id]
      ∧ (b.writeMember id).db = some d
      ∧ (b.writeMember id).switched = true := by
  have hpicked := h.withStore (s.markSent id).2
  have hchoice := (hpicked.withStore ((s.markSent id).2.create (.select d)).2).pushEnvelope hr
    s.messages.size
  rw [Store.create_size, Store.markSent_size] at hchoice
  have hpush := (hchoice.useDatabase d).pushEnvelope hr id
  rw [Store.wrap_size, Store.create_size, Store.markSent_size, List.append_assoc] at hpush
  -- the choice of the database is put into an envelope of its own, with an empty slot
  have hselect :
      ({ b with writer := b.writer.withStore (s.markSent id).2 } : BlockWriter).pushSelect d
      = { b with
          writer := ((b.writer.withStore (s.markSent id).2).withStore
            ((s.markSent id).2.create (.select d)).2).pushEnvelope s.messages.size
          slots := b.slots ++ [none] } := by
    unfold pushSelect
    dsimp only
    rw [hpicked.store]
    show ({ b with
      writer := _
      slots := _ } : BlockWriter) = _
    rw [show ((s.markSent id).2.create (.select d)).1 = s.messages.size from
      (s.markSent_size id)]
  rw [writeMember_picked h hr hp hm, hd]
  dsimp only
  unfold moveTo
  rw [if_neg hne, if_neg (by rw [hs]; decide), hselect]
  dsimp only
  rw [hchoice.next hr, (hchoice.useDatabase d).next hr, List.append_assoc]
  exact ⟨hpush, rfl, rfl, rfl⟩

/-- The members of a batch are expanded one after the other. -/
theorem foldl_writeMember (h : Emits w s sel fs b.writer) (hr : w.Ready)
    (ids : List MessageId) :
    ∃ s' fs' slots,
      Expands s b.db ids s' fs' slots (ids.foldl writeMember b).db
      ∧ Emits w s' sel (fs ++ fs') (ids.foldl writeMember b).writer
      ∧ (ids.foldl writeMember b).slots = b.slots ++ slots
      ∧ ((ids.foldl writeMember b).switched = false →
          b.switched = false ∧ (ids.foldl writeMember b).db = b.db) := by
  induction ids generalizing s fs b with
  | nil =>
      refine ⟨s, [], [], .nil s b.db, ?_, ?_, fun hsw => ⟨hsw, rfl⟩⟩
      · rw [List.append_nil]
        exact h
      · rw [List.append_nil]
        rfl
  | cons id ids ih =>
      rw [List.foldl_cons]
      by_cases hp : s.phase id = .notSent
      · obtain ⟨m, hm⟩ := Store.exists_get_of_phase_ne (by rw [hp]; decide)
        by_cases hstay : ∀ d, m.request.db = some d → b.db = some d ∨ m.isSelect = true
        · -- no choice of a database goes before this member
          obtain ⟨hw, hslots, hdb, hsw⟩ := writeMember_stays h hr hp hm hstay
          obtain ⟨s', fs', slots, hexp, hemit, hslots', hsw'⟩ := ih hw
          rw [hdb] at hexp
          refine ⟨s', _, _, .stays hp hm hstay hexp, ?_, ?_, fun hf => ?_⟩
          · rw [List.append_assoc] at hemit
            exact hemit
          · rw [hslots', hslots, List.append_assoc]
            rfl
          · obtain ⟨hf', hdb'⟩ := hsw' hf
            obtain ⟨hb, hor⟩ := hsw hf'
            exact ⟨hb, hdb'.trans (hdb.trans hor)⟩
        · obtain ⟨d, hd⟩ := Classical.not_forall.mp hstay
          rw [Classical.not_imp, not_or, Bool.not_eq_true] at hd
          obtain ⟨hd, hne, hs⟩ := hd
          -- the block has switched, so nothing is claimed about the database
          obtain ⟨hw, hslots, hdb, hsw⟩ := writeMember_moves h hr hp hm hd hne hs
          obtain ⟨s', fs', slots, hexp, hemit, hslots', hsw'⟩ := ih hw
          rw [hdb] at hexp
          refine ⟨s', _, _, .moves hp hm hd hne hs hexp, ?_, ?_, fun hf => ?_⟩
          · rw [List.append_assoc] at hemit
            exact hemit
          · rw [hslots', hslots, List.append_assoc]
            rfl
          · rw [hsw] at hsw'
            cases (hsw' hf).1
      · rw [writeMember_skipped h hr hp]
        obtain ⟨s', fs', slots, hexp, hrest⟩ :=
          ih (b := { b with writer := b.writer.count .cancelled }) (h.count .cancelled)
        exact ⟨s', fs', slots, .skipped hp hexp, hrest⟩

end BlockWriter

/-- The block of the batch `id` before its first member. -/
def openBlock (w : Writer) (id : MessageId) : BlockWriter :=
  let w := (w.withStore (w.connection.store.takeCompleter id).2).pushOwn .multi
  { writer := w, db := w.selected }

theorem openBlock_emits {w : Writer} (hr : w.Ready) (id : MessageId) :
    Emits w ((w.connection.store.takeCompleter id).2.issue .multi) w.selected
      [.message w.connection.store.messages.size] (w.openBlock id).writer := by
  have hmulti := ((Emits.refl w).withStore (w.connection.store.takeCompleter id).2).pushOwn hr
    .multi
  rw [Store.takeCompleter_size] at hmulti
  exact hmulti

theorem openBlock_db {w : Writer} (hr : w.Ready) (id : MessageId) :
    (w.openBlock id).db = w.selected :=
  (openBlock_emits hr id).selected

/-- The members are written into the block one after the other, and then the request to run it. -/
theorem writeBatch_eq (w : Writer) (id : MessageId) (ms : List MessageId) :
    w.writeBatch id ms =
      let b := ms.foldl BlockWriter.writeMember (w.openBlock id)
      b.writer.next fun v =>
        (v.push (.exec ⟨b.slots, (w.connection.store.takeCompleter id).1⟩)).next fun v =>
          if b.switched then { v with selected := none } else v :=
  rfl

/-- What the pump writes for a batch: a start, the members as they expand, and the request to run
them. After a block with a choice of a database the selected one is unknown. -/
theorem writeBatch_emits {w : Writer} (hr : w.Ready) (id : MessageId) (ms : List MessageId) :
    ∃ s' fs slots db' sel,
      Expands ((w.connection.store.takeCompleter id).2.issue .multi) w.selected ms s' fs slots db'
      ∧ Emits w s' sel
          (.message w.connection.store.messages.size :: fs
            ++ [.exec ⟨slots, (w.connection.store.takeCompleter id).1⟩])
          (w.writeBatch id ms)
      ∧ (sel = none ∨ sel = w.selected ∧ db' = w.selected) := by
  obtain ⟨s', fs, slots, hexp, hemit, hslots, hsw⟩ :=
    BlockWriter.foldl_writeMember (openBlock_emits hr id) hr ms
  rw [openBlock_db hr] at hexp hsw
  have hslots : (ms.foldl BlockWriter.writeMember (w.openBlock id)).slots = slots :=
    hslots.trans (List.nil_append slots)
  have hexec := hemit.push hr (.exec ⟨slots, (w.connection.store.takeCompleter id).1⟩)
  rw [writeBatch_eq]
  dsimp only
  rw [hemit.next hr, hslots, hexec.next hr]
  -- a block that has switched leaves the selected database unknown
  cases hswitched : (ms.foldl BlockWriter.writeMember (w.openBlock id)).switched with
  | true => exact ⟨s', fs, slots, _, none, hexp, hexec.withSelected none, Or.inl rfl⟩
  | false =>
      exact ⟨s', fs, slots, _, w.selected, hexp, hexec, Or.inr ⟨rfl, (hsw hswitched).2⟩⟩

end Writer

/-! ## What has been expanded -/

namespace Expands

variable {s s' : Store} {db db' : Option Database} {ids : List MessageId} {fs : List InFlight}
variable {slots : List (Option MessageId)}

theorem stays_sends (s : Store) (id : MessageId) : s.Sends ((s.markSent id).2.wrap id) :=
  (s.markSent_sends id).trans (Store.wrap_sends _ id)

theorem stays_isEnvelope (s : Store) (id : MessageId) :
    ((s.markSent id).2.wrap id).IsEnvelope s.messages.size id := by
  rw [← s.markSent_size id]
  exact Store.wrap_isEnvelope _ id

/-- The store after a choice of the database `d` and then a member have been put into a block. -/
def moved (s : Store) (id : MessageId) (d : Database) : Store :=
  (((s.markSent id).2.create (.select d)).2.wrap s.messages.size).wrap id

theorem moved_sends (s : Store) (id : MessageId) (d : Database) : s.Sends (moved s id d) :=
  (s.markSent_sends id).trans ((Store.create_sends _ _).trans
    ((Store.wrap_sends _ _).trans (Store.wrap_sends _ id)))

theorem moved_choice_size (s : Store) (id : MessageId) (d : Database) :
    ((s.markSent id).2.create (.select d)).2.messages.size = s.messages.size + 1 := by
  rw [Store.create_size, Store.markSent_size]

theorem moved_carries (s : Store) (id : MessageId) (d : Database) :
    (moved s id d).Carries s.messages.size (.select d) := by
  have hcreate := (s.markSent id).2.create_carries (.select d)
  rw [Store.markSent_size] at hcreate
  exact ((Store.wrap_sends _ _).grows.trans (Store.wrap_sends _ id).grows).carries hcreate

theorem moved_choice (s : Store) (id : MessageId) (d : Database) :
    (moved s id d).IsEnvelope (s.messages.size + 1) s.messages.size := by
  have hwrap := ((s.markSent id).2.create (.select d)).2.wrap_isEnvelope s.messages.size
  rw [moved_choice_size] at hwrap
  exact (Store.wrap_sends _ id).grows.isEnvelope hwrap

theorem moved_member (s : Store) (id : MessageId) (d : Database) :
    (moved s id d).IsEnvelope (s.messages.size + 2) id := by
  have hwrap := (((s.markSent id).2.create (.select d)).2.wrap s.messages.size).wrap_isEnvelope id
  rw [Store.wrap_size, moved_choice_size] at hwrap
  exact hwrap

theorem sends (h : Expands s db ids s' fs slots db') : s.Sends s' := by
  induction h with
  | nil s db => exact .refl s
  | skipped hp rest ih => exact ih
  | stays hp hm hstay rest ih => exact (stays_sends _ _).trans ih
  | moves hp hm hd hne hs rest ih => exact (moved_sends _ _ _).trans ih

/-- Each frame of the inside of a block is a new envelope. -/
theorem frames_fresh (h : Expands s db ids s' fs slots db') :
    ∀ f ∈ fs, ∃ e inner, f = .message e ∧ s'.IsEnvelope e inner ∧ s.messages.size ≤ e := by
  induction h with
  | nil s db =>
      intro f hf
      cases hf
  | skipped hp rest ih => exact ih
  | @stays s _ _ _ id _ _ _ _ hp hm hstay rest ih =>
      have hsize := (stays_sends s id).size
      intro f hf
      rcases List.mem_cons.mp hf with rfl | hf
      · exact ⟨_, id, rfl, rest.sends.grows.isEnvelope (stays_isEnvelope s id), Nat.le_refl _⟩
      · obtain ⟨e, inner, hfe, he, hle⟩ := ih f hf
        exact ⟨e, inner, hfe, he, Nat.le_trans hsize hle⟩
  | @moves s _ _ _ id _ _ _ _ d hp hm hd hne hs rest ih =>
      have hsize := (moved_sends s id d).size
      intro f hf
      -- the envelope around the choice of the database comes before that around the member
      rcases List.mem_cons.mp hf with rfl | hf
      · exact ⟨_, _, rfl, rest.sends.grows.isEnvelope (moved_choice s id d), by omega⟩
      rcases List.mem_cons.mp hf with rfl | hf
      · exact ⟨_, id, rfl, rest.sends.grows.isEnvelope (moved_member s id d), by omega⟩
      · obtain ⟨e, inner, hfe, he, hle⟩ := ih f hf
        exact ⟨e, inner, hfe, he, Nat.le_trans hsize hle⟩

end Expands

/-! ## The layout of a block -/

/-- The members of a batch that have not been cancelled, each at its first place. -/
def Store.live (s : Store) (ids : List MessageId) : List MessageId :=
  (ids.filter fun id => s.phase id = .notSent).eraseDups

/-- The first occurrences of the items of a list. -/
theorem eraseDups_spec (l : List MessageId) :
    l.eraseDups.Nodup ∧ ∀ x, x ∈ l.eraseDups ↔ x ∈ l := by
  induction hn : l.length using Nat.strongRecOn generalizing l with
  | ind n ih =>
      cases l with
      | nil => simp
      | cons a l =>
          have hlt : (l.filter fun b => !b == a).length < n := by
            rw [← hn, List.length_cons]
            exact Nat.lt_succ_of_le (List.length_filter_le _ _)
          obtain ⟨hnodup, hmem⟩ := ih _ hlt _ rfl
          rw [List.eraseDups_cons]
          constructor
          · rw [List.nodup_cons, hmem]
            exact ⟨by simp, hnodup⟩
          · intro x
            rw [List.mem_cons, hmem, List.mem_cons, List.mem_filter]
            by_cases hx : x = a
            · simp [hx]
            · simp [hx]

theorem Store.live_nodup (s : Store) (ids : List MessageId) : (s.live ids).Nodup :=
  (eraseDups_spec _).1

theorem Store.mem_live {s : Store} {ids : List MessageId} {j : MessageId} :
    j ∈ s.live ids ↔ j ∈ ids ∧ s.phase j = .notSent := by
  unfold Store.live
  rw [(eraseDups_spec _).2]
  simp

theorem Store.live_skipped {s : Store} {id : MessageId} (hp : s.phase id ≠ .notSent)
    (ids : List MessageId) : s.live (id :: ids) = s.live ids := by
  unfold Store.live
  rw [List.filter_cons_of_neg (by simpa using hp)]

/-- The first member is the head, and the others are those that are live when it has been picked
up. -/
theorem Store.live_picked {s s' : Store} {id : MessageId} {ids : List MessageId}
    (hp : s.phase id = .notSent)
    (h : ∀ j ∈ ids, s'.phase j = .notSent ↔ s.phase j = .notSent ∧ j ≠ id) :
    s.live (id :: ids) = id :: s'.live ids := by
  unfold Store.live
  rw [List.filter_cons_of_pos (by simpa using hp), List.eraseDups_cons, List.filter_filter]
  congr 2
  refine List.filter_congr fun j hj => ?_
  rw [Bool.eq_iff_iff]
  simp only [Bool.and_eq_true, decide_eq_true_eq, Bool.not_eq_true', beq_eq_false_iff_ne]
  rw [h j hj]
  exact And.comm

/-- The inside of a block that starts in the database `db` and ends in the database `db'`: for
each message one slot and an envelope around it, before which there may be an envelope around a
choice of its database, with a slot for no message. -/
inductive Layout (s : Store) : Option Database → List MessageId →
    List InFlight → List (Option MessageId) → Option Database → Prop where
  | nil (db : Option Database) : Layout s db [] [] [] db
  | stays {db db' : Option Database} {id e : MessageId} {ids : List MessageId}
      {fs : List InFlight} {slots : List (Option MessageId)} {m : Message}
      (hm : s.draft? id = some m)
      (hstay : ∀ d, m.request.db = some d → db = some d ∨ m.isSelect = true)
      (he : s.IsEnvelope e id)
      (rest : Layout s (m.request.db.or db) ids fs slots db') :
      Layout s db (id :: ids) (.message e :: fs) (some id :: slots) db'
  | moves {db db' : Option Database} {id e choice ce : MessageId} {ids : List MessageId}
      {fs : List InFlight} {slots : List (Option MessageId)} {m : Message} {d : Database}
      (hm : s.draft? id = some m) (hd : m.request.db = some d) (hne : db ≠ some d)
      (hs : m.isSelect = false)
      (hchoice : s.Carries choice (.select d)) (hce : s.IsEnvelope ce choice)
      (he : s.IsEnvelope e id)
      (rest : Layout s (some d) ids fs slots db') :
      Layout s db (id :: ids) (.message ce :: .message e :: fs) (none :: some id :: slots) db'

namespace Layout

variable {s : Store} {db db' : Option Database} {ids : List MessageId} {fs : List InFlight}
variable {slots : List (Option MessageId)}

/-- The slots are those of the messages, in order. -/
theorem members (h : Layout s db ids fs slots db') : slots.filterMap id = ids := by
  induction h with
  | nil db => rfl
  | stays hm hstay he rest ih => exact congrArg _ ih
  | moves hm hd hne hs hchoice hce he rest ih => exact congrArg _ ih

/-- There are as many frames as slots. -/
theorem length (h : Layout s db ids fs slots db') : fs.length = slots.length := by
  induction h with
  | nil db => rfl
  | stays hm hstay he rest ih => simp [ih]
  | moves hm hd hne hs hchoice hce he rest ih => simp [ih]

/-- The slot of a message is at the place of the envelope around it. -/
theorem position (h : Layout s db ids fs slots db') {i : Nat} {j : MessageId}
    (hi : slots[i]? = some (some j)) : ∃ e, fs[i]? = some (.message e) ∧ s.IsEnvelope e j := by
  induction h generalizing i with
  | nil db => simp at hi
  | @stays _ _ id e _ _ _ _ hm hstay he rest ih =>
      cases i with
      | zero =>
          obtain rfl : id = j := by simpa using hi
          exact ⟨e, rfl, he⟩
      | succ i => exact ih hi
  | @moves _ _ id e choice ce _ _ _ _ _ hm hd hne hs hchoice hce he rest ih =>
      rcases i with _ | _ | i
      · simp at hi
      · obtain rfl : id = j := by simpa using hi
        exact ⟨e, rfl, he⟩
      · exact ih hi

end Layout

namespace Expands

variable {s s' : Store} {db db' : Option Database} {ids : List MessageId} {fs : List InFlight}
variable {slots : List (Option MessageId)}

theorem markSent_notSent_iff {id j : MessageId} (hp : s.phase id = .notSent) :
    (s.markSent id).2.phase j = .notSent ↔ s.phase j = .notSent ∧ j ≠ id := by
  constructor
  · intro hj
    refine ⟨s.markSent_notSent id hj, ?_⟩
    rintro rfl
    rw [Store.markSent_phase_self hp] at hj
    cases hj
  · rintro ⟨hj, hne⟩
    rw [Store.phase_congr (Store.markSent_messages_ne hne.symm)]
    exact hj

theorem stays_messages {id j : MessageId} (hj : j < s.messages.size) :
    ((s.markSent id).2.wrap id).messages[j]? = (s.markSent id).2.messages[j]? :=
  Store.wrap_messages_of_lt id (by rw [Store.markSent_size]; exact hj)

theorem moved_messages {id j : MessageId} {d : Database} (hj : j < s.messages.size) :
    (moved s id d).messages[j]? = (s.markSent id).2.messages[j]? := by
  have hcreate := moved_choice_size s id d
  have hlt : j < (s.markSent id).2.messages.size := by
    rw [Store.markSent_size]
    exact hj
  calc (moved s id d).messages[j]?
      = (((s.markSent id).2.create (.select d)).2.wrap s.messages.size).messages[j]? :=
        Store.wrap_messages_of_lt id (by
          rw [Store.wrap_size, hcreate]
          exact Nat.lt_succ_of_lt (Nat.lt_succ_of_lt hj))
    _ = ((s.markSent id).2.create (.select d)).2.messages[j]? :=
        Store.wrap_messages_of_lt _ (by
          rw [hcreate]
          exact Nat.lt_succ_of_lt hj)
    _ = (s.markSent id).2.messages[j]? := Store.add_messages_of_lt _ hlt

/-- The inside of a block is laid out for the live members. -/
theorem layout (h : Expands s db ids s' fs slots db') (hids : ∀ j ∈ ids, j < s.messages.size) :
    Layout s' db (s.live ids) fs slots db' := by
  induction h with
  | nil s db => exact .nil db
  | @skipped s _ _ _ id ids _ _ hp rest ih =>
      rw [Store.live_skipped hp]
      exact ih fun j hj => hids j (List.mem_cons_of_mem id hj)
  | @stays s _ _ _ id ids _ _ m hp hm hstay rest ih =>
      have hsends := stays_sends s id
      have htail : ∀ j ∈ ids, j < s.messages.size := fun j hj =>
        hids j (List.mem_cons_of_mem id hj)
      -- the members that are left are live as before, since only `id` has been picked up
      have hlive : s.live (id :: ids) = id :: ((s.markSent id).2.wrap id).live ids := by
        refine Store.live_picked hp fun j hj => ?_
        rw [Store.phase_congr (stays_messages (htail j hj))]
        exact markSent_notSent_iff hp
      rw [hlive]
      have hgrows := hsends.grows.trans rest.sends.grows
      exact .stays (hgrows id _ (Store.draft?_of_get hm)) hstay
        (rest.sends.grows.isEnvelope (stays_isEnvelope s id))
        (ih fun j hj => Nat.lt_of_lt_of_le (htail j hj) hsends.size)
  | @moves s _ _ _ id ids _ _ m d hp hm hd hne hs rest ih =>
      have hsends := moved_sends s id d
      have htail : ∀ j ∈ ids, j < s.messages.size := fun j hj =>
        hids j (List.mem_cons_of_mem id hj)
      have hlive : s.live (id :: ids) = id :: (moved s id d).live ids := by
        refine Store.live_picked hp fun j hj => ?_
        rw [Store.phase_congr (moved_messages (htail j hj))]
        exact markSent_notSent_iff hp
      rw [hlive]
      have hgrows := hsends.grows.trans rest.sends.grows
      exact .moves (hgrows id _ (Store.draft?_of_get hm)) hd hne hs
        (rest.sends.grows.carries (moved_carries s id d))
        (rest.sends.grows.isEnvelope (moved_choice s id d))
        (rest.sends.grows.isEnvelope (moved_member s id d))
        (ih fun j hj => Nat.lt_of_lt_of_le (htail j hj) hsends.size)

end Expands

end RespMux
