import RespMux.Connection.Outgoing
import RespMux.Proofs.Store.Sends

/-!
# What the outgoing pump emits

Whatever the pump writes goes into the ledger and into the buffer at the same time. `Emits` says
that nothing else happens, apart from the store, the selected database and the counters; emissions
compose (`Emits.trans`). For each operation of the pump one lemma says what it emits, as long as
the pump has not failed and the ledger is open (`Writer.Ready`). Under these conditions no
operation fails.
-/

set_option autoImplicit false

namespace RespMux

namespace Writer

/-- The pump works, and frames can be recorded. -/
structure Ready (w : Writer) : Prop where
  fault : w.fault = none
  ledger : w.connection.ledger.isClosed = false

/-- The pump after it has recorded some frames, with a new store, a new selected database and new
counters. -/
def after (w : Writer) (s : Store) (db : Option Database) (fs : List InFlight) (n : Counters) :
    Writer :=
  { w with
    connection :=
      { w.connection with
        store := s
        ledger := { w.connection.ledger with entries := w.connection.ledger.entries ++ fs }
        counters := n }
    selected := db
    buffer := w.buffer ++ fs }

/-- `w'` is the pump after it has recorded the frames `fs`, when the store has become `s` and the
selected database `db`. -/
def Emits (w : Writer) (s : Store) (db : Option Database) (fs : List InFlight) (w' : Writer) :
    Prop :=
  ∃ n, w' = w.after s db fs n

variable {w w₁ w' : Writer} {s s' : Store} {db db' : Option Database} {fs fs' : List InFlight}

theorem Emits.trans (h : Emits w s db fs w₁) (h' : Emits w₁ s' db' fs' w') :
    Emits w s' db' (fs ++ fs') w' := by
  obtain ⟨n, rfl⟩ := h
  obtain ⟨n', rfl⟩ := h'
  refine ⟨n', ?_⟩
  simp only [after, List.append_assoc]

theorem Emits.ready (h : Emits w s db fs w') (hr : w.Ready) : w'.Ready := by
  obtain ⟨n, rfl⟩ := h
  exact ⟨hr.fault, hr.ledger⟩

theorem Emits.store (h : Emits w s db fs w') : w'.connection.store = s := by
  obtain ⟨n, rfl⟩ := h
  rfl

theorem Emits.selected (h : Emits w s db fs w') : w'.selected = db := by
  obtain ⟨n, rfl⟩ := h
  rfl

theorem Emits.entries (h : Emits w s db fs w') :
    w'.connection.ledger.entries = w.connection.ledger.entries ++ fs := by
  obtain ⟨n, rfl⟩ := h
  rfl

/-- The pump records frames in the buffer, and nothing that has been written changes. -/
theorem Emits.tape (h : Emits w s db fs w') :
    w'.written ++ w'.buffer = w.written ++ w.buffer ++ fs := by
  obtain ⟨n, rfl⟩ := h
  exact (List.append_assoc _ _ _).symm

theorem Emits.refl (w : Writer) : Emits w w.connection.store w.selected [] w := by
  refine ⟨w.connection.counters, ?_⟩
  simp only [after, List.append_nil]

/-! ## Single frames -/

theorem Emits.withStore (h : Emits w s db fs w') (s' : Store) :
    Emits w s' db fs (w'.withStore s') := by
  obtain ⟨n, rfl⟩ := h
  exact ⟨n, rfl⟩

theorem Emits.withSelected (h : Emits w s db fs w') (db' : Option Database) :
    Emits w s db' fs { w' with selected := db' } := by
  obtain ⟨n, rfl⟩ := h
  exact ⟨n, rfl⟩

theorem Emits.count (h : Emits w s db fs w') (t : Traffic) : Emits w s db fs (w'.count t) := by
  obtain ⟨n, rfl⟩ := h
  exact ⟨n.count t, rfl⟩

theorem Emits.useDatabase (h : Emits w s db fs w') (d : Database) :
    Emits w s db fs (w'.useDatabase d) := by
  obtain ⟨n, rfl⟩ := h
  exact ⟨n.useDatabase d, rfl⟩

/-- A pump that has not failed goes on. -/
theorem Emits.next (h : Emits w s db fs w') (hr : w.Ready) (f : Writer → Writer) :
    w'.next f = f w' := by
  unfold Writer.next
  rw [(h.ready hr).fault]
  rfl

theorem push_of_ready (hr : w.Ready) (f : InFlight) :
    w.push f = w.after w.connection.store w.selected [f] (w.connection.counters.count .sent) := by
  have hpush : w.connection.ledger.push f
      = .ok { w.connection.ledger with entries := w.connection.ledger.entries ++ [f] } := by
    unfold Ledger.push
    rw [if_neg (by rw [hr.ledger]; decide)]
  unfold push
  rw [hpush]
  rfl

theorem Emits.push (h : Emits w s db fs w') (hr : w.Ready) (f : InFlight) :
    Emits w s db (fs ++ [f]) (w'.push f) := by
  have hself : Emits w' w'.connection.store w'.selected [f] (w'.push f) :=
    ⟨_, push_of_ready (h.ready hr) f⟩
  rw [h.store, h.selected] at hself
  exact h.trans hself

theorem Emits.pushOwn (h : Emits w s db fs w') (hr : w.Ready) (r : Request) :
    Emits w (s.issue r) db (fs ++ [.message s.messages.size]) (w'.pushOwn r) := by
  have hpush := (h.withStore (w'.connection.store.issue r)).push hr
    (.message w'.connection.store.messages.size)
  rw [h.store] at hpush
  unfold Writer.pushOwn
  rw [h.store]
  exact hpush

theorem Emits.pushEnvelope (h : Emits w s db fs w') (hr : w.Ready) (id : MessageId) :
    Emits w (s.wrap id) db (fs ++ [.message s.messages.size]) (w'.pushEnvelope id) := by
  have hpush := (h.withStore (w'.connection.store.wrap id)).push hr
    (.message w'.connection.store.messages.size)
  rw [h.store] at hpush
  unfold Writer.pushEnvelope
  rw [h.store]
  exact hpush

/-! ## Single messages -/

theorem select_of_eq {d : Database} (h : w.selected = some d) : w.select d = w := by
  unfold select
  rw [if_pos h]

theorem select_emits (hr : w.Ready) {d : Database} (h : w.selected ≠ some d) :
    Emits w (w.connection.store.issue (.select d)) (some d)
      [.message w.connection.store.messages.size] (w.select d) := by
  have hpush := (Emits.refl w).pushOwn hr (.select d)
  unfold select
  rw [if_neg h, hpush.next hr]
  exact hpush.withSelected (some d)

/-- A message that is no choice of a database is written as it is, if it is for no database or for
the one that is selected. -/
theorem writeMessage_emits (hr : w.Ready) {id : MessageId} {m : Message}
    (hm : w.connection.store.messages[id]? = some m) (hs : m.isSelect = false)
    (hdb : ∀ d, m.request.db = some d → w.selected = some d) :
    Emits w w.connection.store w.selected [.message id] (w.writeMessage id) := by
  have hstart := Emits.refl w
  unfold writeMessage
  rw [hm]
  dsimp only
  rw [if_neg (by rw [hs]; decide)]
  cases hd : m.request.db with
  | none => exact hstart.push hr _
  | some d =>
      dsimp only
      rw [select_of_eq (hdb d hd), hstart.next hr]
      exact (hstart.useDatabase d).push hr _

/-- Otherwise the pump has that database selected first. -/
theorem writeMessage_emits_select (hr : w.Ready) {id : MessageId} {m : Message} {d : Database}
    (hm : w.connection.store.messages[id]? = some m) (hs : m.isSelect = false)
    (hdb : m.request.db = some d) (hne : w.selected ≠ some d) :
    Emits w (w.connection.store.issue (.select d)) (some d)
      [.message w.connection.store.messages.size, .message id] (w.writeMessage id) := by
  have hselect := select_emits hr hne
  unfold writeMessage
  rw [hm]
  dsimp only
  rw [if_neg (by rw [hs]; decide), hdb]
  dsimp only
  rw [hselect.next hr]
  exact (hselect.useDatabase d).push hr _

/-- A choice of a database by a caller counts as such. -/
theorem writeMessage_emits_choice (hr : w.Ready) {id : MessageId} {m : Message}
    (hm : w.connection.store.messages[id]? = some m) (hs : m.isSelect = true) :
    Emits w w.connection.store m.request.db [.message id] (w.writeMessage id) := by
  unfold writeMessage
  rw [hm]
  dsimp only
  rw [if_pos hs]
  exact ((Emits.refl w).withSelected m.request.db).push hr _

end Writer

end RespMux
