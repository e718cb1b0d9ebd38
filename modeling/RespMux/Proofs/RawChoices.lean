import RespMux.Proofs.Alignment

/-!
# Choices of a database that do not say which

A caller may send a choice of a database by hand. Nobody looks at its arguments, so if it is for no
database the pump cannot know where it leads. On its own such a message leaves the selected database
unknown (`round_knows`), and the next command for a database is preceded by a choice of it.

In a block it is passed over. There a choice is put in front of a member if the database that was
named last, by a member or before the block, is another one (`Layout.placed`), and the selected
database is forgotten if a member is for another one than the block began in (`foldl_switched`). A
choice that does not say which names no database, so it counts for neither
(`raw_choice_passed_over`). The command behind it runs wherever it leads. As long as there is no
such choice, the members of a block are treated like messages of their own (`named_eq_known`).
-/

set_option autoImplicit false

namespace RespMux

/-! ## The database that has been named last -/

namespace Store

variable {s s' : Store} {db : Option Database} {j : MessageId} {ids : List MessageId}

/-- The message is a choice of a database. -/
def chooses (s : Store) (id : MessageId) : Bool := (s.draft? id).any Message.isSelect

/-- The message is a choice of a database that does not say which. -/
def ChoosesRaw (s : Store) (id : MessageId) : Prop :=
  s.chooses id = true ∧ (s.requestOf id).db = none

/-- The database that the messages name last, or else `db`. -/
def named (s : Store) (db : Option Database) (ids : List MessageId) : Option Database :=
  ids.foldl (fun db id => (s.requestOf id).db.or db) db

/-- The database that is known to be selected after a message of its own. -/
def knownAfter (s : Store) (db : Option Database) (id : MessageId) : Option Database :=
  if s.chooses id then (s.requestOf id).db else (s.requestOf id).db.or db

/-- The database that is known to be selected after messages of their own. -/
def known (s : Store) (db : Option Database) (ids : List MessageId) : Option Database :=
  ids.foldl s.knownAfter db

/-- The message `id`, after the messages `before` in a block, is for the database `d`, and the
server is not taken to be there. -/
def Needs (s : Store) (db : Option Database) (before : List MessageId) (id : MessageId)
    (d : Database) : Prop :=
  (s.requestOf id).db = some d ∧ s.chooses id = false ∧ s.named db before ≠ some d

/-- Some live message is for another database than `db`. -/
def Leaves (s : Store) (db : Option Database) (ids : List MessageId) : Prop :=
  ∃ j ∈ s.live ids, ∃ d, (s.requestOf j).db = some d ∧ db ≠ some d

theorem Grows.requestOf (h : s.Grows s') (hj : j < s.messages.size) :
    s'.requestOf j = s.requestOf j := by
  have hm := draft?_of_get (Array.getElem?_eq_getElem hj)
  rw [requestOf_of_draft? (h j _ hm), requestOf_of_draft? hm]

theorem Grows.chooses (h : s.Grows s') (hj : j < s.messages.size) :
    s'.chooses j = s.chooses j := by
  have hm := draft?_of_get (Array.getElem?_eq_getElem hj)
  unfold Store.chooses
  rw [h j _ hm, hm]

theorem Grows.named (h : s.Grows s') (hids : ∀ j ∈ ids, j < s.messages.size) :
    s'.named db ids = s.named db ids := by
  unfold Store.named
  induction ids generalizing db with
  | nil => rfl
  | cons i ids ih =>
    rw [List.foldl_cons, List.foldl_cons, h.requestOf (hids i List.mem_cons_self)]
    exact ih fun j hj => hids j (List.mem_cons_of_mem i hj)

theorem named_append_singleton (s : Store) (db : Option Database) (ids : List MessageId)
    (j : MessageId) : s.named db (ids ++ [j]) = (s.requestOf j).db.or (s.named db ids) :=
  List.foldl_append

theorem knownAfter_of_not_raw (h : ¬ s.ChoosesRaw j) (db : Option Database) :
    s.knownAfter db j = (s.requestOf j).db.or db := by
  unfold knownAfter
  split
  · next hchooses =>
    have hd : (s.requestOf j).db ≠ none := fun hd => h ⟨hchooses, hd⟩
    obtain ⟨d, hd⟩ := Option.ne_none_iff_exists'.1 hd
    rw [hd]
    rfl
  · rfl

/-- Messages that are for no database name none. -/
theorem named_append_of_none (h : ∀ j ∈ ids, (s.requestOf j).db = none) (db : Option Database)
    (before : List MessageId) : s.named db (before ++ ids) = s.named db before := by
  induction ids generalizing before with
  | nil => rw [List.append_nil]
  | cons i ids ih =>
    rw [List.append_cons, ih (fun j hj => h j (List.mem_cons_of_mem i hj)), named_append_singleton,
      h i List.mem_cons_self]
    rfl

/-- Without raw choices the members of a block are treated as if they were on their own. -/
theorem named_eq_known (h : ∀ j ∈ ids, ¬ s.ChoosesRaw j) : s.named db ids = s.known db ids := by
  unfold named known
  induction ids generalizing db with
  | nil => rfl
  | cons i ids ih =>
    rw [List.foldl_cons, List.foldl_cons, knownAfter_of_not_raw (h i List.mem_cons_self)]
    exact ih fun j hj => h j (List.mem_cons_of_mem i hj)

end Store

/-! ## Inside of a block -/

namespace Store

/-- The slots `front` in front of the message `j` of a block with the frames `fs` are those of the
messages `before`, and the last of them is for a choice if one was needed. -/
structure Placed (s : Store) (db : Option Database) (before : List MessageId) (j : MessageId)
    (fs : List InFlight) (front : List (Option MessageId)) : Prop where
  members : front.filterMap id = before
  chosen : front.getLast? = some none ↔ ∃ d, s.Needs db before j d
  choice : ∀ d, s.Needs db before j d → ∃ x choice, fs[front.length - 1]? = some (.message x)
    ∧ s.IsEnvelope x choice ∧ s.Carries choice (.select d)

variable {s : Store} {db : Option Database} {before : List MessageId} {i j : MessageId}
variable {fs : List InFlight} {front : List (Option MessageId)}

/-- Another message comes in front, maybe with a choice before it. -/
theorem Placed.cons (h : s.Placed ((s.requestOf i).db.or db) before j fs front)
    (slots : List (Option MessageId)) (fs₀ : List InFlight) (hslots : slots.filterMap id = [])
    (hlen : fs₀.length = slots.length + 1) :
    s.Placed db (i :: before) j (fs₀ ++ fs) (slots ++ some i :: front) := by
  have hneeds : ∀ d, s.Needs db (i :: before) j d ↔
      s.Needs ((s.requestOf i).db.or db) before j d := fun d => Iff.rfl
  have hlast : (slots ++ some i :: front).getLast? = some none ↔ front.getLast? = some none := by
    rw [List.getLast?_append, List.getLast?_cons]
    cases front.getLast? <;> simp
  refine ⟨?_, ?_, fun d hd => ?_⟩
  · rw [List.filterMap_append, hslots, List.nil_append, ← h.members]
    rfl
  · rw [hlast, h.chosen]
    exact exists_congr fun d => (hneeds d).symm
  · have hne : front ≠ [] := by
      rintro rfl
      cases h.chosen.2 ⟨d, (hneeds d).1 hd⟩
    have hpos := List.length_pos_of_ne_nil hne
    have hindex : (slots ++ some i :: front).length - 1 = fs₀.length + (front.length - 1) := by
      rw [List.length_append, List.length_cons, hlen]
      omega
    rw [hindex, List.getElem?_append_right (Nat.le_add_right _ _), Nat.add_sub_cancel_left]
    exact h.choice d ((hneeds d).1 hd)

end Store

/-- Every message of a block is placed behind those before it. -/
theorem Layout.placed {s : Store} {db db' : Option Database} {ids : List MessageId}
    {fs : List InFlight} {slots : List (Option MessageId)} (h : Layout s db ids fs slots db')
    {before after : List MessageId} {j : MessageId} (hids : ids = before ++ j :: after) :
    ∃ front back, slots = front ++ some j :: back ∧ s.Placed db before j fs front := by
  induction h generalizing before with
  | nil db => cases before <;> cases hids
  | @stays db _ i e _ fs slots m hm hstay he rest ih =>
    have hrequest := Store.requestOf_of_draft? hm
    cases before with
    | nil =>
      obtain ⟨rfl, -⟩ := List.cons.inj hids
      have hnot : ¬ ∃ d, s.Needs db [] i d := by
        rintro ⟨d, hd, hchooses, hne⟩
        rw [hrequest] at hd
        refine (hstay d hd).elim hne fun hs => ?_
        simp [Store.chooses, hm, hs] at hchooses
      exact ⟨[], slots, rfl, rfl, iff_of_false (fun hf => by cases hf) hnot,
        fun d hd => absurd ⟨d, hd⟩ hnot⟩
    | cons k before =>
      obtain ⟨rfl, htail⟩ := List.cons.inj hids
      obtain ⟨front, back, rfl, hplaced⟩ := ih htail
      rw [← hrequest] at hplaced
      exact ⟨some i :: front, back, rfl, hplaced.cons [] [.message e] rfl rfl⟩
  | @moves db _ i e choice ce _ fs slots m d hm hd hne hs hchoice hce he rest ih =>
    have hrequest := Store.requestOf_of_draft? hm
    cases before with
    | nil =>
      obtain ⟨rfl, -⟩ := List.cons.inj hids
      have hneeds : ∀ d', s.Needs db [] i d' ↔ d' = d := by
        intro d'
        unfold Store.Needs
        rw [hrequest, hd]
        constructor
        · rintro ⟨hd', -, -⟩
          exact (Option.some.inj hd').symm
        · rintro rfl
          exact ⟨rfl, by simp [Store.chooses, hm, hs], hne⟩
      refine ⟨[none], slots, rfl, rfl, iff_of_true rfl ⟨d, (hneeds d).2 rfl⟩, fun d' hd' => ?_⟩
      obtain rfl := (hneeds d').1 hd'
      exact ⟨ce, choice, rfl, hce, hchoice⟩
    | cons k before =>
      obtain ⟨rfl, htail⟩ := List.cons.inj hids
      obtain ⟨front, back, rfl, hplaced⟩ := ih htail
      have hdb : (s.requestOf i).db.or db = some d := by
        rw [hrequest, hd]
        rfl
      rw [← hdb] at hplaced
      exact ⟨none :: some i :: front, back, rfl,
        hplaced.cons [none] [.message ce, .message e] rfl rfl⟩

/-! ## The database after a block -/

namespace Writer

namespace BlockWriter

variable {w : Writer} {b : BlockWriter} {s : Store} {sel db : Option Database}
variable {fs : List InFlight} {id : MessageId} {m : Message}

theorem moveTo_db (b : BlockWriter) (d : Database) (isSelect : Bool) :
    (b.moveTo d isSelect).db = some d := by
  unfold moveTo
  split
  · next h => exact h
  · rfl

theorem moveTo_switched (b : BlockWriter) (d : Database) (isSelect : Bool) :
    (b.moveTo d isSelect).switched = true ↔ b.switched = true ∨ b.db ≠ some d := by
  unfold moveTo
  by_cases h : b.db = some d
  · simp [h]
  · simp [h]

theorem writeMember_db (h : Emits w s sel fs b.writer) (hr : w.Ready)
    (hp : s.phase id = .notSent) (hm : s.messages[id]? = some m) :
    (b.writeMember id).db = m.request.db.or b.db := by
  rw [writeMember_picked h hr hp hm]
  cases hd : m.request.db with
  | none => rfl
  | some d => exact moveTo_db _ d m.isSelect

theorem writeMember_switched (h : Emits w s sel fs b.writer) (hr : w.Ready)
    (hp : s.phase id = .notSent) (hm : s.messages[id]? = some m) :
    (b.writeMember id).switched = true ↔
      b.switched = true ∨ ∃ d, m.request.db = some d ∧ b.db ≠ some d := by
  rw [writeMember_picked h hr hp hm]
  cases hd : m.request.db with
  | none => simp
  | some d =>
    refine (moveTo_switched _ d m.isSelect).trans (or_congr_right ?_)
    simp

/-- A member that has not been cancelled is picked up, and the others stay as they are. -/
theorem writeMember_emits (h : Emits w s sel fs b.writer) (hr : w.Ready)
    (hp : s.phase id = .notSent) (hm : s.messages[id]? = some m) :
    ∃ s' fs', Emits w s' sel fs' (b.writeMember id).writer ∧ s.Sends s'
      ∧ ∀ j < s.messages.size, s'.phase j = .notSent ↔ s.phase j = .notSent ∧ j ≠ id := by
  by_cases hstay : ∀ d, m.request.db = some d → b.db = some d ∨ m.isSelect = true
  · refine ⟨_, _, (writeMember_stays h hr hp hm hstay).1, Expands.stays_sends s id, fun j hj => ?_⟩
    rw [Store.phase_congr (Expands.stays_messages hj)]
    exact Expands.markSent_notSent_iff hp
  · obtain ⟨d, hd⟩ := Classical.not_forall.mp hstay
    rw [Classical.not_imp, not_or, Bool.not_eq_true] at hd
    obtain ⟨hd, hne, hs⟩ := hd
    refine ⟨_, _, (writeMember_moves h hr hp hm hd hne hs).1, Expands.moved_sends s id d,
      fun j hj => ?_⟩
    show (Expands.moved s id d).phase j = .notSent ↔ _
    rw [Store.phase_congr (Expands.moved_messages hj)]
    exact Expands.markSent_notSent_iff hp

/-- A block has switched as soon as a member is for another database than the one it began in. -/
theorem foldl_switched (h : Emits w s sel fs b.writer) (hr : w.Ready) {ids : List MessageId}
    (hids : ∀ j ∈ ids, j < s.messages.size) (hdb : b.switched = false → b.db = db) :
    (ids.foldl writeMember b).switched = true ↔ b.switched = true ∨ s.Leaves db ids := by
  induction ids generalizing s fs b with
  | nil => simp [Store.Leaves, Store.live]
  | cons id ids ih =>
    rw [List.foldl_cons]
    have htail : ∀ j ∈ ids, j < s.messages.size := fun j hj => hids j (List.mem_cons_of_mem id hj)
    by_cases hp : s.phase id = .notSent
    · obtain ⟨m, hm⟩ := Store.exists_get_of_phase_ne (by rw [hp]; decide)
      obtain ⟨s', fs', hemit, hsends, hlive⟩ := writeMember_emits h hr hp hm
      have hswitched := writeMember_switched h hr hp hm
      have hleaves : s.Leaves db (id :: ids) ↔
          (∃ d, m.request.db = some d ∧ db ≠ some d) ∨ s'.Leaves db ids := by
        unfold Store.Leaves
        rw [Store.live_picked hp fun j hj => hlive j (htail j hj)]
        rw [List.exists_mem_cons_iff, Store.requestOf_of_draft? (Store.draft?_of_get hm)]
        refine or_congr Iff.rfl (exists_congr fun j => and_congr_right fun hj => ?_)
        rw [hsends.grows.requestOf (htail j (Store.mem_live.1 hj).1)]
      rw [ih hemit (fun j hj => Nat.lt_of_lt_of_le (htail j hj) hsends.size) ?_, hswitched, hleaves]
      · cases hb : b.switched with
        | true => simp
        | false => rw [hdb hb, or_assoc]
      · intro hnot
        have hstays := mt hswitched.2 (Bool.eq_false_iff.1 hnot)
        rw [not_or, not_exists] at hstays
        have hb := hdb (Bool.eq_false_iff.2 hstays.1)
        rw [writeMember_db h hr hp hm, hb]
        cases hd : m.request.db with
        | none => rfl
        | some d => exact (hb.symm.trans (not_not.1 fun hne => hstays.2 d ⟨hd, hne⟩)).symm
    · rw [writeMember_skipped h hr hp]
      have hlive : s.Leaves db (id :: ids) ↔ s.Leaves db ids := by
        unfold Store.Leaves
        rw [Store.live_skipped hp]
      rw [hlive]
      exact ih (b := { b with writer := b.writer.count .cancelled }) (h.count .cancelled) htail hdb

end BlockWriter

/-- The selected database is forgotten after a block in which a member is for another one. -/
theorem writeBatch_selected {w : Writer} (hr : w.Ready) (id : MessageId) {ms : List MessageId}
    (hms : ∀ j ∈ ms, j < w.connection.store.messages.size) :
    (((w.connection.store.takeCompleter id).2.issue .multi).Leaves w.selected ms →
        (w.writeBatch id ms).selected = none)
      ∧ (¬ ((w.connection.store.takeCompleter id).2.issue .multi).Leaves w.selected ms →
        (w.writeBatch id ms).selected = w.selected) := by
  have hopen := openBlock_emits hr id
  have hswitched := BlockWriter.foldl_switched hopen hr
    (fun j hj => by
      rw [Store.issue_size, Store.takeCompleter_size]
      exact Nat.lt_succ_of_lt (hms j hj))
    (fun _ => openBlock_db hr id)
  obtain ⟨s', fs, slots, -, hemit, -, -⟩ := BlockWriter.foldl_writeMember hopen hr ms
  have hexec := hemit.push hr (.exec ⟨(ms.foldl BlockWriter.writeMember (w.openBlock id)).slots,
    (w.connection.store.takeCompleter id).1⟩)
  rw [writeBatch_eq]
  dsimp only
  rw [hemit.next hr, hexec.next hr]
  constructor
  · intro hleaves
    rw [if_pos (hswitched.2 (.inr hleaves))]
  · intro hleaves
    have hnot := mt hswitched.1 (not_or.2 ⟨Bool.false_ne_true, hleaves⟩)
    rw [if_neg hnot]
    exact hexec.selected

end Writer

/-- Whether a batch leaves a database does not depend on what is done for the batch itself. -/
theorem Store.leaves_start {s : Store} {id : MessageId} {ms : List MessageId}
    (hms : ∀ j ∈ ms, j ≠ id ∧ j < s.messages.size) (db : Option Database) :
    (((s.markSent id).2.takeCompleter id).2.issue .multi).Leaves db ms ↔ s.Leaves db ms := by
  have htaken : (s.markSent id).2.Grows ((s.markSent id).2.takeCompleter id).2 :=
    .of_draft? (takeCompleter_draft? _ id)
  have hgrows : s.Grows (((s.markSent id).2.takeCompleter id).2.issue .multi) :=
    (s.markSent_sends id).grows.trans (htaken.trans (issue_sends _ .multi).grows)
  unfold Leaves
  rw [live_start hms]
  refine exists_congr fun j => and_congr_right fun hj => ?_
  rw [hgrows.requestOf (hms j (mem_live.1 hj).1).2]

namespace Engine

variable {accepted : List MessageId} {e e' : Engine} {evs : List Event} {db : Option Database}
variable {id multi : MessageId} {ms : List MessageId} {fs : List InFlight} {b : Block}

/-- A round for a batch leaves the database selected, unless a member is for another one. -/
theorem round_selected (hs : e.Sound accepted)
    (hnext : (e.connection.queue.next?).map (fun x => x.1.1) = some id)
    (hb : e.store.IsBatch id ms) (hp : e.store.phase id = .notSent)
    (ha : e.connection.aborting = false) (hstep : e.step .round = some e') :
    (e.store.Leaves e.writer.selected ms → e'.writer.selected = none)
      ∧ (¬ e.store.Leaves e.writer.selected ms → e'.writer.selected = e.writer.selected) := by
  obtain ⟨i, overtook, q, wakes, hq, hf, rfl⟩ := step_round hstep
  rw [hq] at hnext
  obtain rfl : i = id := by simpa using hnext
  have hready := withQueue_ready hs hf (hs.next_open hq) q
  obtain ⟨w₁, hw₁, heq⟩ := Writer.handle_eq (w := e.withQueue q) ha hp overtook
  have hms : ∀ j ∈ ms, j ≠ i ∧ j < e.store.messages.size := fun j hj =>
    ⟨fun h => (hs.custody.wellFormed.member_single hb j hj).not_isBatch ms (h ▸ hb),
      (hs.custody.wellFormed.member_single hb j hj).lt_size⟩
  -- the batch is still one when it has been picked up
  obtain ⟨m, hm, hbody⟩ := (Store.markSent_sends e.store i).grows.isBatch hb
  obtain ⟨n, hn, rfl⟩ := Store.exists_get_of_draft? hm
  have hmembers : ((e.store.markSent i).2.messages[i]?).bind Message.members? = some ms := by
    rw [hn]
    exact Message.members?_of_batch hbody
  have hstore : w₁.connection.store = (e.store.markSent i).2 := hw₁.store
  obtain ⟨hforget, hkeep⟩ := Writer.writeBatch_selected (hw₁.ready hready) i
    (fun j hj => by
      rw [hstore, Store.markSent_size]
      exact (hms j hj).2)
  rw [hstore, hw₁.selected] at hforget hkeep
  obtain ⟨_, _, _, _, _, -, hemit, -⟩ := Writer.writeBatch_emits (hw₁.ready hready) i ms
  have hselected :
      ((e.withQueue q).handle i overtook).selected = (w₁.writeBatch i ms).selected := by
    rw [heq, hstore, hmembers]
    dsimp only
    rw [hemit.next (hw₁.ready hready), Writer.flush_selected]
  show (_ → ((e.withQueue q).handle i overtook).selected = none) ∧
    (_ → ((e.withQueue q).handle i overtook).selected = e.writer.selected)
  rw [hselected]
  exact ⟨fun h => hforget ((Store.leaves_start hms _).2 h),
    fun h => hkeep (mt (Store.leaves_start hms _).1 h)⟩

/-- A round for a message of its own: a choice of a database leads wherever it says, and if it does
not say, the selected database is unknown. -/
theorem round_knows {m : Message} (hs : e.Sound accepted)
    (hnext : (e.connection.queue.next?).map (fun x => x.1.1) = some id)
    (hm : e.store.draft? id = some m) (hb : m.members? = none)
    (hp : e.store.phase id = .notSent) (ha : e.connection.aborting = false)
    (hstep : e.step .round = some e') :
    e'.writer.selected = e.store.knownAfter e.writer.selected id := by
  obtain ⟨i, overtook, q, wakes, hq, hf, rfl⟩ := step_round hstep
  rw [hq] at hnext
  obtain rfl : i = id := by simpa using hnext
  have hready := withQueue_ready hs hf (hs.next_open hq) q
  obtain ⟨w, s', fs, sel, hdispatch, hemit, heq⟩ := Writer.handle_picked hready ha hp overtook
  show ((e.withQueue q).handle i overtook).selected = _
  rw [heq, Writer.flush_selected, hemit.selected]
  have hpicked : (e.store.markSent i).2.draft? i = some m :=
    (Store.markSent_sends e.store i).grows i m hm
  have hsame : ∀ n, (e.store.markSent i).2.messages[i]? = some n →
      n.request = m.request ∧ n.isSelect = m.isSelect ∧ n.members? = m.members? := by
    intro n hn
    rw [Store.draft?_of_get hn] at hpicked
    obtain rfl := Option.some.inj hpicked
    exact ⟨rfl, rfl, rfl⟩
  unfold Store.knownAfter Store.chooses
  rw [hm, Store.requestOf_of_draft? hm]
  cases hdispatch with
  | plain hn _ hnot hdb =>
    obtain ⟨hrequest, hselect, -⟩ := hsame _ hn
    rw [hselect] at hnot
    rw [hrequest] at hdb
    rw [if_neg (by simp [hnot])]
    cases hd : m.request.db with
    | none => rfl
    | some d => exact hdb d hd
  | choice hn hchoice =>
    obtain ⟨hrequest, hselect, -⟩ := hsame _ hn
    rw [hselect] at hchoice
    rw [if_pos (by simp [hchoice]), hrequest]
  | preceded hn _ hnot hd =>
    obtain ⟨hrequest, hselect, -⟩ := hsame _ hn
    rw [hselect] at hnot
    rw [hrequest] at hd
    rw [if_neg (by simp [hnot]), hd]
    rfl
  | batch hn hbody =>
    have hmembers := Message.members?_of_batch hbody
    rw [(hsame _ hn).2.2, hb] at hmembers
    cases hmembers

/-- From `e` to `e'` a block has been written for the batch `id` of the messages `ms`, which begins
in the database `db`, and choices that do not say which database they are of have been passed
over. -/
structure PassesOver (e e' : Engine) (db : Option Database) (id : MessageId) (ms : List MessageId)
    (multi : MessageId) (fs : List InFlight) (b : Block) : Prop where
  block : WritesBlock e e' id ms multi fs b
  /-- a choice stands in front of a member just if the database named last is another one -/
  placed : ∀ before j after, e.store.live ms = before ++ j :: after →
    ∃ front back, b.slots = front ++ some j :: back ∧ e'.store.Placed db before j fs front
  /-- without raw choices that is the rule for messages of their own -/
  alike : (∀ j ∈ e.store.live ms, ¬ e'.store.ChoosesRaw j) → ∀ before j after,
    e.store.live ms = before ++ j :: after → e'.store.named db before = e'.store.known db before
  /-- behind a raw choice nothing is done for a member that is for the database named before it -/
  overlooked : ∀ before j between i after,
    e.store.live ms = before ++ j :: (between ++ i :: after) → e'.store.ChoosesRaw j →
    (∀ k ∈ between, (e'.store.requestOf k).db = none) →
    (e'.store.requestOf i).db = e'.store.named db before →
    ∃ front back, b.slots = front ++ some i :: back ∧ front.getLast? ≠ some none
  /-- the selected database is forgotten just if a member is for another one -/
  forgotten : e.store.Leaves db ms → e'.writer.selected = none
  kept : ¬ e.store.Leaves db ms → e'.writer.selected = db
  /-- a message of its own that comes later, whatever has happened in between, leaves the database
  that is known after it: behind a raw choice this is none -/
  alone : ∀ evs e₁ e₂ i m, e'.run evs = some e₁ →
    (e₁.connection.queue.next?).map (fun x => x.1.1) = some i → e₁.store.draft? i = some m →
    m.members? = none → e₁.store.phase i = .notSent → e₁.connection.aborting = false →
    e₁.step .round = some e₂ →
    e₂.writer.selected = e₁.store.knownAfter e₁.writer.selected i

/-- In every state that a run can reach, and whatever database the pump takes to be selected. -/
theorem raw_choice_passed_over {config : Config} (h : (new config).run evs = some e)
    (db : Option Database)
    (hnext : (e.connection.queue.next?).map (fun x => x.1.1) = some id)
    (hb : e.store.IsBatch id ms) (hp : e.store.phase id = .notSent)
    (ha : e.connection.aborting = false) (hstep : (e.tracking db).step .round = some e') :
    ∃ multi fs b, PassesOver (e.tracking db) e' db id ms multi fs b := by
  have hsound : e.Sound [] := run_new_sound h
  have hs : (e.tracking db).Sound [] := hsound
  obtain ⟨multi, fs, b, hblock⟩ := round_writes_block hs hnext hb hp ha hstep
  obtain ⟨hforgotten, hkept⟩ := round_selected hs hnext hb hp ha hstep
  have hplaced : ∀ before j after, (e.tracking db).store.live ms = before ++ j :: after →
      ∃ front back, b.slots = front ++ some j :: back ∧ e'.store.Placed db before j fs front := by
    intro before j after hlive
    obtain ⟨db', hlayout⟩ := hblock.store.layout
    exact hlayout.placed hlive
  refine ⟨multi, fs, b, hblock, hplaced, ?_, ?_, hforgotten, hkept, ?_⟩
  · intro hnot before j after hlive
    refine Store.named_eq_known fun k hk => hnot k ?_
    rw [hlive]
    exact List.mem_append_left _ hk
  · intro before j between i after hlive hraw hnone hsame
    rw [← List.cons_append, ← List.append_assoc] at hlive
    obtain ⟨front, back, hslots, hfront⟩ := hplaced _ i after hlive
    refine ⟨front, back, hslots, fun hlast => ?_⟩
    obtain ⟨d, hd, -, hne⟩ := hfront.chosen.1 hlast
    rw [Store.named_append_of_none] at hne
    · exact hne (hsame.symm.trans hd)
    · intro k hk
      rcases List.mem_cons.1 hk with rfl | hk
      · exact hraw.2
      · exact hnone k hk
  · intro evs e₁ e₂ i m hrun hnext hm hsingle hphase haborting hround
    have hs₁ := run_sound (step_sound hs hstep) hrun
    exact round_knows hs₁ hnext hm hsingle hphase haborting hround

/-- A raw choice and a command for the first database, in a transaction. -/
def rawInBlock : List Event :=
  [.make { command := .select, args := [.text "4"] },
   .make { command := .get, db := some 0, args := [.text "k"] }, .newTransaction,
   .submit (.transaction 0) 0 .standard .reply, .submit (.transaction 0) 1 .standard .text,
   .execute 0 .standard]

/-- The same two messages on their own. -/
def rawOnItsOwn : List Event :=
  [.make { command := .select, args := [.text "4"] },
   .make { command := .get, db := some 0, args := [.text "k"] },
   .submit .connection 0 .standard .reply, .submit .connection 1 .standard .text]

theorem raw_choice_passed_over_rawInBlock :
    ∃ multi fs b, PassesOver
      ((((new {}).run rawInBlock).get (by decide)).tracking (some 0))
      (((((new {}).run rawInBlock).get (by decide)).tracking (some 0)).step .round |>.get
        (by decide)) (some 0) 2 [0, 1] multi fs b :=
  raw_choice_passed_over (Option.some_get _).symm (some 0) (by decide) ⟨_, rfl, rfl⟩ (by decide)
    (by decide) (Option.some_get _).symm

/-- In a block no choice goes between the raw choice and the command behind it, and the first
database is still taken to be selected afterwards. On its own the raw choice leaves the database
unknown, and the command is preceded by a choice. -/
theorem raw_choice_drifts :
    (∃ e b, (new {}).run (rawInBlock ++ [.round]) = some e
      ∧ e.store.ChoosesRaw 0 ∧ (e.store.requestOf 1).db = some 0
      ∧ e.connection.ledger.entries.getLast? = some (.exec b) ∧ b.slots = [some 0, some 1]
      ∧ e.writer.selected = some 0)
    ∧ (∃ e, (new {}).run (rawOnItsOwn ++ [.round]) = some e ∧ e.writer.selected = none)
    ∧ ∃ e, (new {}).run (rawOnItsOwn ++ [.round, .round]) = some e
      ∧ e.connection.ledger.entries = [.message 0, .message 2, .message 1]
      ∧ e.store.Carries 2 (.select 0) :=
  ⟨⟨_, _, rfl, ⟨rfl, rfl⟩, rfl, rfl, rfl, rfl⟩, ⟨_, rfl, rfl⟩, _, rfl, rfl, _, rfl, rfl, rfl, rfl⟩

end Engine

end RespMux
