import RespMux.Proofs.Cancellation
import RespMux.Proofs.Engine.Tally
import RespMux.Proofs.Histogram

/-!
# Which messages count as uses

Every message of a caller that has been written stands on the tape once, in a frame of its own or in
an envelope inside of a block, and counts as one use of the database that it is for
(`Engine.usedBy`). There is one exception: a choice of a database in a frame of its own is not
counted. In a block it is.

So the table of databases is a histogram of all messages that have been written but those choices
(`usage_counted`). It does not depend on whether messages are written one by one or as a block, as
long as there is no choice among them (`choice_uncounted`).
-/

set_option autoImplicit false

namespace RespMux

namespace Store

variable {s s' : Store} {owned owned' : List MessageId} {f : InFlight} {fs fs' : List InFlight}
variable {id j x inner : MessageId}

/-! ## The messages of callers on the tape -/

/-- The message of a caller that a frame is for. -/
def carried? (s : Store) (owned : List MessageId) (f : InFlight) : Option MessageId :=
  owned.find? fun id => s.isFrameOf id f

/-- The frames for messages of callers, each with its message. -/
def carried (s : Store) (owned : List MessageId) (fs : List InFlight) :
    List (InFlight × MessageId) :=
  fs.filterMap fun f => (s.carried? owned f).map fun id => (f, id)

/-- The message is a choice of a database, and the frame is its own. -/
def choosesAlone (s : Store) (x : InFlight × MessageId) : Bool :=
  x.1 == .message x.2 && s.chooses x.2

/-- The messages of callers in some frames that count as uses of their databases. -/
def usedBy (s : Store) (owned : List MessageId) (fs : List InFlight) : List MessageId :=
  ((s.carried owned fs).filter fun x => !s.choosesAlone x).map Prod.snd

theorem isFrameOf_unique (hid : s.IsSingle id) (hj : s.IsSingle j)
    (h : s.isFrameOf id f = true) (h' : s.isFrameOf j f = true) : id = j := by
  cases f with
  | exec b => cases h
  | message x =>
    rw [isFrameOf_message] at h
    rcases h with rfl | henvelope
    · rw [isFrameOf_single hid, decide_eq_true_eq] at h'
      exact h'
    · rw [isFrameOf_envelope henvelope hj, decide_eq_true_eq] at h'
      exact h'

theorem carried?_eq_some_iff (hown : ∀ j ∈ owned, s.IsSingle j) :
    s.carried? owned f = some id ↔ id ∈ owned ∧ s.isFrameOf id f = true := by
  constructor
  · intro h
    have hframe := List.find?_some (p := fun id => s.isFrameOf id f) h
    exact ⟨List.mem_of_find?_eq_some h, hframe⟩
  · rintro ⟨hid, hframe⟩
    have hsome : (s.carried? owned f).isSome = true :=
      List.find?_isSome.mpr ⟨id, hid, hframe⟩
    obtain ⟨j, hj⟩ := Option.isSome_iff_exists.mp hsome
    have hframe' := List.find?_some (p := fun id => s.isFrameOf id f) hj
    have hunique := isFrameOf_unique (hown j (List.mem_of_find?_eq_some hj)) (hown id hid)
      hframe' hframe
    rw [hj, hunique]

/-- Whose frame it is stays as it was, whatever is made later. -/
theorem Grows.carried? (h : s.Grows s') (wf : s.WellFormed) (hown : ∀ j ∈ owned, s.IsSingle j)
    (hown' : ∀ j ∈ owned', s'.IsSingle j) (hold : ∀ j ∈ owned, j ∈ owned')
    (hnew : ∀ j ∈ owned', j ∈ owned ∨ s.messages.size ≤ j)
    (hf : ∀ j, f = .message j → j < s.messages.size) :
    s'.carried? owned' f = s.carried? owned f := by
  ext id
  rw [carried?_eq_some_iff hown', carried?_eq_some_iff hown, h.isFrameOf hf]
  constructor
  · rintro ⟨hid, hframe⟩
    refine ⟨(hnew id hid).resolve_right fun hle => ?_, hframe⟩
    -- a frame is never older than its message
    cases f with
    | exec b => cases hframe
    | message x =>
      have hlt : x < s.messages.size := hf x rfl
      rcases isFrameOf_message.mp hframe with rfl | ⟨m, hm, hb⟩
      · exact Nat.not_le_of_lt hlt hle
      · obtain ⟨i, hi, -⟩ := wf.envelope x m id hm hb
        exact Nat.not_le_of_lt (lt_size_of_draft? hi) hle
  · rintro ⟨hid, hframe⟩
    exact ⟨hold id hid, hframe⟩

theorem carried_append (s : Store) (owned : List MessageId) (fs fs' : List InFlight) :
    s.carried owned (fs ++ fs') = s.carried owned fs ++ s.carried owned fs' :=
  List.filterMap_append

theorem usedBy_append (s : Store) (owned : List MessageId) (fs fs' : List InFlight) :
    s.usedBy owned (fs ++ fs') = s.usedBy owned fs ++ s.usedBy owned fs' := by
  unfold usedBy
  rw [carried_append, List.filter_append, List.map_append]

theorem usedBy_cons (s : Store) (owned : List MessageId) (f : InFlight) (fs : List InFlight) :
    s.usedBy owned (f :: fs) = s.usedBy owned [f] ++ s.usedBy owned fs :=
  s.usedBy_append owned [f] fs

theorem mem_of_carried {y : InFlight × MessageId} (h : y ∈ s.carried owned fs) : y.2 ∈ owned := by
  obtain ⟨f, -, hf⟩ := List.mem_filterMap.mp h
  obtain ⟨id, hid, rfl⟩ := Option.map_eq_some_iff.mp hf
  exact List.mem_of_find?_eq_some hid

theorem mem_of_usedBy (h : id ∈ s.usedBy owned fs) : id ∈ owned := by
  obtain ⟨y, hy, rfl⟩ := List.mem_map.mp h
  exact mem_of_carried (List.mem_filter.mp hy).1

/-- What counts stays as it was. -/
theorem Grows.usedBy (h : s.Grows s') (wf : s.WellFormed) (hown : ∀ j ∈ owned, s.IsSingle j)
    (hown' : ∀ j ∈ owned', s'.IsSingle j) (hold : ∀ j ∈ owned, j ∈ owned')
    (hnew : ∀ j ∈ owned', j ∈ owned ∨ s.messages.size ≤ j)
    (hfs : ∀ j, .message j ∈ fs → j < s.messages.size) :
    s'.usedBy owned' fs = s.usedBy owned fs := by
  have hcarried : s'.carried owned' fs = s.carried owned fs := by
    refine List.filterMap_congr fun f hf => ?_
    rw [h.carried? wf hown hown' hold hnew fun j hj => hfs j (hj ▸ hf)]
  unfold Store.usedBy
  rw [hcarried]
  refine congrArg (List.map Prod.snd) (List.filter_congr fun y hy => ?_)
  unfold choosesAlone
  rw [h.chooses (hown _ (mem_of_carried hy)).lt_size]

/-- How often a message of a caller has been written is how often it stands on the tape. -/
theorem count_carried (hown : ∀ j ∈ owned, s.IsSingle j) (hid : id ∈ owned)
    (fs : List InFlight) :
    ((s.carried owned fs).map Prod.snd).count id = fs.countP (s.isFrameOf id) := by
  induction fs with
  | nil => rfl
  | cons f fs ih =>
    have hiff : s.carried? owned f = some id ↔ id ∈ owned ∧ s.isFrameOf id f = true :=
      carried?_eq_some_iff hown
    unfold carried at ih ⊢
    rw [List.filterMap_cons, List.countP_cons, ← ih]
    cases hf : s.carried? owned f with
    | none =>
      have hnot : ¬ s.isFrameOf id f = true := fun hframe => by
        rw [hiff.mpr ⟨hid, hframe⟩] at hf
        cases hf
      simp [hnot]
    | some j =>
      rw [hf, Option.some_inj] at hiff
      have hframe : s.isFrameOf id f = true ↔ j = id := by
        rw [hiff]
        exact ⟨fun h => ⟨hid, h⟩, And.right⟩
      simp [List.count_cons, hframe]

/-! ## Single frames -/

theorem usedBy_of_none (h : s.carried? owned f = none) : s.usedBy owned [f] = [] := by
  unfold usedBy carried
  rw [List.filterMap_cons, h]
  rfl

theorem usedBy_exec (s : Store) (owned : List MessageId) (b : Block) :
    s.usedBy owned [.exec b] = [] := by
  refine usedBy_of_none (List.find?_eq_none.mpr fun j _ => ?_)
  exact Bool.false_ne_true

theorem usedBy_of_some (h : s.carried? owned f = some id) :
    s.usedBy owned [f] = if s.choosesAlone (f, id) then [] else [id] := by
  unfold usedBy carried
  rw [List.filterMap_cons, h]
  cases hc : s.choosesAlone (f, id) with
  | true => simp [hc]
  | false => simp [hc]

/-- A message of the pump is none of a caller. -/
theorem usedBy_own (hown : ∀ j ∈ owned, s.IsSingle j) (hs : s.IsSingle x) (hx : x ∉ owned) :
    s.usedBy owned [.message x] = [] := by
  refine usedBy_of_none (Option.eq_none_iff_forall_ne_some.mpr fun id hid => ?_)
  obtain ⟨ho, hframe⟩ := (carried?_eq_some_iff hown).mp hid
  rw [isFrameOf_single hs, decide_eq_true_eq] at hframe
  exact hx (hframe ▸ ho)

/-- On its own a message counts unless it is a choice of a database. -/
theorem usedBy_single (hown : ∀ j ∈ owned, s.IsSingle j) (hid : id ∈ owned) :
    s.usedBy owned [.message id] = if s.chooses id then [] else [id] := by
  have hframe : s.isFrameOf id (.message id) = true := isFrameOf_message.mpr (.inl rfl)
  rw [usedBy_of_some ((carried?_eq_some_iff hown).mpr ⟨hid, hframe⟩)]
  unfold choosesAlone
  rw [beq_self_eq_true, Bool.true_and]

/-- In an envelope every message of a caller counts. -/
theorem usedBy_envelope (hown : ∀ j ∈ owned, s.IsSingle j) (he : s.IsEnvelope x id)
    (hid : id ∈ owned) : s.usedBy owned [.message x] = [id] := by
  have hframe : s.isFrameOf id (.message x) = true := isFrameOf_message.mpr (.inr he)
  have hne : x ≠ id := fun heq => (hown id hid).not_isEnvelope id (heq ▸ he)
  rw [usedBy_of_some ((carried?_eq_some_iff hown).mpr ⟨hid, hframe⟩)]
  unfold choosesAlone
  simp [hne]

theorem usedBy_envelope_own (hown : ∀ j ∈ owned, s.IsSingle j) (he : s.IsEnvelope x inner)
    (hinner : inner ∉ owned) : s.usedBy owned [.message x] = [] := by
  refine usedBy_of_none (Option.eq_none_iff_forall_ne_some.mpr fun id hid => ?_)
  obtain ⟨ho, hframe⟩ := (carried?_eq_some_iff hown).mp hid
  rw [isFrameOf_envelope he (hown id ho), decide_eq_true_eq] at hframe
  exact hinner (hframe ▸ ho)

theorem usedBy_eq_nil (hown : ∀ j ∈ owned, s.IsSingle j)
    (h : ∀ j, .message j ∈ fs → s.IsSingle j ∧ j ∉ owned) : s.usedBy owned fs = [] := by
  induction fs with
  | nil => rfl
  | cons f fs ih =>
    rw [usedBy_cons, ih fun j hj => h j (List.mem_cons_of_mem f hj), List.append_nil]
    cases f with
    | exec b => exact s.usedBy_exec owned b
    | message x =>
      obtain ⟨hs, hx⟩ := h x List.mem_cons_self
      exact usedBy_own hown hs hx

end Store

/-! ## What is written for one message -/

/-- In a block the live members count, and the choices of the pump do not. -/
theorem Expands.usedBy {s s' : Store} {db db' : Option Database} {ids owned : List MessageId}
    {fs : List InFlight} {slots : List (Option MessageId)} (h : Expands s db ids s' fs slots db')
    (hown : ∀ j ∈ owned, s.IsSingle j) (hids : ∀ j ∈ ids, j ∈ owned) :
    s'.usedBy owned fs = s.live ids := by
  induction h with
  | nil s db => rfl
  | @skipped s _ _ _ id ids _ _ hp rest ih =>
    rw [Store.live_skipped hp]
    exact ih hown fun j hj => hids j (List.mem_cons_of_mem id hj)
  | @stays s s' _ _ id ids fs _ m hp hm hstay rest ih =>
    have hgrows := (stays_sends s id).grows
    have hown' : ∀ j ∈ owned, s'.IsSingle j := fun j hj =>
      (hgrows.trans rest.sends.grows).isSingle (hown j hj)
    have henvelope := rest.sends.grows.isEnvelope (stays_isEnvelope s id)
    have htail : ∀ j ∈ ids, j ∈ owned := fun j hj => hids j (List.mem_cons_of_mem id hj)
    have hrest := ih (fun j hj => hgrows.isSingle (hown j hj)) htail
    have hlive : s.live (id :: ids) = id :: ((s.markSent id).2.wrap id).live ids := by
      refine Store.live_picked hp fun j hj => ?_
      rw [Store.phase_congr (stays_messages (hown j (htail j hj)).lt_size)]
      exact markSent_notSent_iff hp
    rw [hlive, Store.usedBy_cons, hrest,
      Store.usedBy_envelope hown' henvelope (hids id List.mem_cons_self)]
    rfl
  | @moves s s' _ _ id ids fs _ m d hp hm hd hne hs rest ih =>
    have hgrows := (moved_sends s id d).grows
    have hown' : ∀ j ∈ owned, s'.IsSingle j := fun j hj =>
      (hgrows.trans rest.sends.grows).isSingle (hown j hj)
    have hchoice := rest.sends.grows.isEnvelope (moved_choice s id d)
    have hmember := rest.sends.grows.isEnvelope (moved_member s id d)
    have hfresh : s.messages.size ∉ owned := fun ho => Nat.lt_irrefl _ (hown _ ho).lt_size
    have htail : ∀ j ∈ ids, j ∈ owned := fun j hj => hids j (List.mem_cons_of_mem id hj)
    have hrest := ih (fun j hj => hgrows.isSingle (hown j hj)) htail
    have hlive : s.live (id :: ids) = id :: (moved s id d).live ids := by
      refine Store.live_picked hp fun j hj => ?_
      rw [Store.phase_congr (moved_messages (hown j (htail j hj)).lt_size)]
      exact markSent_notSent_iff hp
    rw [hlive, Store.usedBy_cons, Store.usedBy_cons s' owned _ fs, hrest,
      Store.usedBy_envelope_own hown' hchoice hfresh,
      Store.usedBy_envelope hown' hmember (hids id List.mem_cons_self)]
    rfl

/-- What is written for a message counts as said. -/
theorem Dispatches.usedBy {s s' : Store} {db sel : Option Database} {id : MessageId}
    {owned : List MessageId} {fs : List InFlight}
    (h : Dispatches (s.markSent id).2 db id s' fs sel) (wf : s.WellFormed)
    (hp : s.phase id = .notSent) (hown : ∀ j ∈ owned, s.IsSingle j)
    (hid : id ∈ owned ∨ ∃ ms, s.IsBatch id ms)
    (hmembers : ∀ ms, s.IsBatch id ms → ∀ j ∈ ms, j ∈ owned) :
    s'.usedBy owned fs = s.users id := by
  have hmarked := (s.markSent_sends id).grows
  have hown' : ∀ j ∈ owned, s'.IsSingle j := fun j hj =>
    (hmarked.trans h.grows).isSingle (hown j hj)
  -- a message that is no batch is one of a caller
  have halone (hnone : s.membersOf? id = none) :
      id ∈ owned ∧ s'.usedBy owned [.message id] = s.users id := by
    have ho : id ∈ owned := by
      refine hid.resolve_right ?_
      rintro ⟨ms, m, hm, hb⟩
      unfold Store.membersOf? at hnone
      rw [hm, Option.bind_some, Message.members?_of_batch hb] at hnone
      cases hnone
    refine ⟨ho, ?_⟩
    rw [Store.usedBy_single hown' ho, (hmarked.trans h.grows).chooses (hown id ho).lt_size]
    unfold Store.users
    rw [if_pos hp, hnone]
  have hget : ∀ m, (s.markSent id).2.messages[id]? = some m → s.membersOf? id = m.members? := by
    intro m hm
    unfold Store.membersOf?
    rw [← s.markSent_draft? id id, Store.draft?_of_get hm]
    rfl
  have hsize : (s.markSent id).2.messages.size = s.messages.size := s.markSent_size id
  have hfresh : (s.markSent id).2.messages.size ∉ owned := fun ho =>
    Nat.lt_irrefl s.messages.size (hsize ▸ (hown _ ho).lt_size)
  cases h with
  | plain hm hb hs hdb => exact (halone ((hget _ hm).trans hb)).2
  | choice hm hs => exact (halone ((hget _ hm).trans (Message.members?_of_isSelect hs))).2
  | @preceded m d hm hb hs hd hne =>
    have hselect := ((s.markSent id).2.issue_carries (.select d)).isSingle
    rw [Store.usedBy_cons, Store.usedBy_own hown' hselect hfresh,
      (halone ((hget _ hm).trans hb)).2]
    rfl
  | @batch m ms _ fs slots db' _ hm hb hexp hsel =>
    have hbatch : s.IsBatch id ms := by
      refine ⟨m.draft, ?_, hb⟩
      rw [← s.markSent_draft? id id]
      exact Store.draft?_of_get hm
    have hstart := Store.live_start (wf.member_ne hbatch)
    have htaken : s.Grows (((s.markSent id).2.takeCompleter id).2.issue .multi) :=
      (hmarked.trans (.of_draft? (Store.takeCompleter_draft? _ id))).trans
        (Store.issue_sends _ .multi).grows
    have hmulti := hexp.sends.grows.isSingle (Store.issue_carries _ .multi).isSingle
    rw [Store.takeCompleter_size] at hmulti
    have hinside := hexp.usedBy (fun j hj => htaken.isSingle (hown j hj)) (hmembers ms hbatch)
    rw [List.cons_append, Store.usedBy_cons, Store.usedBy_append, Store.usedBy_exec, hinside,
      Store.usedBy_own hown' hmulti hfresh, hstart, List.append_nil, List.nil_append]
    unfold Store.users
    rw [if_pos hp, hget m hm, Message.members?_of_batch hb]

namespace Engine

variable {stray : MessageId → Prop} {accepted : List MessageId}
variable {e e' : Engine} {ev : Event} {evs : List Event}

/-! ## One step -/

/-- The messages of callers that have been written, in order. -/
def callersWritten (e : Engine) : List MessageId :=
  (e.store.carried e.owned e.tape).map Prod.snd

/-- The choices of a database among them that are not in a block. -/
def choicesAlone (e : Engine) : List MessageId :=
  ((e.store.carried e.owned e.tape).filter e.store.choosesAlone).map Prod.snd

/-- All others of them, which count as uses of their databases. -/
def usedBy (e : Engine) : List MessageId := e.store.usedBy e.owned e.tape

theorem round_usedBy (hs : e.Sound accepted) (h : e.step .round = some e') :
    ∃ fs, e'.tape = e.tape ++ fs ∧ e'.store.usedBy e'.owned fs = e.users .round := by
  obtain ⟨id, overtook, q, wakes, hnext, hfault, rfl⟩ := step_round h
  have hready := withQueue_ready hs hfault (hs.next_open hnext) q
  have hkinds := hs.custody.kinds
  cases ha : e.connection.aborting with
  | true =>
    obtain ⟨-, husers⟩ := round_of_none (e := e) (if_pos ha)
    refine ⟨[], ?_, ?_⟩
    · show ((e.withQueue q).handle id overtook).written ++ _ = _
      rw [Writer.handle_aborting (w := e.withQueue q) ha]
      exact (List.append_nil _).symm
    · rw [husers]
      rfl
  | false =>
    obtain ⟨-, husers⟩ := round_of_some (handled?_of_next ha hnext)
    rw [husers]
    -- what has been called off is passed over, and writes no frame
    by_cases hp : e.store.phase id = .notSent
    · have hwaits : (e.withQueue q).connection.store.phase id = .notSent := hp
      obtain ⟨w', s', fs, sel, hdispatch, hemit, heq⟩ :=
        Writer.handle_picked hready ha hwaits overtook
      have hstore : ((e.withQueue q).handle id overtook).connection.store = s' := by
        rw [heq, Writer.flush_connection, hemit.store]
      have hqueued : id ∈ e.connection.queue.toList := by
        rw [PriorityQueue.next?_toList hnext]
        exact List.mem_cons_self
      refine ⟨fs, ?_, ?_⟩
      · show ((e.withQueue q).handle id overtook).written
          ++ ((e.withQueue q).handle id overtook).buffer = _
        rw [heq, Writer.flush_all]
        exact hemit.tape
      · show ((e.withQueue q).handle id overtook).connection.store.usedBy e.owned fs = _
        rw [hstore]
        exact hdispatch.usedBy hs.custody.wellFormed hp hkinds.owned_single
          (hkinds.queued_kind id hqueued) (hkinds.members_owned id)
    · refine ⟨[], ?_, ?_⟩
      · show ((e.withQueue q).handle id overtook).written ++ _ = _
        rw [Writer.handle_skipped (w := e.withQueue q) ha hp]
        exact (List.append_nil _).symm
      · unfold Store.users
        rw [if_neg hp]
        rfl

theorem step_usedBy (hs : e.Sound accepted) (h : e.step ev = some e') :
    ∃ fs, e'.tape = e.tape ++ fs ∧ e'.store.usedBy e'.owned fs = e.users ev := by
  by_cases hround : ev = .round
  · subst hround
    exact round_usedBy hs h
  by_cases hfinish : ev = .finish
  · subst hfinish
    have hs' := step_sound hs h
    obtain ⟨hfault, rfl⟩ := step_finish h
    obtain ⟨-, fs, htape, hown⟩ := finish_frames hs hfault
    refine ⟨fs, htape, Store.usedBy_eq_nil hs'.custody.kinds.owned_single fun j hj => ?_⟩
    obtain ⟨hle, hsingle⟩ := hown j hj
    refine ⟨hsingle, fun ho => ?_⟩
    exact Nat.not_le_of_lt (hs.custody.kinds.owned_single j ho).lt_size hle
  · have husers : e.users ev = [] := by
      cases ev with
      | round => exact absurd rfl hround
      | _ => rfl
    refine ⟨[], ?_, ?_⟩
    · rw [step_tape hs hround hfinish h, List.append_nil]
    · rw [husers]
      rfl

theorem users_owned (hs : e.Sound accepted) (h : e.step ev = some e') :
    ∀ j ∈ e.users ev, j ∈ e.owned := by
  intro j hj
  obtain ⟨fs, -, husers⟩ := step_usedBy hs h
  have ho : j ∈ e'.owned := by
    rw [← husers] at hj
    exact Store.mem_of_usedBy hj
  rcases step_owned h with howned | ⟨r, rfl, -⟩
  · exact howned ▸ ho
  · cases hj

/-- A use is counted when it is written, and not forgotten. -/
def UsesCounted (e : Engine) : Prop :=
  e.connection.counters.usage = (e.store.targets e.usedBy).foldl UseCounts.count .new

theorem step_usesCounted (hk : Kept stray e) (hu : e.UsesCounted) (h : e.step ev = some e') :
    e'.UsesCounted := by
  have hs := hk.sound
  have hgrows := step_grows hs h
  have hown := hs.custody.kinds.owned_single
  have hown' := (step_sound hs h).custody.kinds.owned_single
  obtain ⟨fs, htape, husers⟩ := step_usedBy hs h
  have hnew : ∀ j ∈ e'.owned, j ∈ e.owned ∨ e.store.messages.size ≤ j := by
    intro j hj
    rcases step_owned h with howned | ⟨r, -, rfl⟩
    · exact .inl (howned ▸ hj)
    · rcases List.mem_cons.mp hj with rfl | hj
      · exact .inr (Nat.le_refl _)
      · exact .inl hj
  -- what is on the tape already counts as before, so only the new frames add to it
  have hold := hgrows.usedBy hs.custody.wellFormed hown hown' (fun j hj => step_owns h hj) hnew
    hk.recorded.known
  have hall : e'.usedBy = e.usedBy ++ e.users ev := by
    unfold usedBy
    rw [htape, Store.usedBy_append, hold, husers]
  have hlt : ∀ j ∈ e.usedBy ++ e.users ev, j < e.store.messages.size := by
    intro j hj
    rcases List.mem_append.mp hj with hj | hj
    · exact (hown j (Store.mem_of_usedBy hj)).lt_size
    · exact (hown j (users_owned hs h j hj)).lt_size
  unfold UsesCounted
  rw [hall, hgrows.targets hlt, (step_counts hs h).usage, hu]
  unfold Store.targets
  rw [List.filterMap_append, List.foldl_append]

/-! ## Runs -/

/-- A message of a caller is written once. -/
theorem callersWritten_nodup (hk : Kept stray e) : e.callersWritten.Nodup := by
  have hown := hk.sound.custody.kinds.owned_single
  refine List.nodup_iff_count_le_one.mpr fun id => ?_
  by_cases hid : id ∈ e.owned
  · unfold callersWritten
    rw [Store.count_carried (s := e.store) hown hid]
    exact hk.recorded.once id hid
  · have hnot : id ∉ e.callersWritten := fun hmem => by
      obtain ⟨y, hy, rfl⟩ := List.mem_map.mp hmem
      exact hid (Store.mem_of_carried hy)
    rw [List.count_eq_zero.mpr hnot]
    exact Nat.zero_le 1

/-- Every message that has been written counts, or is a choice that is not in a block. -/
theorem callersWritten_perm (e : Engine) :
    e.callersWritten.Perm (e.usedBy ++ e.choicesAlone) := by
  have hsplit := List.filter_append_perm (fun x => !e.store.choosesAlone x)
    (e.store.carried e.owned e.tape)
  simp only [Bool.not_not] at hsplit
  have hmap := hsplit.map Prod.snd
  rw [List.map_append] at hmap
  exact hmap.symm

theorem callersWritten_perm_of_none (h : e.choicesAlone = []) :
    e.callersWritten.Perm e.usedBy := by
  have hsplit := e.callersWritten_perm
  rw [h, List.append_nil] at hsplit
  exact hsplit

/-- What a snapshot says of the databases that callers have used. -/
structure TellsUses (e : Engine) : Prop where
  /-- each message of a caller has been written once at most -/
  once : e.callersWritten.Nodup
  /-- the table is about those that count -/
  table : Histogram (e.store.targets e.usedBy) e.connection.snapshot.usage
  /-- and they are all but the choices that stand alone -/
  use : ∀ d, e.connection.snapshot.usage.of d + (e.store.targets e.choicesAlone).count d
    = (e.store.targets e.callersWritten).count d

theorem run_tellsUses {config : Config} (h : (new config).run evs = some e) : TellsUses e := by
  obtain ⟨hk, hu⟩ := run_induction (P := fun e => Kept (fun _ => True) e ∧ e.UsesCounted)
    (fun _ _ _ ⟨hk, hu⟩ hstep =>
      ⟨hk.step (fun _ _ => trivial) hstep, step_usesCounted hk hu hstep⟩)
    h ⟨new_kept _ config, rfl⟩
  have htable : Histogram (e.store.targets e.usedBy) e.connection.snapshot.usage := by
    refine Histogram.of_counts fun d => ?_
    rw [hu, UseCounts.of_foldl, UseCounts.of_new, Nat.zero_add]
  refine ⟨callersWritten_nodup hk, htable, fun d => ?_⟩
  have hperm : (e.store.targets e.callersWritten).Perm _ := e.callersWritten_perm.filterMap _
  rw [htable.of_eq, hperm.count_eq]
  exact (List.count_append ..).symm.trans (congrArg _ List.filterMap_append.symm)

/-- In every run each message of a caller that has been written counts as a use of its database,
alone and in a block, but for choices of a database that stand alone. So runs without such choices
in which messages for the same databases have been written show the same table. -/
theorem usage_counted {config : Config} (h : (new config).run evs = some e) :
    TellsUses e ∧ ∀ config' evs' e', (new config').run evs' = some e' → e.choicesAlone = [] →
      e'.choicesAlone = [] →
      (e.store.targets e.callersWritten).Perm (e'.store.targets e'.callersWritten) →
      e'.connection.snapshot.usage = e.connection.snapshot.usage := by
  have htells := run_tellsUses h
  refine ⟨htells, fun config' evs' e' h' hnone hnone' hperm => ?_⟩
  have htells' := run_tellsUses h'
  have hall := (callersWritten_perm_of_none hnone).filterMap fun id => (e.store.requestOf id).db
  have hall' := (callersWritten_perm_of_none hnone').filterMap fun id => (e'.store.requestOf id).db
  exact htells'.table.unique htells.table (hall'.symm.trans (hperm.symm.trans hall))

/-- A command and a choice of a database, in a block. -/
def blockWithChoice : List Event :=
  [.make { command := .get, db := some 3, args := [.text "k"] }, .make (.select 5),
   .newTransaction, .submit (.transaction 0) 0 .standard .text,
   .submit (.transaction 0) 1 .standard .unit, .execute 0 .standard, .round]

/-- Two commands for the same databases, alone. -/
def twoAlone : List Event :=
  [.make { command := .get, db := some 5, args := [.text "k"] },
   .make { command := .get, db := some 3, args := [.text "k"] },
   .submit .connection 0 .standard .text, .submit .connection 1 .standard .text, .round, .round]

theorem usage_counted_bothWays :
    (((new {}).run twoAlone).get (by decide)).connection.snapshot.usage
      = (((new {}).run blockWithChoice).get (by decide)).connection.snapshot.usage :=
  (usage_counted (Option.some_get _).symm).2 {} twoAlone _ (Option.some_get _).symm
    (by decide) (by decide) (by decide)

/-- A table that is in order is shown as it is. -/
theorem shown_of_ranked {run : Option Engine} {dbs : List Database} {table : Usage}
    (h : run.map (fun e => (e.store.targets e.callersWritten, e.connection.counters.usage.toList))
      = some (dbs, table)) (hranked : table.ranked = table) :
    run.map (fun e => (e.store.targets e.callersWritten, e.connection.snapshot.usage))
      = some (dbs, table) := by
  obtain ⟨e, rfl, hpair⟩ := Option.map_eq_some_iff.mp h
  obtain ⟨hdbs, htable⟩ := Prod.mk.inj hpair
  have hshown : e.connection.snapshot.usage = table := by
    show e.connection.counters.usage.toList.ranked = table
    rw [htable, hranked]
  rw [Option.map_some, hdbs, hshown]

/-- A choice of the database 5 by a caller, alone. -/
def choiceAlone : List Event :=
  [.make (.select 5), .submit .connection 0 .standard .unit, .round]

/-- The same choice as the only command of a block. -/
def choiceInBlock : List Event :=
  [.make (.select 5), .newTransaction, .submit (.transaction 0) 0 .standard .unit,
   .execute 0 .standard, .round]

/-- The choice is written both times, but only in the block it counts as a use. -/
theorem choice_uncounted :
    ((new {}).run choiceAlone).map
        (fun e => (e.store.targets e.callersWritten, e.connection.snapshot.usage))
      = some ([5], [])
      ∧ ((new {}).run choiceInBlock).map
        (fun e => (e.store.targets e.callersWritten, e.connection.snapshot.usage))
      = some ([5], [(5, 1)]) := by
  constructor
  · exact shown_of_ranked (by decide) List.mergeSort_nil
  · exact shown_of_ranked (by decide) (List.mergeSort_singleton _)

end Engine

end RespMux
