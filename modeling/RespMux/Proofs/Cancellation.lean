import RespMux.Proofs.Connection.Places
import RespMux.Proofs.Delivery
import RespMux.Proofs.Engine.Fates

/-!
# Written or cancelled

A message can be cancelled through itself or through a batch that contains it, and the pump can
write it by itself or inside a block. Whoever comes first wins. If the message goes one way only, to
the connection itself or into one block (`Engine.OneWay`), then at most one frame is written for it
and at most one cancel call on it succeeds. After a cancel call on it or on its batch has succeeded,
no frame is written and nobody hears anything but the cancellation; after its frame has been
written, every cancel call fails and changes nothing (`Engine.written_or_cancelled`).

The proof looks at the moment at which a cancel call succeeds. At that moment the message waits, or
it has been called off before, since nothing else can have become of it (`Fates.cause`). Before that
moment its completions have nothing to hand out, or the cancellation; after it, they are called off.
-/

set_option autoImplicit false

namespace RespMux

namespace Store

variable {s s' : Store} {id x : MessageId} {ids : List MessageId}

/-- The answers to cancelling some messages one after the other, each with its message. -/
def cancelAnswers (s : Store) : List MessageId → List (MessageId × Bool)
  | [] => []
  | id :: ids => (id, (s.cancel id).1) :: (s.cancel id).2.cancelAnswers ids

theorem mem_of_mem_cancelAnswers {answer : Bool} (h : (x, answer) ∈ s.cancelAnswers ids) :
    x ∈ ids := by
  induction ids generalizing s with
  | nil => cases h
  | cons i ids ih =>
      rcases List.mem_cons.mp h with heq | h
      · cases heq
        exact List.mem_cons_self
      · exact List.mem_cons_of_mem i (ih h)

/-- To cancel several messages gives out the cancellation and nothing else. -/
theorem cancelAll_resolves (wf : s.WellFormed) (ids : List MessageId) :
    ∃ given, Resolves (· = .error .cancelled) given [] s
      (ids.foldl (fun s id => (s.cancel id).2) s) := by
  induction ids generalizing s with
  | nil => exact ⟨[], .refl _ s⟩
  | cons i ids ih =>
      have hi := cancel_resolves wf i
      obtain ⟨given, hrest⟩ := ih (hi.wellFormed wf)
      exact ⟨_, hi.trans hrest⟩

/-- A message that has been cancelled does not wait any more. -/
theorem cancel_phase_self (wf : s.WellFormed) (id : MessageId) :
    (s.cancel id).2.phase id ≠ .notSent := by
  by_cases h : s.phase id = .notSent
  · have hself := wf.mem_scopeOf (lt_size_of_notSent h)
    rw [cancel_of_notSent h, s.fail_phase id .cancelled id hself]
    decide
  · rw [cancel_of_ne h]
    exact h

/-- Of several cancel calls on one message at most one succeeds, and none if it does not wait. -/
theorem cancelAnswers_count (wf : s.WellFormed) (ids : List MessageId) (id : MessageId) :
    (s.cancelAnswers ids).count (id, true) ≤ 1
      ∧ (s.phase id ≠ .notSent → (s.cancelAnswers ids).count (id, true) = 0) := by
  induction ids generalizing s with
  | nil => exact ⟨Nat.zero_le 1, fun _ => rfl⟩
  | cons i ids ih =>
      have hi := cancel_resolves wf i
      obtain ⟨hle, hnone⟩ := ih (hi.wellFormed wf)
      unfold cancelAnswers
      by_cases hhead : (i, (s.cancel i).1) = (id, true)
      · obtain ⟨rfl, htrue⟩ := Prod.mk.inj hhead
        rw [hhead, List.count_cons_self, hnone (cancel_phase_self wf i)]
        exact ⟨Nat.le_refl 1, fun hp => absurd (cancel_fst.mp htrue) hp⟩
      · rw [List.count_cons_of_ne hhead]
        exact ⟨hle, fun hp => hnone (hi.ne_notSent hp)⟩

end Store

/-- One of several cancel calls on messages of callers succeeds, and calls its message off. -/
theorem Fates.cancelAll {stray : MessageId → Prop} {owned accepted queued : List MessageId}
    {frames : List InFlight} {s : Store} {x : MessageId} {ids : List MessageId}
    (h : Fates stray owned queued s) (hc : Custody owned accepted queued frames s)
    (hids : ∀ i ∈ ids, i ∈ owned) (hx : (x, true) ∈ s.cancelAnswers ids) :
    s.phase x = .notSent ∧ (ids.foldl (fun s id => (s.cancel id).2) s).CalledOff x := by
  induction ids generalizing s with
  | nil => cases hx
  | cons i ids ih =>
      have hi := Store.cancel_resolves hc.wellFormed i
      have hc₁ := hc.resolve hi
      rcases List.mem_cons.mp hx with heq | hx
      · obtain ⟨rfl, htrue⟩ := Prod.mk.inj heq
        obtain ⟨hn, hall⟩ := h.cancelled hc htrue.symm
        have hself := hc.wellFormed.mem_scopeOf
          (hc.kinds.owned_single x (hids x List.mem_cons_self)).lt_size
        -- the calls that follow come too late for it
        obtain ⟨given, hrest⟩ := Store.cancelAll_resolves hc₁.wellFormed ids
        exact ⟨hn, hrest.calledOff ((hall x hself).2 hn)⟩
      · obtain ⟨hn, hoff⟩ := ih (h.cancel hc i) hc₁
          (fun j hj => hids j (List.mem_cons_of_mem i hj)) hx
        refine ⟨Classical.byContradiction fun hp => hi.ne_notSent hp hn, hoff⟩

namespace Engine

variable {stray : MessageId → Prop} {accepted : List MessageId} {e e₁ e₂ e' : Engine} {ev : Event}
variable {evs : List Event} {id x : MessageId}

/-! ## Cancel calls -/

/-- The cancel calls of a step, each with its message and its answer. To discard a transaction is to
cancel what it has collected. -/
def cancelCalls (e : Engine) : Event → List (MessageId × Bool)
  | .cancel id => e.store.cancelAnswers [id]
  | .cancelThrough k => ((e.store.completions[k]?).bind Completion.target).toList.map fun id =>
      (id, (e.store.cancelThrough k).1)
  | .discard t => e.store.cancelAnswers (e.connection.collected t).toList
  | _ => []

/-- The cancel calls of a run. -/
def cancelHistory (e : Engine) : List Event → List (MessageId × Bool)
  | [] => []
  | ev :: evs => e.cancelCalls ev ++
      match e.step ev with
      | some e' => e'.cancelHistory evs
      | none => []

/-- A cancel call through a completion is one on its message, unless nobody holds that. -/
theorem cancelThrough_calls (e : Engine) (k : CompletionId) :
    (∃ id, e.cancelCalls (.cancelThrough k) = e.store.cancelAnswers [id]
        ∧ e.store.cancelThrough k = e.store.cancel id)
      ∨ ∀ id, (id, true) ∉ e.cancelCalls (.cancelThrough k) := by
  rcases e.store.cancelThrough_cases k with heq | ⟨c, id, hk, ht, heq⟩
  · refine Or.inr fun id hid => ?_
    obtain ⟨_, -, hanswer⟩ := List.mem_map.mp hid
    rw [heq] at hanswer
    cases hanswer
  · refine Or.inl ⟨id, ?_, heq⟩
    show (((e.store.completions[k]?).bind Completion.target).toList.map fun id =>
      (id, (e.store.cancelThrough k).1)) = _
    rw [hk, Option.bind_some, ht, heq]
    rfl

/-- A cancel call that succeeds calls off the message and what it contains, as far as it waits. -/
theorem cancelCalls_true (hs : e.Sound accepted) (hf : e.Fated stray) (h : e.step ev = some e')
    (hx : (x, true) ∈ e.cancelCalls ev) :
    e.store.phase x = .notSent ∧ ∀ j ∈ e.store.scopeOf x, e'.store.phase j ≠ .notSent
      ∧ (e.store.phase j = .notSent → e'.store.CalledOff j) := by
  have hc : Custody e.owned accepted e.connection.queue.toList e.connection.ledger.entries
      e.store := hs.custody
  -- one call, whoever makes it
  have hcall : ∀ id, (x, true) ∈ e.store.cancelAnswers [id] →
      e'.store = (e.store.cancel id).2 →
      e.store.phase x = .notSent ∧ ∀ j ∈ e.store.scopeOf x, e'.store.phase j ≠ .notSent
        ∧ (e.store.phase j = .notSent → e'.store.CalledOff j) := by
    intro id hid hstore
    obtain ⟨rfl, htrue⟩ := Prod.mk.inj (List.mem_singleton.mp hid)
    rw [hstore]
    exact hf.fates.cancelled hc htrue.symm
  cases ev with
  | cancel id =>
      obtain ⟨-, rfl⟩ := step_cancel_inv h
      exact hcall id hx rfl
  | cancelThrough k =>
      cases h
      rcases e.cancelThrough_calls k with ⟨id, hcalls, heq⟩ | hnone
      · rw [hcalls] at hx
        refine hcall id hx ?_
        rw [← heq]
        rfl
      · exact absurd hx (hnone x)
  | discard t =>
      cases h
      have hids : ∀ i ∈ (e.connection.collected t).toList, i ∈ e.owned := hs.collected t
      have hsingle := hc.kinds.owned_single x (hids x (Store.mem_of_mem_cancelAnswers hx))
      obtain ⟨hn, hoff⟩ := hf.fates.cancelAll hc hids hx
      refine ⟨hn, fun j hj => ?_⟩
      rw [hc.wellFormed.scopeOf_single hsingle] at hj
      rw [List.mem_singleton.mp hj]
      refine ⟨fun hw => ?_, fun _ => hoff⟩
      cases hoff.1.symm.trans hw
  | _ => cases hx

theorem cancelCalls_count (hs : e.Sound accepted) (ev : Event) (id : MessageId) :
    (e.cancelCalls ev).count (id, true) ≤ 1
      ∧ (e.store.phase id ≠ .notSent → (e.cancelCalls ev).count (id, true) = 0) := by
  have wf : e.store.WellFormed := hs.custody.wellFormed
  cases ev with
  | cancel j => exact Store.cancelAnswers_count wf [j] id
  | cancelThrough k =>
      rcases e.cancelThrough_calls k with ⟨j, hcalls, -⟩ | hnone
      · rw [hcalls]
        exact Store.cancelAnswers_count wf [j] id
      · rw [List.count_eq_zero.mpr (hnone id)]
        exact ⟨Nat.zero_le 1, fun _ => rfl⟩
  | discard t => exact Store.cancelAnswers_count wf (e.connection.collected t).toList id
  | _ => exact ⟨Nat.zero_le 1, fun _ => rfl⟩

/-- In a run at most one cancel call on a message succeeds, and none if it does not wait. -/
theorem cancelHistory_count (hs : e.Sound accepted) (hf : e.Fated stray)
    (hev : ∀ ev ∈ evs, ∀ id, ev.strays id → stray id) (h : e.run evs = some e') :
    (e.cancelHistory evs).count (id, true) ≤ 1
      ∧ (id < e.store.messages.size → e.store.phase id ≠ .notSent →
        (e.cancelHistory evs).count (id, true) = 0) := by
  induction evs generalizing e with
  | nil => exact ⟨Nat.zero_le 1, fun _ _ => rfl⟩
  | cons ev evs ih =>
      obtain ⟨e₁, hstep, hrest⟩ := run_cons_inv h
      have hhistory : e.cancelHistory (ev :: evs) = e.cancelCalls ev ++ e₁.cancelHistory evs := by
        rw [cancelHistory, hstep]
      have hsize := (step_grows hs hstep).size_le
      obtain ⟨hle, hnone⟩ := cancelCalls_count hs ev id
      obtain ⟨hle₁, hnone₁⟩ := ih (step_sound hs hstep)
        (step_fated hs hf (hev ev List.mem_cons_self) hstep).1
        (fun ev' hmem => hev ev' (List.mem_cons_of_mem ev hmem)) hrest
      rw [hhistory, List.count_append]
      constructor
      · by_cases hcall : (id, true) ∈ e.cancelCalls ev
        · -- the call has succeeded, so the message waits until then and not any more
          obtain ⟨hn, hoff⟩ := cancelCalls_true hs hf hstep hcall
          have hlt := Store.lt_size_of_notSent hn
          have hself := hs.custody.wellFormed.mem_scopeOf hlt
          rw [hnone₁ (Nat.lt_of_lt_of_le hlt hsize) (hoff id hself).1]
          exact hle
        · rw [List.count_eq_zero.mpr hcall, Nat.zero_add]
          exact hle₁
      · intro hlt hp
        rw [hnone hp, hnone₁ (Nat.lt_of_lt_of_le hlt hsize)
          fun hn => hp (step_advances hs hstep id hlt hn)]

/-- A cancel call of a run is one of its steps. -/
theorem cancelHistory_split (h : e.run evs = some e') (hx : (x, true) ∈ e.cancelHistory evs) :
    ∃ before ev after e₁ e₂, evs = before ++ ev :: after ∧ e.run before = some e₁
      ∧ e₁.step ev = some e₂ ∧ e₂.run after = some e' ∧ (x, true) ∈ e₁.cancelCalls ev := by
  induction evs generalizing e with
  | nil => cases hx
  | cons ev evs ih =>
      obtain ⟨e₂, hstep, hrest⟩ := run_cons_inv h
      rw [cancelHistory, hstep] at hx
      rcases List.mem_append.mp hx with hx | hx
      · exact ⟨[], ev, evs, e, e₂, rfl, rfl, hstep, hrest, hx⟩
      · obtain ⟨before, ev', after, e₃, e₄, rfl, hbefore, hev', hafter, hcall⟩ := ih hrest hx
        refine ⟨ev :: before, ev', after, e₃, e₄, rfl, ?_, hev', hafter, hcall⟩
        rw [run_cons, hstep]
        exact hbefore

/-! ## Runs -/

/-- All that holds in every state of a run. -/
structure Kept (stray : MessageId → Prop) (e : Engine) : Prop where
  sound : e.Sound []
  fated : e.Fated stray
  recorded : Recorded stray e

theorem Kept.step (hk : Kept stray e) (hev : ∀ id, ev.strays id → stray id)
    (h : e.step ev = some e') : Kept stray e' where
  sound := step_sound hk.sound h
  fated := (step_fated hk.sound hk.fated hev h).1
  recorded := step_recorded hk.sound hk.fated hk.recorded h

theorem Kept.run (hk : Kept stray e) (hev : ∀ ev ∈ evs, ∀ id, ev.strays id → stray id)
    (h : e.run evs = some e') : Kept stray e' :=
  run_induction_mem (fun _ _ _ hmem hk hstep => hk.step (hev _ hmem) hstep) h hk

theorem new_kept (stray : MessageId → Prop) (config : Config) : Kept stray (new config) where
  sound := new_sound config
  fated := new_fated stray config
  recorded :=
    { known := fun _ hj => by cases hj
      once := fun _ hid => by cases hid
      unsent := fun _ hid => by cases hid
      cause := fun _ hid => by cases hid }

theorem run_new_kept {config : Config} (h : (new config).run evs = some e) :
    Kept (fun _ => True) e :=
  (new_kept _ config).run (fun _ _ _ _ => trivial) h

/-- A message of a caller is one of a caller as long as it exists. -/
theorem run_owned (hs : e.Sound accepted) (h : e.run evs = some e') (hid : id ∈ e'.owned)
    (hlt : id < e.store.messages.size) : id ∈ e.owned := by
  induction evs generalizing e with
  | nil =>
      cases h
      exact hid
  | cons ev evs ih =>
      obtain ⟨e₁, hstep, hrest⟩ := run_cons_inv h
      have hsize := (step_grows hs hstep).size_le
      have ho := ih (step_sound hs hstep) hrest (Nat.lt_of_lt_of_le hlt hsize)
      rcases step_owned hstep with howned | ⟨r, -, rfl⟩
      · rw [howned] at ho
        exact ho
      · rcases List.mem_cons.mp ho with rfl | ho
        · exact absurd hlt (Nat.lt_irrefl _)
        · exact ho

theorem run_advances (hs : e.Sound accepted) (h : e.run evs = some e') :
    e.store.Advances e'.store := by
  induction evs generalizing e with
  | nil =>
      cases h
      exact fun _ _ hn => hn
  | cons ev evs ih =>
      obtain ⟨e₁, hstep, hrest⟩ := run_cons_inv h
      have hsize := (step_grows hs hstep).size_le
      intro j hj hn
      exact step_advances hs hstep j hj
        (ih (step_sound hs hstep) hrest j (Nat.lt_of_lt_of_le hj hsize) hn)

/-- The message has been called off, and no frame has been written for it. -/
structure Withdrawn (e : Engine) (id : MessageId) : Prop where
  single : e.store.IsSingle id
  calledOff : e.store.CalledOff id
  unwritten : e.framesOf id = 0

/-- That does not change any more. -/
theorem Withdrawn.step (h : e.Withdrawn id) (hk : Kept stray e)
    (hev : ∀ id, ev.strays id → stray id) (hstep : e.step ev = some e') (hid : id ∈ e'.owned) :
    e'.Withdrawn id := by
  have hgrows := step_grows hk.sound hstep
  have ho : id ∈ e.owned :=
    run_owned hk.sound ((run_singleton e ev).trans hstep) hid h.single.lt_size
  refine ⟨hgrows.isSingle h.single,
    (step_fated hk.sound hk.fated hev hstep).2 id h.single h.calledOff, ?_⟩
  obtain ⟨fs, htape, -, hall⟩ := step_frames_once hk.sound hk.fated hstep
  rw [framesOf_append hgrows hk.recorded.known htape, h.unwritten, Nat.zero_add]
  -- a frame would be one of a message that waits
  refine Nat.eq_zero_of_not_pos fun hpos => ?_
  cases h.calledOff.1.symm.trans ((hall id ho).1.picked hpos).1

theorem Withdrawn.run (h : e.Withdrawn id) (hk : Kept stray e)
    (hev : ∀ ev ∈ evs, ∀ id, ev.strays id → stray id) (hrun : e.run evs = some e')
    (hid : id ∈ e'.owned) : e'.Withdrawn id := by
  induction evs generalizing e with
  | nil =>
      cases hrun
      exact h
  | cons ev evs ih =>
      obtain ⟨e₁, hstep, hrest⟩ := run_cons_inv hrun
      have hk₁ := hk.step (hev ev List.mem_cons_self) hstep
      have hsize := (step_grows hk.sound hstep).size_le
      have ho : id ∈ e₁.owned :=
        run_owned hk₁.sound hrest hid (Nat.lt_of_lt_of_le h.single.lt_size hsize)
      exact ih (h.step hk (hev ev List.mem_cons_self) hstep ho) hk₁
        (fun ev' hmem => hev ev' (List.mem_cons_of_mem ev hmem)) hrest

/-- The message waits, or nothing can have become of it but that it has been called off. -/
def Pending (stray : MessageId → Prop) (e : Engine) (id : MessageId) : Prop :=
  e.store.phase id = .notSent ∨ ¬ stray id ∧ ¬ e.store.Departed id

/-- Such a message was so before. -/
theorem Pending.back (h : e'.Pending stray id) (hs : e.Sound accepted) (hrun : e.run evs = some e')
    (hlt : id < e.store.messages.size) : e.Pending stray id :=
  h.imp (run_advances hs hrun id hlt) fun ⟨hstray, hd⟩ =>
    ⟨hstray, fun hd' => hd (hd'.advance (run_grows hs hrun) (run_advances hs hrun))⟩

/-- It waits indeed, or it has been called off. -/
theorem Pending.waits_or_off (h : e.Pending stray id) (hk : Kept stray e) (hid : id ∈ e.owned) :
    e.store.phase id = .notSent ∨ e.store.CalledOff id := by
  by_cases hp : e.store.phase id = .notSent
  · exact Or.inl hp
  · obtain ⟨hstray, hd⟩ := h.resolve_left hp
    rcases hk.fated.fates.cause id hid hp with hs | hoff | hd'
    · exact absurd hs hstray
    · exact Or.inr hoff
    · exact absurd hd' hd

/-- No frame has been written for it. -/
theorem Pending.unwritten (h : e.Pending stray id) (hk : Kept stray e) (hid : id ∈ e.owned) :
    e.framesOf id = 0 := by
  rcases h with hp | ⟨hstray, hd⟩
  · exact hk.recorded.unsent id hid hp
  · refine Nat.eq_zero_of_not_pos fun hpos => ?_
    rcases hk.recorded.cause id hid hpos with hs | hd'
    · exact hstray hs
    · exact hd hd'

/-- And nothing but the cancellation can be handed out for it. -/
theorem Pending.take? (h : e.Pending stray id) (hk : Kept stray e) (hid : id ∈ e.owned)
    {k : CompletionId} {c : Completion} (hc : e.store.completions[k]? = some c)
    (ht : c.target = some id) {o : Outcome} (ho : c.take?.1 = some o) : o = .error .cancelled := by
  rcases h.waits_or_off hk hid with hp | hoff
  · rw [Completion.take?_of_waiting (hk.fated.fates.waiting k c id hc ht hp)] at ho
    cases ho
  · exact (hoff.2 k c hc ht).take? ho

/-- A cancel call that succeeds withdraws a message that waits. -/
theorem Pending.cancelled (h : e.Pending stray id) (hk : Kept stray e)
    (hev : ∀ id, ev.strays id → stray id) (hstep : e.step ev = some e')
    (hx : (x, true) ∈ e.cancelCalls ev) (hid : id ∈ e.owned) (hscope : id ∈ e.store.scopeOf x) :
    e'.Withdrawn id := by
  have hsingle := hk.sound.custody.kinds.owned_single id hid
  obtain ⟨-, hall⟩ := cancelCalls_true hk.sound hk.fated hstep hx
  have hoff : e'.store.CalledOff id := by
    rcases h.waits_or_off hk hid with hp | hoff
    · exact (hall id hscope).2 hp
    · exact (step_fated hk.sound hk.fated hev hstep).2 id hsingle hoff
  have hgrows := step_grows hk.sound hstep
  refine ⟨hgrows.isSingle hsingle, hoff, ?_⟩
  -- a cancel call writes nothing
  have htape : e'.tape = e.tape ++ [] := by
    rw [List.append_nil]
    refine step_tape hk.sound ?_ ?_ hstep
    · rintro rfl
      cases hx
    · rintro rfl
      cases hx
  rw [framesOf_append hgrows hk.recorded.known htape, h.unwritten hk hid]
  rfl

/-! ## Messages that go one way -/

/-- A step of the run puts the message into the queue by itself, or gives it up. -/
def Strayed (evs : List Event) (id : MessageId) : Prop := ∃ ev ∈ evs, ev.strays id = true

/-- At the end of the run the message has gone one way: no batch has it, or one batch has it and
nobody has put it into the queue by itself or given it up. -/
def OneWay (evs : List Event) (e : Engine) (id : MessageId) : Prop :=
  e.store.batchesWith id = []
    ∨ (∀ ev ∈ evs, ev.strays id = false) ∧ (e.store.batchesWith id).length ≤ 1

instance (evs : List Event) (e : Engine) (id : MessageId) : Decidable (OneWay evs e id) :=
  inferInstanceAs (Decidable (_ ∨ _))

/-- If there is a batch with the message, that is its one way. -/
theorem OneWay.of_batch (h : OneWay evs e id) {b : MessageId} {ms : List MessageId}
    (hb : e.store.IsBatch b ms) (hid : id ∈ ms) :
    ¬ Strayed evs id ∧ ∀ b' ms', e.store.IsBatch b' ms' → id ∈ ms' → b' = b := by
  have hmem := Store.mem_batchesWith.mpr ⟨ms, hb, hid⟩
  rcases h with hnone | ⟨hstray, hle⟩
  · rw [hnone] at hmem
    cases hmem
  · constructor
    · rintro ⟨ev, hev, htrue⟩
      cases (hstray ev hev).symm.trans htrue
    · intro b' ms' hb' hid'
      have hmem' := Store.mem_batchesWith.mpr ⟨ms', hb', hid'⟩
      obtain ⟨b₀, hone⟩ : ∃ b₀, e.store.batchesWith id = [b₀] :=
        List.length_eq_one_iff.mp (Nat.le_antisymm hle (List.length_pos_of_mem hmem))
      rw [hone] at hmem hmem'
      rw [List.mem_singleton.mp hmem', List.mem_singleton.mp hmem]

/-- While the message waits or its batch does, nothing can have become of the message but that it
has been called off. -/
theorem OneWay.pending (h : OneWay evs e id) (hs : e₁.Sound accepted) {rest : List Event}
    (hrun : e₁.run rest = some e) (hid : id ∈ e.owned) (hx : e.Belongs x id)
    (hn : e₁.store.phase x = .notSent) :
    id ∈ e₁.owned ∧ id ∈ e₁.store.scopeOf x ∧ e₁.Pending (Strayed evs) id := by
  have hc : Custody e₁.owned accepted e₁.connection.queue.toList e₁.connection.ledger.entries
      e₁.store := hs.custody
  have hlt := Store.lt_size_of_notSent hn
  have hgrows := run_grows hs hrun
  rcases hx with rfl | ⟨ms, hb, hmem⟩
  · exact ⟨run_owned hs hrun hid hlt, hc.wellFormed.mem_scopeOf hlt, Or.inl hn⟩
  · have hb₁ := hgrows.isBatch_of_lt hlt hb
    obtain ⟨hstray, hone⟩ := h.of_batch hb hmem
    refine ⟨hc.kinds.members_owned x ms hb₁ id hmem, ?_, Or.inr ⟨hstray, ?_⟩⟩
    · rw [hc.wellFormed.scopeOf_batch hb₁]
      exact List.mem_append_left _ hmem
    · -- the batch that has departed would be the one that waits
      rintro ⟨b', ms', hb', hmem', hp⟩
      rw [hone b' ms' (hgrows.isBatch hb') hmem'] at hp
      exact hp hn

/-- After its frame has been written neither the message nor its batch waits. -/
theorem OneWay.ne_notSent (h : OneWay evs e id) (hk : Kept (Strayed evs) e) (hid : id ∈ e.owned)
    (hpos : 0 < e.framesOf id) (hx : e.Belongs x id) : e.store.phase x ≠ .notSent := by
  rcases hx with rfl | ⟨ms, hb, hmem⟩
  · intro hn
    rw [hk.recorded.unsent id hid hn] at hpos
    exact absurd hpos (Nat.lt_irrefl 0)
  · obtain ⟨hstray, hone⟩ := h.of_batch hb hmem
    obtain ⟨b, ms', hb', hmem', hp⟩ := (hk.recorded.cause id hid hpos).resolve_left hstray
    rw [hone b ms' hb' hmem'] at hp
    exact hp

/-- A state of a run comes before a step of it or after. -/
theorem run_before_or_after {before after before₀ after₀ : List Event} {e₀ : Engine}
    (hbefore : e.run before = some e₁) (hstep : e₁.step ev = some e₂)
    (hafter : e₂.run after = some e') (hrun : e.run before₀ = some e₀)
    (heq : before ++ ev :: after = before₀ ++ after₀) :
    (∃ evs, e₀.run evs = some e₁) ∨ ∃ evs, after = evs ++ after₀ ∧ e₂.run evs = some e₀
      ∧ e₀.run after₀ = some e' := by
  rcases List.append_eq_append_iff.mp heq with ⟨mid, rfl, hmid⟩ | ⟨mid, rfl, -⟩
  · rw [run_append, hbefore, Option.bind_some] at hrun
    cases mid with
    | nil =>
        cases hrun
        exact Or.inl ⟨[], rfl⟩
    | cons ev' mid =>
        obtain ⟨rfl, rfl⟩ := List.cons.inj hmid
        rw [run_cons, hstep, Option.bind_some] at hrun
        have hrest : (e₂.run mid).bind (·.run after₀) = some e' :=
          (run_append e₂ mid after₀).symm.trans hafter
        rw [hrun, Option.bind_some] at hrest
        exact Or.inr ⟨mid, rfl, hrun, hrest⟩
  · rw [run_append, hrun, Option.bind_some] at hbefore
    exact Or.inl ⟨mid, hbefore⟩

theorem kept_of_run {config : Config} {before after : List Event} (hsplit : evs = before ++ after)
    (h : (new config).run before = some e) : Kept (Strayed evs) e := by
  subst hsplit
  refine (new_kept _ config).run (fun ev hmem j htrue => ⟨ev, ?_, htrue⟩) h
  exact List.mem_append_left after hmem

/-- When a cancel call on the message or its batch succeeds, nothing has become of the message, and
it is withdrawn. -/
theorem OneWay.withdrawn {config : Config} (hway : OneWay evs e id)
    (h : (new config).run evs = some e) (hid : id ∈ e.owned) (hx : e.Belongs x id)
    (hcall : (x, true) ∈ (new config).cancelHistory evs) :
    ∃ before ev after e₁ e₂, evs = before ++ ev :: after ∧ (new config).run before = some e₁
      ∧ e₁.step ev = some e₂ ∧ e₂.run after = some e ∧ id ∈ e₁.owned
      ∧ e₁.Pending (Strayed evs) id ∧ e₂.Withdrawn id := by
  obtain ⟨before, ev, after, e₁, e₂, hsplit, hbefore, hstep, hafter, hcalls⟩ :=
    cancelHistory_split h hcall
  have hk₁ := kept_of_run hsplit hbefore
  obtain ⟨hn, -⟩ := cancelCalls_true hk₁.sound hk₁.fated hstep hcalls
  have hrest : e₁.run (ev :: after) = some e := by
    rw [run_cons, hstep]
    exact hafter
  obtain ⟨ho, hscope, hpending⟩ := hway.pending hk₁.sound hrest hid hx hn
  have hev : ∀ j, ev.strays j = true → Strayed evs j := by
    intro j htrue
    rw [hsplit]
    exact ⟨ev, List.mem_append_right before List.mem_cons_self, htrue⟩
  exact ⟨before, ev, after, e₁, e₂, hsplit, hbefore, hstep, hafter, ho, hpending,
    hpending.cancelled hk₁ hev hstep hcalls ho hscope⟩

/-- So in no state of the run anything but the cancellation can be handed out for it, and afterwards
it stays withdrawn. -/
theorem OneWay.heard {config : Config} (hway : OneWay evs e id)
    (h : (new config).run evs = some e) (hid : id ∈ e.owned) (hx : e.Belongs x id)
    (hcall : (x, true) ∈ (new config).cancelHistory evs) :
    e.Withdrawn id ∧ ∀ before after e₀, evs = before ++ after →
      (new config).run before = some e₀ → ∀ (k : CompletionId) c,
        e₀.store.completions[k]? = some c → c.target = some id →
          ∀ o, c.take?.1 = some o → o = .error .cancelled := by
  obtain ⟨before, ev, after, e₁, e₂, hsplit, hbefore, hstep, hafter, ho, hpending, hw⟩ :=
    hway.withdrawn h hid hx hcall
  have hsplit₂ : evs = (before ++ [ev]) ++ after := by
    rw [hsplit, List.append_assoc]
    rfl
  have hrun₂ : (new config).run (before ++ [ev]) = some e₂ := by
    rw [run_append, hbefore]
    exact (run_singleton e₁ ev).trans hstep
  have hk₂ := kept_of_run hsplit₂ hrun₂
  have hev : ∀ ev' ∈ after, ∀ j, ev'.strays j = true → Strayed evs j := by
    intro ev' hmem j htrue
    rw [hsplit₂]
    exact ⟨ev', List.mem_append_right _ hmem, htrue⟩
  refine ⟨hw.run hk₂ hev hafter hid, fun before₀ after₀ e₀ hsplit₀ hrun k c hc ht o hout => ?_⟩
  have hk₀ := kept_of_run hsplit₀ hrun
  have hlt : id < e₀.store.messages.size := hk₀.fated.fates.target_lt hk₀.sound.custody hc ht
  rcases run_before_or_after hbefore hstep hafter hrun (hsplit.symm.trans hsplit₀) with
    ⟨mid, hmid⟩ | ⟨mid, rfl, hmid, hend⟩
  · have ho₀ := run_owned hk₀.sound hmid ho hlt
    exact (hpending.back hk₀.sound hmid hlt).take? hk₀ ho₀ hc ht hout
  · have ho₀ := run_owned hk₀.sound hend hid hlt
    have hw₀ := hw.run hk₂ (fun ev' hmem => hev ev' (List.mem_append_left after₀ hmem)) hmid ho₀
    exact (hw₀.calledOff.2 k c hc ht).take? hout

/-- Of writing the message and cancelling it at most one has happened in the run. -/
structure Decided (config : Config) (evs : List Event) (e : Engine) (id : MessageId) : Prop where
  frame : e.framesOf id ≤ 1
  call : ((new config).cancelHistory evs).count (id, true) ≤ 1
  /-- after a successful cancel call on the message or its batch there is no frame, and all that
  hold a completion have an outcome -/
  cancelled : ∀ x, e.Belongs x id → (x, true) ∈ (new config).cancelHistory evs →
    e.framesOf id = 0 ∧ e.store.Settled id
  /-- and in the whole run nobody has been handed anything but the cancellation -/
  heard : ∀ x, e.Belongs x id → (x, true) ∈ (new config).cancelHistory evs →
    ∀ before after e₀, evs = before ++ after → (new config).run before = some e₀ →
      ∀ (k : CompletionId) c, e₀.store.completions[k]? = some c → c.target = some id →
        ∀ o, c.take?.1 = some o → o = .error .cancelled
  /-- after the frame has been written, cancel calls on the message and its batch fail and change
  nothing -/
  written : 0 < e.framesOf id → ∀ x, e.Belongs x id → e.store.cancel x = (false, e.store)
    ∧ ∀ (k : CompletionId) c, e.store.completions[k]? = some c → c.target = some x →
      e.store.cancelThrough k = (false, e.store)

/-- A message that has gone one way is written or cancelled, and not both. -/
theorem written_or_cancelled {config : Config} (h : (new config).run evs = some e)
    (hid : id ∈ e.owned) (hway : OneWay evs e id) : Decided config evs e id := by
  have hk : Kept (Strayed evs) e := kept_of_run (List.append_nil evs).symm h
  constructor
  case frame => exact hk.recorded.once id hid
  case call =>
    exact (cancelHistory_count (new_sound config) (new_fated (Strayed evs) config)
      (fun ev hmem _ htrue => ⟨ev, hmem, htrue⟩) h).1
  case cancelled =>
    intro x hx hcall
    obtain ⟨hw, -⟩ := hway.heard h hid hx hcall
    exact ⟨hw.unwritten, fun k c hc ht => (hw.calledOff.2 k c hc ht).isComplete⟩
  case heard =>
    intro x hx hcall
    exact (hway.heard h hid hx hcall).2
  case written =>
    intro hpos x hx
    have hcancel := Store.cancel_of_ne (hway.ne_notSent hk hid hpos hx)
    refine ⟨hcancel, fun k c hc ht => ?_⟩
    rcases e.store.cancelThrough_cases k with heq | ⟨d, y, hd, hy, heq⟩
    · exact heq
    · cases hc.symm.trans hd
      cases ht.symm.trans hy
      exact heq.trans hcancel

/-- A block with two commands. One of them is cancelled while it waits in the transaction, the other
one and the block when it is too late. -/
def cancelledBlock : List Event :=
  [.newTransaction, .make { command := .get, args := [.text "k"] },
   .submit (.transaction 0) 0 .standard .text, .make { command := .incr, args := [.text "n"] },
   .submit (.transaction 0) 1 .standard .integer, .cancelThrough 0, .execute 0 .high, .round,
   .cancelThrough 1, .cancelThrough 2]

theorem written_or_cancelled_block :
    Decided {} cancelledBlock (((new {}).run cancelledBlock).get (by decide)) 0 :=
  written_or_cancelled (Option.some_get _).symm (by decide) (by decide)

example : (new {}).cancelHistory cancelledBlock = [(0, true), (1, false), (2, false)] := by decide

end Engine

end RespMux
