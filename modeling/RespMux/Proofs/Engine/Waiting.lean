import RespMux.Proofs.Engine.Ending

/-!
# How a message leaves the line

A message that waits in the queue is written when the pump comes to it or to a batch with it. Unless
the connection is stopped, nothing else can become of it but that somebody gives it up
(`LeavesLine`): its owner, whoever waits for it or for the batch, or a call on the connection that
is refused. So when the queue is empty, it has been written or given up (`run_leaves`).
-/

set_option autoImplicit false

namespace RespMux

namespace Engine

variable {accepted : List MessageId} {e e₁ e' : Engine} {ev : Event}
variable {evs : List Event} {id : MessageId}

/-- The run comes to the step `ev` in the state `e₁`. -/
def ComesTo (e : Engine) (evs : List Event) (ev : Event) (e₁ : Engine) : Prop :=
  ∃ before after, evs = before ++ ev :: after ∧ e.run before = some e₁

theorem ComesTo.head (e : Engine) (ev : Event) (evs : List Event) : e.ComesTo (ev :: evs) ev e :=
  ⟨[], evs, rfl, rfl⟩

theorem ComesTo.later {ev' : Event} {e₂ : Engine} (h : e.step ev = some e₁)
    (hcomes : e₁.ComesTo evs ev' e₂) : e.ComesTo (ev :: evs) ev' e₂ := by
  obtain ⟨before, after, rfl, hbefore⟩ := hcomes
  refine ⟨ev :: before, after, rfl, ?_⟩
  rw [run_cons, h]
  exact hbefore

/-- In the round from `e` to `e'` the message that waits is picked up, by itself or with a batch,
and a frame for it is recorded. -/
structure Dispatched (id : MessageId) (e e' : Engine) : Prop where
  round : e.step .round = some e'
  waiting : e.store.phase id = .notSent
  picked : ∃ x fs, e.Belongs x id ∧ PicksUp x fs e e'.connection ∧ e'.tape = e.tape ++ fs
    ∧ (e.store.IsSingle id → Covers fs id)

/-- In the step from `e` to `e'` the message that waits is given up. -/
structure Dropped (id : MessageId) (ev : Event) (e e' : Engine) : Prop where
  step : e.step ev = some e'
  waiting : e.store.phase id = .notSent
  gives : e.GivesUp ev id
  complete : e'.store.phase id = .complete

/-- How a message leaves the line in a run from `e`. -/
inductive LeavesLine (e : Engine) (evs : List Event) (id : MessageId) : Prop where
  | written {e₁ e₂ : Engine} (hcomes : e.ComesTo evs .round e₁) (h : Dispatched id e₁ e₂)
  | givenUp {ev : Event} {e₁ e₂ : Engine} (hcomes : e.ComesTo evs ev e₁) (h : Dropped id ev e₁ e₂)

theorem LeavesLine.later (h : e.step ev = some e₁) (hleaves : LeavesLine e₁ evs id) :
    LeavesLine e (ev :: evs) id := by
  cases hleaves with
  | written hcomes hd => exact .written (hcomes.later h) hd
  | givenUp hcomes hd => exact .givenUp (hcomes.later h) hd

/-! ## One step -/

/-- No frame in flight is for a message that waits. -/
theorem Sound.not_covers (hs : e.Sound accepted) (hid : id ∈ e.owned)
    (hn : e.store.phase id = .notSent) : ¬ Covers e.connection.ledger.entries id := by
  have hc := hs.custody
  have hself := hc.wellFormed.mem_scopeOf (Store.lt_size_of_notSent hn)
  rintro (hmem | ⟨blk, hmem, hslot⟩)
  · exact hc.phases.reached _ hmem id hself hid hn
  · exact hc.phases.reached _ hmem id (List.mem_flatMap.mpr ⟨id, hslot, hself⟩) hid hn

/-- What a round picks up belongs to the message that is taken out of the queue, and the frame for
it is among those of the round. -/
theorem round_waits (hs : e.Sound accepted) (hn : e.store.phase id = .notSent)
    (hid : id ∈ e.owned ∨ ∃ ms, e.store.IsBatch id ms) (ha : e.connection.aborting = false)
    (h : e.step .round = some e') : e'.store.phase id = .notSent ∨ Dispatched id e e' := by
  have hc := hs.custody
  have hlt := Store.lt_size_of_notSent hn
  obtain ⟨x, rest, hqueue, hrest, -, ⟨hpassed, -, -⟩ | ⟨fs, htape, hpick⟩⟩ := round_cases hs h
  · -- the pump passes over a message that does not wait, and changes nothing
    have hx : e.store.phase x ≠ .notSent :=
      hpassed.resolve_left fun htrue => by cases htrue.symm.trans ha
    obtain ⟨y, overtook, q, wakes, hnext, hfault, rfl⟩ := step_round h
    obtain rfl : y = x :=
      (List.cons.inj ((PriorityQueue.next?_toList hnext).symm.trans hqueue)).1
    have hskip : (e.withQueue q).handle y overtook = (e.withQueue q).count .cancelled :=
      Writer.handle_skipped (w := e.withQueue q) ha hx overtook
    left
    rw [hskip]
    exact hn
  · by_cases hn' : e'.store.phase id = .notSent
    · exact Or.inl hn'
    · obtain ⟨sel, hdispatch⟩ := hpick.dispatch
      refine Or.inr ⟨h, hn, x, fs, ?_, hpick, htape, fun hsingle => ?_⟩
      · by_cases hne : id = x
        · exact Or.inl hne
        · have hn₁ : (e.store.markSent x).2.phase id = .notSent :=
            (Store.phase_congr (Store.markSent_messages_ne (Ne.symm hne))).trans hn
          have hlt₁ : id < (e.store.markSent x).2.messages.size := by
            rw [Store.markSent_size]
            exact hlt
          obtain ⟨ms, hbatch, hmem⟩ := hdispatch.mem_of_picked hlt₁ hn₁ hn'
          exact Or.inr ⟨ms, Store.markSent_batches.mp hbatch, hmem⟩
      · -- it is in flight now, and it was not before
        have howned : id ∈ e.owned := hid.resolve_right fun ⟨ms, hb⟩ => hsingle.not_isBatch ms hb
        have hsent : e'.store.phase id = .sent := by
          rcases hdispatch.picked_phase hlt with hsame | ⟨-, hsent⟩
          · exact absurd (hsame.trans hn) hn'
          · exact hsent
        have hcovers := (step_sound hs h).custody.phases.sent id
          ((step_grows hs h).isSingle hsingle) hsent
        rw [hpick.entries] at hcovers
        have hbefore := hs.not_covers howned hn
        rcases hcovers with hmem | ⟨blk, hmem, hslot⟩
        · exact Or.inl ((List.mem_append.mp hmem).resolve_left fun hold => hbefore (Or.inl hold))
        · exact Or.inr ⟨blk, (List.mem_append.mp hmem).resolve_left fun hold =>
            hbefore (Or.inr ⟨blk, hold, hslot⟩), hslot⟩

/-- A message that waits goes on to wait, or it leaves the line in the step. -/
theorem step_waits (hs : e.Sound accepted) (hn : e.store.phase id = .notSent)
    (hid : id ∈ e.owned ∨ ∃ ms, e.store.IsBatch id ms) (hfinish : ev ≠ .finish)
    (h : e.step ev = some e') (ha : e'.connection.aborting = false) :
    e'.store.phase id = .notSent ∨ (ev = .round ∧ Dispatched id e e') ∨ Dropped id ev e e' := by
  have hopen := (step_sound hs h).open_of_not_aborting ha
  by_cases hround : ev = .round
  · subst hround
    exact (round_waits hs hn hid (step_running hs h ha) h).imp_right fun hd => Or.inl ⟨rfl, hd⟩
  · rcases step_phase hs hround h (Store.lt_size_of_notSent hn) with hsame | hcomplete
    · exact Or.inl (hsame.trans hn)
    · have hgives := (step_stays hs hn hid hround hfinish h hopen).resolve_left fun hn' => by
        cases hcomplete.symm.trans hn'
      exact Or.inr (Or.inr ⟨h, hn, hgives, hcomplete⟩)

/-! ## A run -/

/-- Until it leaves the line, a message waits. -/
theorem run_waits_or_leaves (hs : e.Sound accepted) (hn : e.store.phase id = .notSent)
    (hid : id ∈ e.owned ∨ ∃ ms, e.store.IsBatch id ms) (h : e.run evs = some e')
    (hended : e'.ended = false) (ha : e'.connection.aborting = false) :
    e'.store.phase id = .notSent ∨ LeavesLine e evs id := by
  induction evs generalizing e with
  | nil =>
      cases h
      exact Or.inl hn
  | cons ev evs ih =>
      obtain ⟨e₁, h₁, hrest⟩ := run_cons_inv h
      have hs₁ := step_sound hs h₁
      have ha₁ := run_running hs₁ hrest ha
      have hfinish := run_not_finish h₁ hrest hended
      rcases step_waits hs hn hid hfinish h₁ ha₁ with hn₁ | ⟨rfl, hd⟩ | hd
      · have hid₁ : id ∈ e₁.owned ∨ ∃ ms, e₁.store.IsBatch id ms := by
          rcases hid with howned | ⟨ms, hbatch⟩
          · exact Or.inl (step_owns h₁ howned)
          · exact Or.inr ⟨ms, (step_grows hs h₁).isBatch hbatch⟩
        exact (ih hs₁ hn₁ hid₁ hrest).imp_right (LeavesLine.later h₁)
      · exact Or.inr (.written (.head e .round evs) hd)
      · exact Or.inr (.givenUp (.head e ev evs) hd)

/-- When the pump has come to the end of the queue, whatever waited in it has left the line. -/
theorem run_leaves (hs : e.Sound accepted) (hid : id ∈ e.connection.queue.toList)
    (hn : e.store.phase id = .notSent) (h : e.run evs = some e') (hended : e'.ended = false)
    (ha : e'.connection.aborting = false) (hempty : e'.connection.queue.toList = []) :
    LeavesLine e evs id := by
  have hkind := hs.custody.kinds.queued_kind id hid
  refine (run_waits_or_leaves hs hn hkind h hended ha).resolve_left fun hn' => ?_
  have hqueued := (run_sound hs.accept h).custody.phases.accepted_queued id
    (List.mem_append_left accepted hid) hn'
  rw [hempty] at hqueued
  cases hqueued

end Engine

end RespMux
