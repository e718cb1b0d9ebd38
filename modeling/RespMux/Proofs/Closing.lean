import Mathlib.Data.List.Forall2
import RespMux.Proofs.Engine.Waiting

/-!
# How a connection is closed

A connection that is closed gracefully takes nothing more. Its pump writes what is queued, in the
order of the queue, says good-bye, and writes nothing afterwards (`ClosesGracefully`). In between,
callers may still give messages up and replies may come in.

An abort stops the pump: from then on nothing is written, not even a good-bye, and whoever waits for
a message that the pump still takes out of the queue is told (`Stops`). It may come in the middle
of a graceful close, and every shutdown is one.
-/

set_option autoImplicit false

namespace RespMux

/-- The message `j` is over, and whoever waited for it in `s` has been told of an abort. -/
structure Store.Aborts (j : MessageId) (s s' : Store) : Prop where
  complete : s'.phase j = .complete
  told : ∀ (k : CompletionId) d, s.completions[k]? = some d → d.target = some j → d.Waits →
    ∃ d', s'.completions[k]? = some d' ∧ d'.stage = .delivered (.error .aborted)

namespace Engine

variable {accepted : List MessageId} {e e₁ e' : Engine} {ev : Event} {evs during : List Event}
variable {id : MessageId}

/-! ## An abort -/

theorem step_silent (hs : e.Sound accepted) (ha : e.connection.aborting = true)
    (h : e.step ev = some e') :
    e'.writer.written = e.writer.written ∧ e'.writer.buffer = e.writer.buffer := by
  by_cases hround : ev = .round
  · subst hround
    obtain ⟨id, hdiscards⟩ := round_discards ha h
    exact ⟨hdiscards.written, hdiscards.buffer⟩
  by_cases hfinish : ev = .finish
  · subst hfinish
    obtain ⟨hfault, rfl⟩ := step_finish h
    show e.writer.finish.written = _ ∧ e.writer.finish.buffer = _
    rw [finish_aborting hfault ha]
    exact ⟨rfl, rfl⟩
  · obtain ⟨hwritten, hbuffer, -⟩ := step_still hs hround hfinish h
    exact ⟨hwritten, hbuffer⟩

/-- After an abort nothing is written. -/
theorem run_silent (hs : e.Sound accepted) (ha : e.connection.aborting = true)
    (h : e.run evs = some e') :
    e'.connection.aborting = true ∧ e'.writer.written = e.writer.written
      ∧ e'.writer.buffer = e.writer.buffer := by
  refine run_induction_sound (P := fun e' => e'.connection.aborting = true
    ∧ e'.writer.written = e.writer.written ∧ e'.writer.buffer = e.writer.buffer) hs ?_ h
    ⟨ha, rfl, rfl⟩
  intro e₁ ev e₂ hs₁ ⟨ha₁, hwritten, hbuffer⟩ hstep
  obtain ⟨hwritten', hbuffer'⟩ := step_silent hs₁ ha₁ hstep
  exact ⟨step_aborting hs₁ hstep ha₁, hwritten'.trans hwritten, hbuffer'.trans hbuffer⟩

/-- Whoever waits for what belongs to a queued message waits for its own completer. -/
theorem Orderly.belonging_sink (ho : e.Orderly) (hid : id ∈ e.connection.queue.toList)
    {j : MessageId} (hj : e.Belongs id j) {k : CompletionId} {d : Completion}
    (hd : e.store.completions[k]? = some d) (ht : d.target = some j) (hw : d.Waits) :
    ∃ sh, e.store.sink j = .assigned ⟨k, sh⟩ := by
  have hc := ho.sound.custody
  have hsingle : ∀ j ∈ e.owned, d.target = some j → ∃ sh, e.store.sink j = .assigned ⟨k, sh⟩ :=
    fun j howned ht => hc.sink_of_waits (hc.kinds.owned_single j howned).not_isBatch hd ht hw
  rcases hj with rfl | ⟨ms, hbatch, hj⟩
  · rcases hc.kinds.queued_kind j hid with howned | ⟨ms, hbatch⟩
    · exact hsingle j howned ht
    · exact ho.sound.batch_sink ho.lined hid hbatch hd ht hw
  · exact hsingle j (hc.kinds.members_owned id ms hbatch j hj) ht

/-- After an abort, what the pump takes out of the queue fails with all that belongs to it. -/
theorem round_aborts (ho : e.Orderly) (ha : e.connection.aborting = true)
    (h : e.step .round = some e') :
    ∃ id, e.connection.queue.toList = id :: e'.connection.queue.toList
      ∧ ∀ j, e.Belongs id j → Store.Aborts j e.store e'.store := by
  have hc := ho.sound.custody
  have wf : e.store.WellFormed := hc.wellFormed
  obtain ⟨id, hdiscards⟩ := round_discards ha h
  have hid : id ∈ e.connection.queue.toList := by
    rw [hdiscards.queue]
    exact List.mem_cons_self
  refine ⟨id, hdiscards.queue, fun j hj => ?_⟩
  have hscope : j ∈ e.store.scopeOf id := by
    rcases hj with rfl | ⟨ms, hbatch, hj⟩
    · exact ho.sound.mem_scopeOf hid
    · rw [wf.scopeOf_batch hbatch]
      exact List.mem_append_left _ hj
  rw [hdiscards.store]
  have hresolves := Store.fail_resolves wf id .aborted
  have hcomplete := e.store.fail_phase id .aborted j hscope
  refine ⟨hcomplete, fun k d hd ht hw => ?_⟩
  obtain ⟨sh, hsink⟩ := ho.belonging_sink hid hj hd ht hw
  -- it is not left waiting, since its completer is gone
  have hconsumed : (e.store.fail id .aborted).sink j = .consumed := by
    refine (hresolves.settled j hcomplete).resolve_left fun hbefore => ?_
    cases hsink.symm.trans (hc.completers.complete j hbefore)
  exact ⟨_, hresolves.given_of_consumed hd hsink hconsumed, Completion.deliver_stage hw _⟩

/-- The pump has been stopped. -/
structure Stops (e : Engine) : Prop where
  silent : ∀ evs e', e.run evs = some e' → e'.connection.aborting = true
    ∧ e'.writer.written = e.writer.written ∧ e'.writer.buffer = e.writer.buffer
  /-- a message that is taken out of the queue fails, and with a batch its members -/
  fails : ∀ evs e₁ e₂, e.run evs = some e₁ → e₁.step .round = some e₂ →
    ∃ id, e₁.connection.queue.toList = id :: e₂.connection.queue.toList
      ∧ ∀ j, e₁.Belongs id j → Store.Aborts j e₁.store e₂.store

theorem Orderly.stops (ho : e.Orderly) (ha : e.connection.aborting = true) : e.Stops where
  silent _ _ h := run_silent ho.sound ha h
  fails _ _ _ h hround := round_aborts (ho.run h) (run_silent ho.sound ha h).1 hround

/-! ## A graceful close -/

/-- In the run the pump comes to the message `id` and writes the frames `fs` for it. Only what has
its outcome already, or has been written before and waits for a reply, is passed over. -/
inductive Reaches (e : Engine) (evs : List Event) (id : MessageId) : List InFlight → Prop where
  | written {e₁ e₂ : Engine} {fs : List InFlight} (hcomes : e.ComesTo evs .round e₁)
      (hround : e₁.step .round = some e₂) (hpicks : PicksUp id fs e₁ e₂.connection) :
      Reaches e evs id fs
  | passed {e₁ e₂ : Engine} (hcomes : e.ComesTo evs .round e₁)
      (hround : e₁.step .round = some e₂)
      (hqueue : e₁.connection.queue.toList = id :: e₂.connection.queue.toList)
      (hover : e₁.store.phase id = .complete
        ∨ (e₁.store.phase id = .sent ∧ Covers e₁.connection.ledger.entries id)) :
      Reaches e evs id []

theorem Reaches.later {fs : List InFlight} (h : e.step ev = some e₁) (hr : Reaches e₁ evs id fs) :
    Reaches e (ev :: evs) id fs := by
  cases hr with
  | written hcomes hround hpicks => exact .written (hcomes.later h) hround hpicks
  | passed hcomes hround hqueue hover => exact .passed (hcomes.later h) hround hqueue hover

/-- Without an abort a round is the turn of the next message. -/
theorem round_reaches (ho : e.Orderly) (ha : e.connection.aborting = false)
    (h : e.step .round = some e') (after : List Event) :
    ∃ id fs, e.connection.queue.toList = id :: e'.connection.queue.toList
      ∧ Reaches e (.round :: after) id fs ∧ e'.tape = e.tape ++ fs := by
  have hc := ho.sound.custody
  obtain ⟨id, rest, hqueue, rfl, -, ⟨hpassed, htape, -⟩ | ⟨fs, htape, hpicks⟩⟩ :=
    round_cases ho.sound h
  · have hid : id ∈ e.connection.queue.toList := by
      rw [hqueue]
      exact List.mem_cons_self
    have hphase : e.store.phase id ≠ .notSent :=
      hpassed.resolve_left fun htrue => by cases htrue.symm.trans ha
    have hover : e.store.phase id = .complete
        ∨ (e.store.phase id = .sent ∧ Covers e.connection.ledger.entries id) := by
      cases hp : e.store.phase id with
      | notSent => exact absurd hp hphase
      | complete => exact .inl rfl
      | sent =>
          rcases hc.kinds.queued_kind id hid with howned | ⟨ms, hbatch⟩
          · exact .inr ⟨rfl, hc.phases.sent id (hc.kinds.owned_single id howned) hp⟩
          · exact absurd hp (ho.lined.unsent id hid ms hbatch)
    exact ⟨id, [], hqueue, .passed (.head e .round after) h hqueue hover,
      by rw [htape, List.append_nil]⟩
  · exact ⟨id, fs, hqueue, .written (.head e .round after) h hpicks, htape⟩

/-- As long as a pump with a closed queue is neither stopped nor at its end, it writes the queue
from its head on. -/
theorem run_reaches (ho : e.Orderly) (hclosed : e.connection.queue.isClosed = true)
    (h : e.run during = some e') (hended : e'.ended = false)
    (ha : e'.connection.aborting = false) :
    ∃ gone fss, e.connection.queue.toList = gone ++ e'.connection.queue.toList
      ∧ List.Forall₂ (Reaches e during) gone fss ∧ e'.tape = e.tape ++ fss.flatten := by
  induction during generalizing e with
  | nil =>
      cases h
      exact ⟨[], [], rfl, .nil, (List.append_nil _).symm⟩
  | cons ev during ih =>
      obtain ⟨e₁, h₁, hrest⟩ := run_cons_inv h
      have ho₁ := ho.step h₁
      have ha₁ := run_running ho₁.sound hrest ha
      have hfinish := run_not_finish h₁ hrest hended
      obtain ⟨gone, fss, hqueue, hreached, htape⟩ :=
        ih ho₁ (step_closed ho.sound h₁ hclosed) hrest
      have hreached : List.Forall₂ (Reaches e (ev :: during)) gone fss :=
        hreached.imp fun _ _ => Reaches.later h₁
      by_cases hround : ev = .round
      · subst hround
        have ha₀ := step_running ho.sound h₁ ha₁
        obtain ⟨id, fs, hnext, hreaches, htape₁⟩ := round_reaches ho ha₀ h₁ during
        refine ⟨id :: gone, fs :: fss, ?_, .cons hreaches hreached, ?_⟩
        · rw [hnext, hqueue]
          rfl
        · rw [htape, htape₁, List.flatten_cons, List.append_assoc]
      · -- nobody else takes anything out of the queue, and nobody puts anything in
        have hsame : e₁.connection.queue.toList = e.connection.queue.toList := by
          refine ((step_requeues ho.sound hround h₁).closed hclosed).resolve_right fun hdown => ?_
          cases (ho₁.sound.down hdown).2.2.2.symm.trans ha₁
        refine ⟨gone, fss, hsame.symm.trans hqueue, hreached, ?_⟩
        rw [htape, step_tape ho.sound hround hfinish h₁]

/-- Between `e` and `e'`, where the pump comes to its end, the queue has been written, and then a
good-bye. -/
structure Drained (e : Engine) (during : List Event) (e' : Engine) (fss : List (List InFlight))
    (quit : MessageId) : Prop where
  reached : List.Forall₂ (Reaches e during) e.connection.queue.toList fss
  /-- what waits at the beginning is written, by itself or with a batch, unless it is given up -/
  leaves : ∀ id ∈ e.connection.queue.toList, e.store.phase id = .notSent → LeavesLine e during id
  written : e'.writer.written = e.tape ++ fss.flatten ++ [.message quit]
  flushed : e'.writer.buffer = []
  /-- the good-bye is the pump's own, and the only one -/
  carries : e'.store.Carries quit .quit
  own : quit ∉ e'.owned
  only : ∀ x, .message x ∈ e.tape ++ fss.flatten → e'.store.Carries x .quit → x ∈ e'.owned
  last : ∀ after e'', e'.run after = some e'' →
    e''.writer.written = e'.writer.written ∧ e''.writer.buffer = e'.writer.buffer

/-- The connection `e` has been closed, which has led to `e₀`. -/
structure ClosesGracefully (e e₀ : Engine) : Prop where
  state : e₀.connection.state = .closing
  queue : e₀.connection.queue.toList = e.connection.queue.toList
  tape : e₀.tape = e.tape
  refuses : ∀ evs e₁, e₀.run evs = some e₁ → ∀ id priority,
    e₁.connection.enqueue id priority = some (.error .queueClosed)
  /-- the pump can always go on, with the next message or to its end -/
  goesOn : ∀ evs e₁, e₀.run evs = some e₁ → e₁.writer.fault = none → e₁.ended = false →
    (∃ id e₂, e₁.step .round = some e₂
        ∧ e₁.connection.queue.toList = id :: e₂.connection.queue.toList)
      ∨ (e₁.connection.queue.toList = [] ∧ ∃ e₂, e₁.step .finish = some e₂)
  /-- and if nobody interferes and writes do not fail, it says good-bye -/
  arrives : e₀.writer.fault = none → e₀.writer.broken = none →
    ∃ e₁ e₂, e₀.run (List.replicate e₀.connection.queue.length .round) = some e₁
      ∧ e₁.step .finish = some e₂ ∧ e₂.connection.isShutDown = false
  drains : ∀ during e₁ e₂, e₀.run during = some e₁ → e₁.step .finish = some e₂ →
    e₂.connection.isShutDown = false → ∃ fss quit, Drained e₀ during e₂ fss quit

theorem run_drained {config : Config} {before : List Event}
    (hnew : (new config).run before = some e)
    (hclosed : e.connection.queue.isClosed = true) (h : e.run during = some e₁)
    (hfinish : e₁.step .finish = some e') (hopen : e'.connection.isShutDown = false) :
    ∃ fss quit, Drained e during e' fss quit := by
  have ho := (new_orderly config).run hnew
  have ho₁ := ho.run h
  have hnew₁ : (new config).run (before ++ during) = some e₁ := by
    rw [run_append, hnew]
    exact h
  have hended := (finish_ends hfinish).1
  have hquit := finish_goodbye ho₁.sound hfinish hopen
  obtain ⟨gone, fss, hqueue, hreached, htape⟩ := run_reaches ho hclosed h hended hquit.aborting
  have hempty := step_finish_empty hfinish
  rw [hempty, List.append_nil] at hqueue
  have howned : e'.owned = e₁.owned := by
    obtain ⟨-, rfl⟩ := step_finish hfinish
    rfl
  refine ⟨fss, e₁.store.messages.size, ?_, fun id hid hn => ?_, ?_, hquit.flushed, hquit.carries,
    hquit.fresh, fun x hx hcarries => ?_, fun after e'' hafter => ?_⟩
  · rw [hqueue]
    exact hreached
  · exact run_leaves ho.sound hid hn h hended hquit.aborting hempty
  · rw [hquit.written, htape]
  · rw [← htape] at hx
    have hknown := ho₁.kept.recorded.known x hx
    have hback := (step_grows ho₁.sound hfinish).carries_back hknown hcarries
    rw [howned]
    exact run_unsaid hnew₁ hended x hx hback
  · exact run_after_end (step_sound ho₁.sound hfinish) (finish_ends hfinish).2.2 hafter

theorem close_graceful {config : Config} {before : List Event} {e₀ : Engine}
    (hnew : (new config).run before = some e)
    (hstate : e.connection.state = .opening ∨ e.connection.state = .established)
    (hclose : e.step (.close false) = some e₀) : ClosesGracefully e e₀ := by
  have ho := (new_orderly config).run hnew
  have hc := (new_consistent config).run (new_orderly config).sound hnew
  have hnew₀ : (new config).run (before ++ [.close false]) = some e₀ := by
    rw [run_append, hnew, Option.bind_some, run_cons, hclose]
    rfl
  have ho₀ := ho.step hclose
  have hactive : e.connection.state.rank < Lifecycle.closing.rank := by
    rcases hstate with hstate | hstate
    · rw [hstate]
      decide
    · rw [hstate]
      decide
  obtain ⟨haborting, -, hended⟩ := hc.active hactive
  have hopen := hc.open hactive
  obtain rfl : e₀ = e.withConnection (e.connection.close false) := (Option.some.inj hclose).symm
  have hconnection : (e.withConnection (e.connection.close false)).connection
      = { e.connection with state := .closing, queue := e.connection.queue.close } :=
    e.connection.close_of_active hstate false
  have hclosed₀ :
      (e.withConnection (e.connection.close false)).connection.queue.isClosed = true := by
    rw [hconnection]
    rfl
  refine ⟨?_, ?_, rfl, fun evs e₁ h id priority => ?_, fun evs e₁ h hfault hended₁ => ?_,
    fun hfault hbroken => ?_, fun during e₁ e₂ h hfinish hopen₂ => ?_⟩
  · rw [hconnection]
  · rw [hconnection]
    rfl
  · exact Connection.enqueue_of_closed (run_closed ho₀.sound h hclosed₀) id priority
  · have ho₁ := ho₀.run h
    by_cases hqueue : e₁.connection.queue.toList = []
    · exact .inr ⟨hqueue,
        finish_possible hfault hended₁ (run_closed ho₀.sound h hclosed₀) hqueue⟩
    · obtain ⟨e₂, hround⟩ := round_possible hfault hended₁ hqueue
      obtain ⟨id, rest, hlist, hrest, -⟩ := round_cases ho₁.sound hround
      exact .inl ⟨id, e₂, hround, by rw [hlist, hrest]⟩
  · obtain ⟨e₁, hrun, hemptied⟩ := rounds_possible ho₀.sound hfault hended (.inr hbroken)
    obtain ⟨e₂, hfinish⟩ := finish_possible hemptied.fault (hemptied.ended.trans hended)
      (hemptied.proceeds.closed.trans hclosed₀) hemptied.queue
    refine ⟨e₁, e₂, hrun, hfinish, ?_⟩
    have haborting₁ : e₁.connection.aborting = false := by
      rw [hemptied.proceeds.aborting, hconnection]
      exact haborting
    have hopen₁ : e₁.connection.isShutDown = false := by
      rw [hemptied.proceeds.down, hconnection]
      exact hopen
    rw [step_down_iff (run_sound ho₀.sound hrun) hfinish, hopen₁]
    unfold shutdownCall?
    rw [haborting₁, hemptied.broken, show Writer.broken _ = none from hbroken]
    rfl
  · exact run_drained hnew₀ hclosed₀ h hfinish hopen₂

/-! ## Both -/

/-- The connection ends as it is asked to. -/
structure EndsAsAsked (e : Engine) : Prop where
  graceful : e.connection.state = .opening ∨ e.connection.state = .established →
    ∀ e₀, e.step (.close false) = some e₀ → ClosesGracefully e e₀
  abort : ∀ e₀, e.step (.close true) = some e₀ → e₀.connection.aborting = true
  down : e.connection.isShutDown = true → e.connection.aborting = true
  stops : e.connection.aborting = true → e.Stops

/-- A graceful close writes the queue and a good-bye, and an abort stops the pump. -/
theorem close_drains_abort_stops {config : Config} (h : (new config).run evs = some e) :
    e.EndsAsAsked := by
  have ho := (new_orderly config).run h
  refine ⟨fun hstate e₀ hclose => close_graceful h hstate hclose, fun e₀ hclose => ?_,
    fun hdown => (ho.sound.down hdown).2.2.2, ho.stops⟩
  cases hclose
  exact e.connection.close_aborting

/-- An open connection with a message in each lane. -/
def bothLanes : List Event :=
  [.beginOpening, .finishOpening (.ok (.integer 1)), .make { command := .get, args := [.text "k"] },
   .submit .connection 0 .standard .text, .make { command := .get, args := [.text "l"] },
   .submit .connection 1 .high .text]

theorem close_drains_abort_stops_bothLanes :
    ((new {}).run bothLanes).any (fun e => e.connection.state = .established) = true
      ∧ (((new {}).run bothLanes).get (by decide)).EndsAsAsked :=
  ⟨by decide, close_drains_abort_stops (Option.some_get _).symm⟩

end Engine

end RespMux
