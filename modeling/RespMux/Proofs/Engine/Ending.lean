import RespMux.Proofs.Engine.Lanes

/-!
# The end of the outgoing pump

As long as it has not failed, the pump can go on: it makes a round while there is something in the
queue, and comes to its end when the queue is closed and empty. Left to itself it gets there
(`rounds_possible`).

There it either tears the connection down or writes a good-bye, the only one that is not a message
of a caller (`run_unsaid`, `finish_goodbye`). Nobody writes anything afterwards (`run_after_end`).
-/

set_option autoImplicit false

namespace RespMux

theorem Store.Grows.carries_back {s s' : Store} (h : s.Grows s') {id : MessageId} {r : Request}
    (hid : id < s.messages.size) (hc : s'.Carries id r) : s.Carries id r := by
  obtain ⟨m, hm, hrest⟩ := hc
  have hm₀ : s.draft? id = some (s.messages[id]).draft :=
    Store.draft?_of_get (Array.getElem?_eq_getElem hid)
  obtain rfl := Option.some.inj ((h id _ hm₀).symm.trans hm)
  exact ⟨_, hm₀, hrest⟩

theorem Store.Carries.unique {s : Store} {id : MessageId} {r r' : Request} (h : s.Carries id r)
    (h' : s.Carries id r') : r = r' := by
  obtain ⟨m, hm, -, rfl, -⟩ := h
  obtain ⟨m', hm', -, rfl, -⟩ := h'
  rw [Option.some.inj (hm.symm.trans hm')]

/-- Of the frames of a round only that of the message itself can be a good-bye. -/
theorem Dispatches.quit {s s' : Store} {db sel : Option Database} {id x : MessageId}
    {fs : List InFlight} (h : Dispatches s db id s' fs sel) (hx : .message x ∈ fs)
    (hq : s'.Carries x .quit) : x = id := by
  cases h with
  | plain => exact InFlight.message.inj (List.mem_singleton.mp hx)
  | choice => exact InFlight.message.inj (List.mem_singleton.mp hx)
  | @preceded m d hm hb hs hd hne =>
      rcases List.mem_cons.mp hx with hx | hx
      · cases hx
        cases hq.unique (s.issue_carries (.select d))
      · exact InFlight.message.inj (List.mem_singleton.mp hx)
  | batch hm hb hexp hsel =>
      rcases List.mem_append.mp hx with hx | hx
      · rcases List.mem_cons.mp hx with hx | hx
        · cases hx
          have hmulti := Store.issue_carries (s.takeCompleter id).2 .multi
          rw [Store.takeCompleter_size] at hmulti
          cases hq.unique (hexp.sends.grows.carries hmulti)
        · obtain ⟨i, inner, heq, he, -⟩ := hexp.frames_fresh _ hx
          cases heq
          exact absurd he (hq.isSingle.not_isEnvelope inner)
      · cases List.mem_singleton.mp hx

theorem Writer.flush_unbroken {w : Writer} (hf : w.fault = none) (hb : w.broken = none) :
    w.flush.fault = none ∧ w.flush.broken = none := by
  unfold flush
  split
  · exact ⟨hf, hb⟩
  · split
    · next t ht => cases hb.symm.trans ht
    · exact ⟨hf, hb⟩

namespace Engine

variable {accepted : List MessageId} {e e₁ e' : Engine} {ev : Event} {evs : List Event}

/-! ## Who can go on -/

theorem round_not_ended (h : e.step .round = some e') : e.ended = false := by
  unfold step at h
  cases hended : e.ended with
  | false => rfl
  | true => simp [hended] at h

theorem finish_ends (h : e.step .finish = some e') :
    e.ended = false ∧ e.connection.queue.isClosed = true ∧ e'.ended = true := by
  unfold step at h
  dsimp only at h
  split at h
  · next hguard =>
    cases h
    simp only [Bool.and_eq_true, Bool.not_eq_true'] at hguard
    exact ⟨hguard.1.1.2, hguard.1.2, rfl⟩
  · cases h

/-- Nobody but the pump itself ends it. -/
theorem step_ended (hfinish : ev ≠ .finish) (h : e.step ev = some e') : e'.ended = e.ended := by
  cases ev with
  | finish => exact absurd rfl hfinish
  | attach id shape =>
      obtain ⟨-, -, rfl⟩ := step_attach_inv h
      rfl
  | put target id priority =>
      obtain ⟨-, ⟨c, -, rfl⟩ | ⟨-, rfl⟩⟩ := step_put_inv h
      · rfl
      · rfl
  | submit target id priority shape =>
      obtain ⟨-, k, c, -, rfl⟩ := step_submit_inv h
      rfl
  | fail id error =>
      obtain ⟨-, rfl⟩ := step_fail_inv h
      rfl
  | cancel id =>
      obtain ⟨-, rfl⟩ := step_cancel_inv h
      rfl
  | execute t priority =>
      obtain ⟨k, c, -, rfl⟩ := step_execute_inv h
      rfl
  | round =>
      obtain ⟨id, overtook, q, wakes, -, -, rfl⟩ := step_round h
      rfl
  | reply r =>
      obtain ⟨-, rfl⟩ := step_reply h
      rfl
  | _ =>
      cases h
      rfl

theorem run_ended (h : e.run evs = some e') (hended : e.ended = true) : e'.ended = true :=
  run_induction (P := fun e => e.ended = true)
    (fun e ev e' hended hstep => by
      by_cases hfinish : ev = .finish
      · subst hfinish
        exact (finish_ends hstep).2.2
      · exact (step_ended hfinish hstep).trans hended)
    h hended

/-- If the pump has not come to its end, no step has been the last. -/
theorem run_not_finish (h : e.step ev = some e₁) (hrest : e₁.run evs = some e')
    (hended : e'.ended = false) : ev ≠ .finish := by
  rintro rfl
  cases (run_ended hrest (finish_ends h).2.2).symm.trans hended

theorem round_possible (hfault : e.writer.fault = none) (hended : e.ended = false)
    (hqueue : e.connection.queue.toList ≠ []) : ∃ e', e.step .round = some e' := by
  cases hnext : e.connection.queue.next? with
  | none => exact absurd ((PriorityQueue.next?_eq_none_iff _).mp hnext) hqueue
  | some x =>
      obtain ⟨⟨id, overtook⟩, q, wakes⟩ := x
      refine ⟨{ e with writer := (e.withQueue q).handle id overtook }, ?_⟩
      have hround : e.writer.round? = some ((e.withQueue q).handle id overtook) := by
        unfold Writer.round?
        rw [show e.writer.connection.queue.next? = _ from hnext]
        rfl
      unfold step
      dsimp only
      rw [hfault, hended, hround]
      rfl

theorem finish_possible (hfault : e.writer.fault = none) (hended : e.ended = false)
    (hclosed : e.connection.queue.isClosed = true) (hqueue : e.connection.queue.toList = []) :
    ∃ e', e.step .finish = some e' := by
  have hempty : e.connection.queue.isEmpty = true := by
    unfold PriorityQueue.isEmpty
    rw [← PriorityQueue.length_toList, hqueue]
    rfl
  unfold step
  dsimp only
  rw [hfault, hended, hclosed, hempty]
  exact ⟨_, rfl⟩

/-! ## The pump by itself -/

/-- What a round does with the next message after an abort. -/
structure Discards (e : Engine) (id : MessageId) (e' : Engine) : Prop where
  queue : e.connection.queue.toList = id :: e'.connection.queue.toList
  store : e'.store = e.store.fail id .aborted
  written : e'.writer.written = e.writer.written
  buffer : e'.writer.buffer = e.writer.buffer

theorem round_discards (ha : e.connection.aborting = true) (h : e.step .round = some e') :
    ∃ id, e.Discards id e' := by
  obtain ⟨id, overtook, q, wakes, hnext, -, rfl⟩ := step_round h
  have heq : (e.withQueue q).handle id overtook
      = (e.withQueue q).withStore (e.store.fail id .aborted) :=
    Writer.handle_aborting (w := e.withQueue q) ha overtook
  rw [heq]
  exact ⟨id, PriorityQueue.next?_toList hnext, rfl, rfl, rfl⟩

/-- Writes do not fail, or nothing is to be written. -/
def Writable (e : Engine) : Prop := e.connection.aborting = true ∨ e.writer.broken = none

/-- A round that can write leaves the pump at work. -/
theorem round_fault (hs : e.Sound accepted) (hw : e.Writable) (h : e.step .round = some e') :
    e'.writer.fault = none ∧ e'.writer.broken = e.writer.broken := by
  obtain ⟨id, overtook, q, wakes, hnext, hfault, rfl⟩ := step_round h
  have hready := withQueue_ready hs hfault (hs.next_open hnext) q
  show ((e.withQueue q).handle id overtook).fault = none
    ∧ ((e.withQueue q).handle id overtook).broken = e.writer.broken
  cases ha : (e.withQueue q).connection.aborting with
  | true =>
      rw [Writer.handle_aborting ha]
      exact ⟨hfault, rfl⟩
  | false =>
      by_cases hp : (e.withQueue q).connection.store.phase id = .notSent
      · have hbroken : e.writer.broken = none :=
          hw.resolve_left fun htrue => by cases htrue.symm.trans ha
        obtain ⟨w, s', fs, sel, -, ⟨n, rfl⟩, heq⟩ := Writer.handle_picked hready ha hp overtook
        rw [heq, hbroken]
        exact Writer.flush_unbroken hfault hbroken
      · rw [Writer.handle_skipped ha hp]
        exact ⟨hfault, rfl⟩

/-- Rounds have brought the pump from `e` to an empty queue, where it can come to its end. -/
structure Emptied (e e' : Engine) : Prop where
  proceeds : e.connection.Proceeds e'.connection
  queue : e'.connection.queue.toList = []
  fault : e'.writer.fault = none
  broken : e'.writer.broken = e.writer.broken
  ended : e'.ended = e.ended

/-- Left to itself, the pump empties the queue. -/
theorem rounds_possible (hs : e.Sound accepted) (hfault : e.writer.fault = none)
    (hended : e.ended = false) (hw : e.Writable) :
    ∃ e', e.run (List.replicate e.connection.queue.length .round) = some e' ∧ e.Emptied e' := by
  rw [← PriorityQueue.length_toList]
  -- by induction on what is queued
  generalize hqueue : e.connection.queue.toList = ids
  induction ids generalizing e with
  | nil => exact ⟨e, rfl, .refl _, hqueue, hfault, rfl, rfl⟩
  | cons id ids ih =>
      obtain ⟨e₁, h₁⟩ :=
        round_possible hfault hended (by rw [hqueue]; exact List.cons_ne_nil id ids)
      have hproceeds := proceeds_round hs h₁
      obtain ⟨hfault₁, hbroken₁⟩ := round_fault hs hw h₁
      have hended₁ : e₁.ended = e.ended := step_ended Event.noConfusion h₁
      have hw₁ : e₁.Writable := by
        unfold Writable
        rw [hproceeds.aborting, hbroken₁]
        exact hw
      obtain ⟨x, rest, hlist, hlist₁, -⟩ := round_cases hs h₁
      obtain ⟨-, rfl⟩ := List.cons.inj (hlist.symm.trans hqueue)
      obtain ⟨e', hrun, hemptied⟩ :=
        ih (step_sound hs h₁) hfault₁ (hended₁.trans hended) hw₁ hlist₁
      refine ⟨e', ?_, hproceeds.trans hemptied.proceeds, hemptied.queue, hemptied.fault,
        hemptied.broken.trans hbroken₁, hemptied.ended.trans hended₁⟩
      rw [List.length_cons, List.replicate_succ, run_cons, h₁]
      exact hrun

/-! ## Nobody else writes -/

/-- Only the pump writes, and only its failures end it. -/
theorem step_still (hs : e.Sound accepted) (hround : ev ≠ .round) (hfinish : ev ≠ .finish)
    (h : e.step ev = some e') :
    e'.writer.written = e.writer.written ∧ e'.writer.buffer = e.writer.buffer
      ∧ e'.writer.fault = e.writer.fault := by
  cases hq : ev.isQuiet with
  | true =>
      have hrests := (step_quiet hs hq h).2
      exact ⟨hrests.written, hrests.buffer, hrests.fault⟩
  | false =>
      cases ev with
      | reply r =>
          obtain ⟨-, rfl⟩ := step_reply h
          exact ⟨rfl, rfl, rfl⟩
      | round => exact absurd rfl hround
      | finish => exact absurd rfl hfinish
      | _ => cases hq

/-- After the end of the pump nothing is written. -/
theorem run_after_end (hs : e.Sound accepted) (hended : e.ended = true)
    (h : e.run evs = some e') :
    e'.writer.written = e.writer.written ∧ e'.writer.buffer = e.writer.buffer := by
  induction evs generalizing e with
  | nil =>
      cases h
      exact ⟨rfl, rfl⟩
  | cons ev evs ih =>
      obtain ⟨e₁, h₁, hrest⟩ := run_cons_inv h
      have hround : ev ≠ .round := by
        rintro rfl
        cases (round_not_ended h₁).symm.trans hended
      have hfinish : ev ≠ .finish := by
        rintro rfl
        cases (finish_ends h₁).1.symm.trans hended
      obtain ⟨hwritten, hbuffer, -⟩ := step_still hs hround hfinish h₁
      obtain ⟨hwritten', hbuffer'⟩ :=
        ih (step_sound hs h₁) ((step_ended hfinish h₁).trans hended) hrest
      exact ⟨hwritten'.trans hwritten, hbuffer'.trans hbuffer⟩

/-! ## The good-bye -/

/-- The pump has written no good-bye of its own. -/
def Unsaid (e : Engine) : Prop :=
  ∀ x, .message x ∈ e.tape → e.store.Carries x .quit → x ∈ e.owned

theorem Unsaid.extend {fs : List InFlight} (hu : e.Unsaid) (hk : Kept (fun _ => True) e)
    (h : e.step ev = some e') (htape : e'.tape = e.tape ++ fs)
    (hfs : ∀ x, .message x ∈ fs → e'.store.Carries x .quit → x ∈ e.owned) : e'.Unsaid := by
  intro x hx hq
  have howned : x ∈ e.owned := by
    rw [htape] at hx
    rcases List.mem_append.mp hx with hx | hx
    · exact hu x hx ((step_grows hk.sound h).carries_back (hk.recorded.known x hx) hq)
    · exact hfs x hx hq
  exact step_owns h howned

theorem step_unsaid (hk : Kept (fun _ => True) e) (hu : e.Unsaid) (hfinish : ev ≠ .finish)
    (h : e.step ev = some e') : e'.Unsaid := by
  have hs := hk.sound
  by_cases hround : ev = .round
  · subst hround
    obtain ⟨id, rest, hqueue, -, -, ⟨-, htape, -⟩ | ⟨fs, htape, hpicks⟩⟩ := round_cases hs h
    · exact hu.extend hk h (htape.trans (List.append_nil _).symm) fun x hx => by cases hx
    · have hid : id ∈ e.connection.queue.toList := by
        rw [hqueue]
        exact List.mem_cons_self
      obtain ⟨sel, hdispatch⟩ := hpicks.dispatch
      refine hu.extend hk h htape fun x hx hq => ?_
      obtain rfl := hdispatch.quit hx hq
      -- a batch carries nothing
      refine (hs.custody.kinds.queued_kind x hid).resolve_right fun ⟨ms, hbatch⟩ => ?_
      exact hq.isSingle.not_isBatch ms ((step_grows hs h).isBatch hbatch)
  · have htape := step_tape hs hround hfinish h
    exact hu.extend hk h (htape.trans (List.append_nil _).symm) fun x hx => by cases hx

/-- Until its end the pump does not say good-bye. -/
theorem run_unsaid {config : Config} (h : (new config).run evs = some e)
    (hended : e.ended = false) : e.Unsaid := by
  have hinduct : Kept (fun _ => True) e ∧ (e.ended = false → e.Unsaid) := by
    refine run_induction (P := fun e => Kept (fun _ => True) e ∧ (e.ended = false → e.Unsaid))
      (fun e ev e' ⟨hk, hu⟩ hstep => ⟨hk.step (fun _ _ => trivial) hstep, fun hended => ?_⟩) h
      ⟨new_kept _ config, fun _ x hx => by cases hx⟩
    by_cases hfinish : ev = .finish
    · subst hfinish
      cases hended.symm.trans (finish_ends hstep).2.2
    · exact step_unsaid hk (hu ((step_ended hfinish hstep).symm.trans hended)) hfinish hstep
  exact hinduct.2 hended

/-- A pump that comes to its end without tearing the connection down says good-bye. -/
structure SaysQuit (e e' : Engine) : Prop where
  aborting : e.connection.aborting = false
  fault : e'.writer.fault = none
  written : e'.writer.written = e.tape ++ [.message e.store.messages.size]
  flushed : e'.writer.buffer = []
  carries : e'.store.Carries e.store.messages.size .quit
  fresh : e.store.messages.size ∉ e'.owned

theorem finish_goodbye (hs : e.Sound accepted) (h : e.step .finish = some e')
    (hopen : e'.connection.isShutDown = false) : e.SaysQuit e' := by
  have hcall := uncalled_of_open hs h hopen
  obtain ⟨hfault, rfl⟩ := step_finish h
  obtain ⟨ha, hbroken⟩ : e.connection.aborting = false ∧ e.writer.broken = none := by
    unfold shutdownCall? at hcall
    cases ha : e.connection.aborting with
    | true =>
        rw [ha] at hcall
        cases hcall
    | false =>
        rw [ha] at hcall
        exact ⟨rfl, by simpa using hcall⟩
  obtain ⟨w, hemit, heq, -⟩ := finish_emits hs hfault ha
  have hstore := hemit.store
  have htape := hemit.tape
  obtain ⟨n, rfl⟩ := hemit
  generalize hw : e.closing.after (e.store.issue .quit) e.writer.selected
    [.message e.store.messages.size] n = w at heq hstore htape
  have hbroken' : w.broken = none := by
    rw [← hw]
    exact hbroken
  have hfault' : w.fault = none := by
    rw [← hw]
    exact hfault
  have hflush := (Writer.flush_unbroken hfault' hbroken').1
  -- the write succeeds, so there is nothing to settle
  have hfinish : e.writer.finish = w.flush := by
    rw [heq]
    unfold Writer.settle
    rw [hflush]
  refine ⟨ha, ?_, ?_, ?_, ?_, fun hmem => ?_⟩
  · show e.writer.finish.fault = none
    rw [hfinish]
    exact hflush
  · show e.writer.finish.written = _
    rw [hfinish, Writer.flush_written hbroken', htape]
    rfl
  · show e.writer.finish.buffer = []
    rw [hfinish]
    exact Writer.flush_buffer hflush
  · show Store.Carries e.writer.finish.connection.store _ _
    rw [hfinish, Writer.flush_connection, hstore]
    exact e.store.issue_carries .quit
  · exact Nat.lt_irrefl _ (hs.custody.kinds.owned_single _ hmem).lt_size

/-! ## Where the end finds the connection -/

/-- How far a connection has come in its life shows in what it does. -/
structure Consistent (e : Engine) : Prop where
  torn : e.Torn
  closed : e.connection.state = .closed → e.connection.isShutDown = true
  /-- a connection that nobody has closed takes messages, and its pump is at work -/
  active : e.connection.state.rank < Lifecycle.closing.rank →
    e.connection.aborting = false ∧ e.connection.queue.isClosed = false ∧ e.ended = false
  /-- a pump whose good-bye could not be written has torn the connection down -/
  rested : e.ended = true → e.connection.isShutDown = false → e.writer.fault = none

theorem Consistent.open (hc : e.Consistent)
    (hstate : e.connection.state.rank < Lifecycle.closing.rank) :
    e.connection.isShutDown = false := by
  refine Bool.eq_false_iff.mpr fun hdown => ?_
  rw [(hc.torn hdown).state] at hstate
  exact absurd hstate (by decide)

/-- When the pump has come to its end, the connection is closing or torn down. -/
theorem Consistent.closing (hc : e.Consistent) (hended : e.ended = true)
    (hopen : e.connection.isShutDown = false) : e.connection.state = .closing := by
  have hpassed : ¬ e.connection.state.rank < Lifecycle.closing.rank := fun hstate => by
    cases (hc.active hstate).2.2.symm.trans hended
  cases hstate : e.connection.state with
  | closing => rfl
  | closed => cases (hc.closed hstate).symm.trans hopen
  | fresh => exact absurd (by rw [hstate]; decide) hpassed
  | opening => exact absurd (by rw [hstate]; decide) hpassed
  | established => exact absurd (by rw [hstate]; decide) hpassed

/-- What opens a connection finds it active, or does nothing. -/
theorem active_of_transition {c : Connection} {origins : List Lifecycle} {target : Lifecycle}
    (horigins : ∀ s ∈ origins, s.rank < Lifecycle.closing.rank)
    (h : (c.transition origins target).2.state.rank < Lifecycle.closing.rank) :
    c.state.rank < Lifecycle.closing.rank := by
  unfold Connection.transition at h
  split at h
  · next horigin => exact horigins _ (List.contains_iff_mem.mp horigin)
  · exact h

theorem step_active (hs : e.Sound accepted) (hc : e.Consistent) (h : e.step ev = some e')
    (hopen : e'.connection.isShutDown = false)
    (hstate : e'.connection.state.rank < Lifecycle.closing.rank) :
    e'.connection.aborting = false ∧ e'.connection.queue.isClosed = false ∧ e'.ended = false := by
  -- a step that asks for a shutdown is out of the question
  have hcall := uncalled_of_open hs h hopen
  have hopened : ∀ origins target, (∀ s ∈ origins, s.rank < Lifecycle.closing.rank) →
      e'.connection = (e.connection.transition origins target).2 →
      e'.connection.aborting = false ∧ e'.connection.queue.isClosed = false ∧ e.ended = false := by
    intro origins target horigins heq
    rw [heq] at hstate ⊢
    obtain ⟨haborting, hclosed, hended⟩ := hc.active (active_of_transition horigins hstate)
    obtain ⟨state, htransition⟩ := e.connection.transition_eq origins target
    rw [htransition]
    exact ⟨haborting, hclosed, hended⟩
  cases hev : ev.isWork with
  | true =>
      have hp := step_proceeds hs hev h
      rw [hp.state] at hstate
      obtain ⟨haborting, hclosed, hended⟩ := hc.active hstate
      have hfinish : ev ≠ .finish := by
        rintro rfl
        cases hev
      exact ⟨hp.aborting.trans haborting, hp.closed.trans hclosed,
        (step_ended hfinish h).trans hended⟩
  | false =>
      cases ev with
      | beginOpening =>
          cases h
          exact hopened [.fresh] .opening (by decide) rfl
      | connectFailed error =>
          cases hcall
      | finishOpening ping =>
          cases h
          cases ping with
          | ok v =>
              exact hopened [.opening] .established (by decide) (e.connection.finishOpening_ok v)
          | error error => cases hcall
      | openingTimedOut =>
          cases hcall
      | close abort =>
          have hnot : e.connection.state ≠ .fresh := fun hfresh => by
            unfold shutdownCall? at hcall
            rw [if_pos hfresh] at hcall
            cases hcall
          cases h
          change (e.connection.close abort).state.rank < 3 at hstate
          rcases e.connection.close_cases abort with ⟨hfresh, -⟩ | ⟨-, heq⟩ | ⟨hclosing, heq⟩
          · exact absurd hfresh hnot
          · rw [heq] at hstate
            cases Nat.lt_irrefl 3 hstate
          · rw [heq] at hstate
            change e.connection.state.rank < 3 at hstate
            rcases hclosing with hclosing | hclosing
            · rw [hclosing] at hstate
              exact absurd hstate (by decide)
            · rw [hclosing] at hstate
              exact absurd hstate (by decide)
      | shutdown cause error =>
          cases hcall
      | settle =>
          have hfault : e.writer.fault = none := Option.map_eq_none_iff.mp hcall
          cases h
          have heq : e.writer.settle = e.writer := by
            unfold Writer.settle
            rw [hfault]
          change e.writer.settle.connection.state.rank < _ at hstate
          show e.writer.settle.connection.aborting = false ∧ _
          rw [heq] at hstate ⊢
          exact hc.active hstate
      | finish =>
          have hrank := (drifts_finish hs h).rank_le
          have hclosed := (finish_ends h).2.1
          cases hclosed.symm.trans (hc.active (Nat.lt_of_le_of_lt hrank hstate)).2.1
      | reply r =>
          have hrank : e.connection.state.rank ≤ e'.connection.state.rank :=
            (step_drifts hs rfl h).rank_le
          obtain ⟨-, rfl⟩ := step_reply h
          obtain ⟨c, hcalls, hqueue, haborting, heq⟩ := e.connection.processReply_calls r
          obtain ⟨haborting₀, hclosed₀, hended₀⟩ := hc.active (Nat.lt_of_le_of_lt hrank hstate)
          change e.connection.replyCall? r = none at hcall
          show (e.connection.processReply r).2.aborting = false
            ∧ (e.connection.processReply r).2.queue.isClosed = false ∧ _
          rw [heq, hcall]
          refine ⟨haborting.trans haborting₀, ?_, hended₀⟩
          show c.queue.isClosed = false
          rw [hqueue]
          exact hclosed₀
      | _ => cases hev

theorem Consistent.step (hc : e.Consistent) (hs : e.Sound accepted) (h : e.step ev = some e') :
    e'.Consistent := by
  have htorn := step_torn hs hc.torn h
  have hdown := step_down_iff hs h
  refine ⟨htorn, fun hstate => ?_, fun hstate => ?_, fun hended hopen => ?_⟩
  · obtain ⟨c, hcalls, heq⟩ := step_calls hs h
    rw [hdown]
    cases hcall : e.shutdownCall? ev with
    | some call => simp
    | none =>
        rw [heq, hcall] at hstate
        rw [hc.closed (hcalls.state hstate)]
        rfl
  · refine step_active hs hc h (Bool.eq_false_iff.mpr fun hd => ?_) hstate
    rw [(htorn hd).state] at hstate
    exact absurd hstate (by decide)
  · by_cases hfinish : ev = .finish
    · subst hfinish
      exact (finish_goodbye hs h hopen).fault
    · rw [step_ended hfinish h] at hended
      have hround : ev ≠ .round := by
        rintro rfl
        cases (round_not_ended h).symm.trans hended
      rw [hopen] at hdown
      rw [(step_still hs hround hfinish h).2.2]
      exact hc.rested hended (Bool.or_eq_false_iff.mp hdown.symm).1

theorem Consistent.run (hc : e.Consistent) (hs : e.Sound accepted) (h : e.run evs = some e') :
    e'.Consistent :=
  run_induction_sound hs (fun _ _ _ hs hc h => hc.step hs h) h hc

theorem new_consistent (config : Config) : (new config).Consistent where
  torn hdown := by cases hdown
  closed hstate := by cases hstate
  active _ := ⟨rfl, rfl, rfl⟩
  rested hended := by cases hended

end Engine

end RespMux
