import RespMux.Proofs.Engine.Ending

/-!
# Who notices an abort

To abort a connection is to raise a flag and to close its queue. It is the outgoing pump that tears
the connection down when it sees the flag at its end. As long as the pump has not come to its end,
it will (`TearsDown`).

After a graceful close the pump comes to its end with a good-bye. Then nobody looks at the flag any
more, and an abort changes nothing: the connection stays as it is until the server answers or goes
away, and whoever waits for a message in flight waits on (`Hangs`).
-/

set_option autoImplicit false

namespace RespMux

/-- A step that the outgoing pump makes. -/
def Event.isPump : Event → Bool
  | round => true
  | settle => true
  | finish => true
  | _ => false

namespace Engine

variable {accepted : List MessageId} {e e₀ e₁ e' : Engine} {ev : Event}
variable {evs before during : List Event}

/-! ## The end of the work -/

/-- The pump has nothing left to do. -/
structure Idle (e : Engine) : Prop where
  round : e.step .round = none
  finish : e.step .finish = none
  settle : e.step .settle = some e

theorem settle_of_fault (h : e.writer.fault = none) : e.step .settle = some e := by
  have heq : e.writer.settle = e.writer := by
    unfold Writer.settle
    rw [h]
  unfold step
  dsimp only
  rw [heq]

/-- A pump that has come to its end, and not by a failure, has nothing left to do. -/
theorem idle_of_ended (hended : e.ended = true) (hfault : e.writer.fault = none) : e.Idle where
  round := by
    refine Option.eq_none_iff_forall_ne_some.mpr fun e' h => ?_
    cases (round_not_ended h).symm.trans hended
  finish := by
    refine Option.eq_none_iff_forall_ne_some.mpr fun e' h => ?_
    cases (finish_ends h).1.symm.trans hended
  settle := settle_of_fault hfault

/-- So has one that has failed, when the connection has been torn down. -/
theorem idle_of_fault (hfault : e.writer.fault ≠ none) (hdown : e.connection.isShutDown = true) :
    e.Idle where
  round := by
    refine Option.eq_none_iff_forall_ne_some.mpr fun e' h => ?_
    obtain ⟨-, -, -, -, -, hnone, -⟩ := step_round h
    exact hfault hnone
  finish := by
    refine Option.eq_none_iff_forall_ne_some.mpr fun e' h => ?_
    exact hfault (step_finish h).1
  settle := by
    have heq : e.writer.settle = e.writer := by
      rcases settle_cases e.writer with heq | ⟨error, heq⟩
      · exact heq
      · have hsame : e.writer.connection.shutdown "error writing to the connection" (some error)
            = e.writer.connection := Connection.shutdown_of_down hdown _ _
        rw [heq, hsame]
    unfold step
    dsimp only
    rw [heq]

/-! ## An abort that is noticed -/

/-- Somebody will look at the flag, or nobody need do so any more. -/
def Attended (e : Engine) : Prop := e.ended = false ∨ e.connection.isShutDown = true

instance (e : Engine) : Decidable e.Attended :=
  inferInstanceAs (Decidable (e.ended = false ∨ e.connection.isShutDown = true))

/-- A pump that comes to its end after an abort tears the connection down. -/
theorem step_attended (hs : e.Sound accepted) (ha : e.connection.aborting = true)
    (hattended : e.Attended) (h : e.step ev = some e') : e'.Attended := by
  have hdown := step_down_iff hs h
  rcases hattended with hended | hd
  · by_cases hfinish : ev = .finish
    · subst hfinish
      refine .inr ?_
      rw [hdown]
      unfold shutdownCall?
      rw [ha]
      exact Bool.or_true _
    · exact .inl ((step_ended hfinish h).trans hended)
  · rw [hd] at hdown
    exact .inr hdown

theorem run_attended (hs : e.Sound accepted) (ha : e.connection.aborting = true)
    (hattended : e.Attended) (h : e.run evs = some e') : e'.Attended := by
  have hboth : e'.connection.aborting = true ∧ e'.Attended :=
    run_induction_sound (P := fun e => e.connection.aborting = true ∧ e.Attended) hs
      (fun _ _ _ hs ⟨ha, hattended⟩ hstep =>
        ⟨step_aborting hs hstep ha, step_attended hs ha hattended hstep⟩) h ⟨ha, hattended⟩
  exact hboth.2

/-- When the work is done, the connection has been torn down. -/
theorem Idle.down (hi : e.Idle) (hattended : e.Attended)
    (hclosed : e.connection.queue.isClosed = true) : e.connection.isShutDown = true := by
  have hfault : e.writer.fault ≠ none → e.connection.isShutDown = true := by
    intro hfault
    have hsettle : e.writer.settle = e.writer :=
      congrArg Engine.writer (Option.some.inj hi.settle)
    obtain ⟨error, herror⟩ := Option.ne_none_iff_exists'.mp hfault
    have hconnection := settle_calls e.writer
    rw [herror, hsettle] at hconnection
    rw [show e.connection = _ from hconnection]
    exact Connection.shutdown_down _ _ _
  by_cases hnone : e.writer.fault = none
  · refine hattended.resolve_left fun hended => ?_
    by_cases hqueue : e.connection.queue.toList = []
    · obtain ⟨e', h⟩ := finish_possible hnone hended hclosed hqueue
      cases hi.finish.symm.trans h
    · obtain ⟨e', h⟩ := round_possible hnone hended hqueue
      cases hi.round.symm.trans h
  · exact hfault hnone

/-- In rounds after an abort a completion keeps what it has, or is told of the abort. -/
theorem rounds_fail (hs : e.Sound accepted) (ha : e.connection.aborting = true) {n : Nat}
    (h : e.run (List.replicate n .round) = some e') {k : CompletionId} {d : Completion}
    (hd : e.store.completions[k]? = some d) :
    e'.store.completions[k]? = some d
      ∨ e'.store.completions[k]? = some (d.deliver (.error .aborted)) := by
  induction n generalizing e d with
  | zero =>
      cases h
      exact .inl hd
  | succ n ih =>
      rw [List.replicate_succ, run_cons] at h
      obtain ⟨e₁, h₁, hrest⟩ := Option.bind_eq_some_iff.mp h
      have hs₁ := step_sound hs h₁
      have ha₁ := step_aborting hs h₁ ha
      obtain ⟨id, hdiscards⟩ := round_discards ha h₁
      have wf : e.store.WellFormed := hs.custody.wellFormed
      have hresolves := Store.fail_resolves wf id .aborted
      rw [← hdiscards.store] at hresolves
      rcases hresolves.completion k d hd with hsame | ⟨⟨o, rfl, hgiven⟩, -⟩
      · exact ih hs₁ ha₁ hrest hsame
      · rcases ih hs₁ ha₁ hrest hgiven with hkept | hlate
        · exact .inr hkept
        · rw [Completion.deliver_deliver] at hlate
          exact .inr hlate

/-- Everybody who waits in `e` for the message or what belongs to it has been told of a failure. -/
def Failed (e e' : Engine) (id : MessageId) : Prop :=
  ∀ j, e.Belongs id j → ∀ (k : CompletionId) d, e.store.completions[k]? = some d →
    d.target = some j → d.Waits →
      ∃ d' error, e'.store.completions[k]? = some d' ∧ d'.stage = .delivered (.error error)

theorem Belongs.later (hs : e.Sound accepted) (h : e.run evs = some e') {id j : MessageId}
    (hj : e.Belongs id j) : e'.Belongs id j :=
  hj.imp_right fun ⟨ms, hbatch, hmem⟩ => ⟨ms, (run_grows hs h).isBatch hbatch, hmem⟩

theorem HasAccepted.later {config : Config} {id : MessageId} (h : HasAccepted config evs id)
    (more : List Event) : HasAccepted config (evs ++ more) id := by
  obtain ⟨before, after, e, rfl, hrun, hqueued⟩ := h
  exact ⟨before, after ++ more, e, List.append_assoc _ _ _, hrun, hqueued⟩

/-- The connection `e`, which has been aborted after `before`, will be torn down. -/
structure TearsDown (config : Config) (before : List Event) (e : Engine) : Prop where
  /-- whatever else goes on, when the pump has done its work the connection is over, and everybody
  has an outcome -/
  torn : ∀ during e', e.run during = some e' → e'.Idle → e'.connection.Over
    ∧ ∀ id, HasAccepted config (before ++ during) id → ∀ j, e'.Belongs id j → e'.store.Settled j
  /-- the pump gets there by itself, and whoever waited is told of a failure -/
  arrives : ∃ during e', (∀ ev ∈ during, ev.isPump = true) ∧ e.run during = some e' ∧ e'.Idle
    ∧ ∀ id, HasAccepted config before id → e.Failed e' id

theorem aborted_over {config : Config} (hnew : (new config).run before = some e)
    (ha : e.connection.aborting = true) (hclosed : e.connection.queue.isClosed = true)
    (hattended : e.Attended) (h : e.run during = some e') (hi : e'.Idle) :
    e'.connection.Over
      ∧ ∀ id, HasAccepted config (before ++ during) id → ∀ j, e'.Belongs id j →
        e'.store.Settled j := by
  have hs := run_new_sound hnew
  have hnew' : (new config).run (before ++ during) = some e' := by
    rw [run_append, hnew]
    exact h
  have hdown := hi.down (run_attended hs ha hattended h) (run_closed hs h hclosed)
  have hconsistent := (new_consistent config).run (new_sound config) hnew'
  exact ⟨hconsistent.torn hdown, fun id haccepted => (accepted_secured hnew' haccepted).down hdown⟩

theorem aborted_arrives {config : Config} (hnew : (new config).run before = some e)
    (ha : e.connection.aborting = true) (hclosed : e.connection.queue.isClosed = true)
    (hattended : e.Attended) :
    ∃ during e', (∀ ev ∈ during, ev.isPump = true) ∧ e.run during = some e' ∧ e'.Idle
      ∧ ∀ id, HasAccepted config before id → e.Failed e' id := by
  have hs := run_new_sound hnew
  by_cases hfault : e.writer.fault = none
  · cases hended : e.ended with
    | true =>
        -- it has been torn down, so nobody waits
        have hdown := hattended.resolve_left (by simp [hended])
        refine ⟨[], e, fun ev hev => absurd hev List.not_mem_nil, rfl,
          idle_of_ended hended hfault, fun id haccepted j hj k d hd ht hw => ?_⟩
        have hcomplete := (accepted_secured hnew haccepted).down hdown j hj k d hd ht hw.2
        unfold Completion.isComplete at hcomplete
        rw [hw.1] at hcomplete
        cases hcomplete
    | false =>
        obtain ⟨e₁, hrun, hemptied⟩ := rounds_possible hs hfault hended (.inl ha)
        have hs₁ := run_sound hs hrun
        have ha₁ := hemptied.proceeds.aborting.trans ha
        obtain ⟨e₂, hfinish⟩ := finish_possible hemptied.fault (hemptied.ended.trans hended)
          (hemptied.proceeds.closed.trans hclosed) hemptied.queue
        have hconnection : e₂.connection = e₁.connection.shutdown "connection aborted" none := by
          obtain ⟨-, rfl⟩ := step_finish hfinish
          show e₁.writer.finish.connection = _
          rw [finish_aborting hemptied.fault ha₁]
        have hfault₂ : e₂.writer.fault = none := by
          obtain ⟨-, rfl⟩ := step_finish hfinish
          show e₁.writer.finish.fault = none
          rw [finish_aborting hemptied.fault ha₁]
          exact hemptied.fault
        refine ⟨List.replicate e.connection.queue.length .round ++ [.finish], e₂,
          fun ev hev => ?_, ?_, idle_of_ended (finish_ends hfinish).2.2 hfault₂,
          fun id haccepted j hj k d hd ht hw => ?_⟩
        · rcases List.mem_append.mp hev with hev | hev
          · rw [List.eq_of_mem_replicate hev]
            rfl
          · rw [List.mem_singleton.mp hev]
            rfl
        · rw [run_append, hrun, Option.bind_some, run_cons, hfinish]
          rfl
        · have hstore : e₂.store = (e₁.connection.shutdown "connection aborted" none).store :=
            congrArg Connection.store hconnection
          rw [hstore]
          rcases rounds_fail hs ha hrun hd with hsame | htold
          · -- who is still waiting is told at the end
            have hnew₁ : (new config).run
                (before ++ List.replicate e.connection.queue.length .round) = some e₁ := by
              rw [run_append, hnew]
              exact hrun
            obtain ⟨d', hd', hstage⟩ := (accepted_secured hnew₁ (haccepted.later _)).shutdown
              "connection aborted" none j (hj.later hs hrun) k d hsame ht hw
            exact ⟨d', _, hd', hstage⟩
          · obtain ⟨ids, own, hresolves⟩ := e₁.connection.shutdown_resolves
              hs₁.custody.wellFormed "connection aborted" none
            refine ⟨_, _, hresolves.completion_of_not_waits htold ?_, Completion.deliver_stage hw _⟩
            exact Completion.not_waits_deliver d _
  · -- a pump that has failed tears the connection down as well
    obtain ⟨error, herror⟩ := Option.ne_none_iff_exists'.mp hfault
    have hconnection : e.writer.settle.connection
        = e.connection.shutdown "error writing to the connection" (some error) := by
      have hcalls := settle_calls e.writer
      rw [herror] at hcalls
      exact hcalls
    refine ⟨[.settle], { e with writer := e.writer.settle }, fun ev hev => ?_, rfl,
      idle_of_fault ?_ ?_, fun id haccepted j hj k d hd ht hw => ?_⟩
    · rw [List.mem_singleton.mp hev]
      rfl
    · rw [(settle_rests hs).2.fault]
      exact hfault
    · show e.writer.settle.connection.isShutDown = true
      rw [hconnection]
      exact Connection.shutdown_down _ _ _
    · obtain ⟨d', hd', hstage⟩ := (accepted_secured hnew haccepted).shutdown
        "error writing to the connection" (some error) j hj k d hd ht hw
      refine ⟨d', _, ?_, hstage⟩
      show e.writer.settle.connection.store.completions[k]? = some d'
      rw [hconnection]
      exact hd'

/-! ## An abort that is not noticed -/

/-- Without replies, what is in flight stays in flight until the connection is torn down. -/
theorem run_waits (hs : e.Sound accepted) (hended : e.ended = true)
    (h : e.run evs = some e') (hopen : e'.connection.isShutDown = false)
    (hreplies : ∀ r, .reply r ∉ evs) :
    e'.connection.ledger.entries = e.connection.ledger.entries := by
  induction evs generalizing e with
  | nil =>
      cases h
      rfl
  | cons ev evs ih =>
      obtain ⟨e₁, h₁, hrest⟩ := run_cons_inv h
      have hs₁ := step_sound hs h₁
      have hquiet : ev.isQuiet = true := by
        cases ev with
        | round => cases (round_not_ended h₁).symm.trans hended
        | finish => cases (finish_ends h₁).1.symm.trans hended
        | reply r => exact absurd List.mem_cons_self (hreplies r)
        | _ => rfl
      have hfinish : ev ≠ .finish := by
        rintro rfl
        cases hquiet
      have hrests := (step_quiet hs hquiet h₁).2
      have hopen₁ : e₁.connection.isShutDown = false := Bool.eq_false_iff.mpr fun hdown => by
        have hover := run_induction_sound (P := fun e => e.connection.isShutDown = true) hs₁
          (fun _ _ _ hs hd hstep => by rw [step_down_iff hs hstep, hd]; rfl) hrest hdown
        cases hover.symm.trans hopen
      rw [ih hs₁ ((step_ended hfinish h₁).trans hended) hrest
        fun r hr => hreplies r (List.mem_cons_of_mem ev hr)]
      exact congrArg Ledger.entries (hrests.continues.ledger hopen₁)

/-- The abort of `e`, which has led to `e₀`, changes nothing, and as long as nobody else tears the
connection down it stays up. -/
structure Hangs (e e₀ : Engine) : Prop where
  connection : e₀.connection
    = { e.connection with aborting := true, queue := e.connection.queue.close }
  idle : e₀.Idle
  stays : ∀ during e₁, e₀.run during = some e₁ → e₀.calls during = [] →
    e₁.Idle ∧ e₁.connection.state = .closing ∧ e₁.connection.isShutDown = false
      ∧ ((∀ r, .reply r ∉ during) →
        e₁.connection.ledger.entries = e.connection.ledger.entries)

theorem aborted_hangs {config : Config} (hnew : (new config).run before = some e)
    (hended : e.ended = true) (hopen : e.connection.isShutDown = false)
    (hclose : e.step (.close true) = some e₀) : Hangs e e₀ := by
  have hs := run_new_sound hnew
  have hc := (new_consistent config).run (new_sound config) hnew
  have hclosing := hc.closing hended hopen
  have hs₀ := step_sound hs hclose
  have hc₀ := hc.step hs hclose
  have heq : e.connection.close true
      = { e.connection with aborting := true, queue := e.connection.queue.close } := by
    rcases e.connection.close_cases true with ⟨hstate, -⟩ | ⟨hstate, -⟩ | ⟨-, heq⟩
    · cases hstate.symm.trans hclosing
    · simp [hclosing] at hstate
    · exact heq
  obtain rfl : e₀ = e.withConnection (e.connection.close true) := (Option.some.inj hclose).symm
  have hconnection : (e.withConnection (e.connection.close true)).connection
      = { e.connection with aborting := true, queue := e.connection.queue.close } := heq
  have hopen₀ : (e.withConnection (e.connection.close true)).connection.isShutDown = false := by
    rw [hconnection]
    exact hopen
  refine ⟨hconnection, idle_of_ended hended (hc₀.rested hended hopen₀),
    fun during e₁ h hcalls => ?_⟩
  have hopen₁ := (run_uncalled hs₀ hopen₀ h hcalls).1
  have hended₁ := run_ended h hended
  have hc₁ := hc₀.run hs₀ h
  refine ⟨idle_of_ended hended₁ (hc₁.rested hended₁ hopen₁), hc₁.closing hended₁ hopen₁, hopen₁,
    fun hreplies => ?_⟩
  rw [run_waits hs₀ hended h hopen₁ hreplies, hconnection]

/-- An abort tears the connection down exactly if the outgoing pump is still there to notice it. -/
theorem abort_noticed {config : Config} (h : (new config).run before = some e)
    (hclose : e.step (.close true) = some e₀) :
    (e.Attended → TearsDown config (before ++ [.close true]) e₀)
      ∧ (¬ e.Attended → Hangs e e₀) := by
  have hs := run_new_sound h
  have hc := (new_consistent config).run (new_sound config) h
  have hnew₀ : (new config).run (before ++ [.close true]) = some e₀ := by
    rw [run_append, h, Option.bind_some, run_cons, hclose]
    rfl
  refine ⟨fun hattended => ?_, fun hunattended => ?_⟩
  · have ha₀ : e₀.connection.aborting = true := by
      cases hclose
      exact e.connection.close_aborting
    have hclosed₀ : e₀.connection.queue.isClosed = true := by
      cases hclose
      refine Connection.close_isClosed fun hfresh => hc.open ?_
      rw [hfresh]
      decide
    have hattended₀ : e₀.Attended := by
      rcases hattended with hended | hdown
      · exact .inl ((step_ended Event.noConfusion hclose).trans hended)
      · refine .inr ?_
        rw [step_down_iff hs hclose, hdown]
        rfl
    exact ⟨fun during e' hrun hi => aborted_over hnew₀ ha₀ hclosed₀ hattended₀ hrun hi,
      aborted_arrives hnew₀ ha₀ hclosed₀ hattended₀⟩
  · obtain ⟨hended, hopen⟩ := not_or.mp hunattended
    exact aborted_hangs h (by simpa using hended) (by simpa using hopen) hclose

/-- A command has been written, and a good-bye after it. -/
def saidGoodbye : List Event :=
  [.beginOpening, .finishOpening (.ok (.integer 1)), .make { command := .get, args := [.text "k"] },
   .submit .connection 0 .standard .text, .round, .close false, .finish]

/-- Before the close the pump is there to notice an abort, and after its good-bye it is not. -/
theorem abort_noticed_saidGoodbye :
    let e := ((new {}).run (saidGoodbye.take 5)).get (by decide)
    let e' := ((new {}).run saidGoodbye).get (by decide)
    TearsDown {} (saidGoodbye.take 5 ++ [.close true])
        (e.withConnection (e.connection.close true))
      ∧ Hangs e' (e'.withConnection (e'.connection.close true)) :=
  ⟨(abort_noticed (Option.some_get _).symm rfl).1 (by decide),
    (abort_noticed (Option.some_get _).symm rfl).2 (by decide)⟩

/-- An abort comes too late: the connection stays up, and whoever waits for the command waits on. -/
theorem abort_unnoticed :
    ∃ e, (new {}).run (saidGoodbye ++ [.close true]) = some e ∧ e.Idle
      ∧ e.connection.state = .closing ∧ e.connection.isShutDown = false
      ∧ e.connection.ledger.entries = [.message 0, .message 1]
      ∧ ∃ d, e.store.completions[0]? = some d ∧ d.target = some 0 ∧ d.Waits :=
  ⟨_, rfl, idle_of_ended rfl rfl, rfl, rfl, rfl, _, rfl, rfl, rfl, rfl⟩

end Engine

end RespMux
