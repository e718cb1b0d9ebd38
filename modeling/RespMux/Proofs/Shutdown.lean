import RespMux.Proofs.Engine.Standing

/-!
# A connection is torn down once

The handshake, both pumps, whoever closes the connection, and the results of a block that arrive
while a reply is being handled all end a connection in the same way: they ask for a shutdown, each
with a cause and perhaps with an error. `shutdownCall?` says which steps ask, and `tells` what the
listener is told in a step.

Only the first call of a life counts (`shutdown_once`). It leaves the connection closed and empty,
its error is the only fatal event, and the last event of all. Every later call, reply, message and
frame finds the connection over.
-/

set_option autoImplicit false

namespace RespMux

/-! ## Who asks for a shutdown -/

/-- The cause of a shutdown and its error, if it is a failure. -/
abbrev ShutdownCall := String × Option Error

/-- What the listener is told of a shutdown. -/
def fatalEvents : Option ShutdownCall → List ErrorEvent
  | some (cause, some error) => [⟨error, cause, true⟩]
  | _ => []

namespace Connection

/-- Does what is asked for. -/
def obey (c : Connection) : Option ShutdownCall → Connection
  | some (cause, error) => c.shutdown cause error
  | none => c

/-- What the listener is told of a reply, apart from a shutdown. -/
def replyComplaints (c : Connection) (r : Reply) : List ErrorEvent :=
  match c.ledger.entries.head? with
  | some (.message id) => ((c.store.requestOf id).complaint? r).toList
  | some (.exec b) =>
      match b.results? r, r with
      | .ok rs, _ => c.store.complaints (b.pairs rs)
      | .error _, .error t => [⟨.server t, Literal.exec.text, false⟩]
      | .error _, _ => []
  | none => []

/-- The shutdown that a reply asks for: the first failure of a member that must succeed. -/
def replyCall? (c : Connection) (r : Reply) : Option ShutdownCall :=
  match c.ledger.entries.head? with
  | some (.exec b) =>
      match b.results? r with
      | .ok rs => (c.store.failures (b.pairs rs)).head?.map
          fun error => ("a critical command failed", some error)
      | .error _ => none
  | _ => none

end Connection

namespace Engine

/-- The shutdown that a step asks for. -/
def shutdownCall? (e : Engine) : Event → Option ShutdownCall
  | .connectFailed error => some ("connect failed", some error)
  | .finishOpening (.error error) => some ("handshake failed", some error)
  | .openingTimedOut => some ("handshake timed out", some e.connection.timeout.1)
  | .close _ => if e.connection.state = .fresh then some ("closed before opening", none) else none
  | .shutdown cause error => some (cause, error)
  | .settle => e.writer.fault.map fun error => ("error writing to the connection", some error)
  | .finish =>
      if e.connection.aborting then some ("connection aborted", none)
      else e.writer.broken.map fun t => ("error writing to the connection", some (.io t))
  | .reply r => e.connection.replyCall? r
  | _ => none

/-- What the listener is told in a step, apart from a shutdown. -/
def complaints (e : Engine) : Event → List ErrorEvent
  | .reply r => e.connection.replyComplaints r
  | _ => []

/-- What the listener is told in a step: of a shutdown only when it is the first. -/
def tells (e : Engine) (ev : Event) : List ErrorEvent :=
  e.complaints ev ++ if e.connection.isShutDown then [] else fatalEvents (e.shutdownCall? ev)

/-- The calls for a shutdown in a run, in order. -/
def calls (e : Engine) : List Event → List ShutdownCall
  | [] => []
  | ev :: evs =>
      (e.shutdownCall? ev).toList ++
        match e.step ev with
        | some e' => e'.calls evs
        | none => []

/-- What the listener is told in a run. -/
def told (e : Engine) : List Event → List ErrorEvent
  | [] => []
  | ev :: evs =>
      e.tells ev ++
        match e.step ev with
        | some e' => e'.told evs
        | none => []

end Engine

/-! ## One step -/

namespace Connection

variable {c : Connection}

theorem obey_events (h : c.isShutDown = false) (call : Option ShutdownCall) :
    (c.obey call).events = c.events.publishAll (fatalEvents call) := by
  cases call with
  | none => rfl
  | some call =>
      obtain ⟨cause, error⟩ := call
      have hnot : ¬ c.isShutDown = true := by simp [h]
      unfold obey shutdown
      dsimp only
      rw [if_neg hnot]
      cases error with
      | none => rfl
      | some error => rfl

theorem obey_isShutDown (c : Connection) (call : Option ShutdownCall) :
    (c.obey call).isShutDown = (c.isShutDown || call.isSome) := by
  cases call with
  | none => simp [obey]
  | some call => simp [obey, shutdown_down]

theorem obey_over (h : c.isShutDown = false) {call : Option ShutdownCall}
    (hcall : call.isSome = true) : (c.obey call).Over := by
  obtain ⟨⟨cause, error⟩, rfl⟩ := Option.isSome_iff_exists.mp hcall
  exact shutdown_over h cause error

theorem failWith_eq (c : Connection) (es : List Error) :
    c.failWith es
      = c.obey (es.head?.map fun error => ("a critical command failed", some error)) := by
  cases es with
  | nil => rfl
  | cons e es => rfl

theorem transition_closed {origins : List Lifecycle} {target : Lifecycle} (ht : target ≠ .closed)
    (h : (c.transition origins target).2.state = .closed) : c.state = .closed := by
  unfold transition at h
  split at h
  · exact absurd h ht
  · exact h

/-- The connection `c₁` is `c` when a call is made: the listener has been told `xs`, the life of the
connection has not been ended, and nothing that had been stopped goes on. -/
structure CallsFrom (c : Connection) (xs : List ErrorEvent) (c₁ : Connection) : Prop where
  down : c₁.isShutDown = c.isShutDown
  events : c₁.events = c.events.publishAll xs
  state : c₁.state = .closed → c.state = .closed
  aborting : c.aborting = true → c₁.aborting = true
  closed : c.queue.isClosed = true → c₁.queue.isClosed = true

theorem CallsFrom.of_eq {xs : List ErrorEvent} {c₁ : Connection}
    (hdown : c₁.isShutDown = c.isShutDown) (hevents : c₁.events = c.events.publishAll xs)
    (hstate : c₁.state = .closed → c.state = .closed) (haborting : c₁.aborting = c.aborting)
    (hqueue : c₁.queue = c.queue) : CallsFrom c xs c₁ :=
  ⟨hdown, hevents, hstate, fun h => haborting.trans h, fun h => hqueue.symm ▸ h⟩

theorem CallsFrom.refl (c : Connection) : CallsFrom c [] c := .of_eq rfl rfl id rfl rfl

/-- A move in the lifecycle, but for its end, is none of the calls. -/
theorem callsFrom_transition (c : Connection) (origins : List Lifecycle) {target : Lifecycle}
    (ht : target ≠ .closed) : CallsFrom c [] (c.transition origins target).2 := by
  obtain ⟨state, heq⟩ := c.transition_eq origins target
  have hstate : (c.transition origins target).2.state = .closed → c.state = .closed :=
    transition_closed ht
  rw [heq] at hstate ⊢
  exact .of_eq rfl rfl hstate rfl rfl

theorem transition_queue (c : Connection) (origins : List Lifecycle) (target : Lifecycle) :
    (c.transition origins target).2.queue = c.queue := by
  obtain ⟨state, heq⟩ := c.transition_eq origins target
  rw [heq]

/-- All that a reply has to do with shutdowns and the listener. -/
theorem processReply_calls (c : Connection) (r : Reply) :
    ∃ c₁, CallsFrom c (c.replyComplaints r) c₁ ∧ c₁.queue = c.queue
      ∧ c₁.aborting = c.aborting ∧ (c.processReply r).2 = c₁.obey (c.replyCall? r) := by
  unfold replyComplaints replyCall?
  cases h : c.ledger.entries with
  | nil =>
      rw [processReply_nil h]
      exact ⟨c, .refl c, rfl, rfl, rfl⟩
  | cons f fs =>
      rw [processReply_cons h, List.head?_cons]
      cases f with
      | message id =>
          obtain ⟨n, heq⟩ := (c.popped fs).answer_spec id r
          refine ⟨((c.popped fs).answer id r).2, ?_, ?_, ?_, rfl⟩
          · rw [heq]
            exact .of_eq rfl rfl (fun h => h) rfl rfl
          · rw [heq]
            rfl
          · rw [heq]
            rfl
      | exec b =>
          cases hres : b.results? r with
          | ok rs =>
              obtain ⟨rfl, hlen⟩ := results?_ok hres
              have hblock := (c.popped fs).answerBlock_unpacked hlen
              obtain ⟨n, hspec⟩ := (c.popped fs).answerSlots_spec (b.slots.zip rs)
              dsimp only
              rw [hres]
              refine ⟨_, ?_, ?_, ?_, hblock.trans (failWith_eq _ _)⟩
              · rw [hspec]
                cases b.done with
                | none => exact .of_eq rfl rfl id rfl rfl
                | some k => exact .of_eq rfl rfl id rfl rfl
              · rw [hspec]
                cases b.done with
                | none => rfl
                | some k => rfl
              · rw [hspec]
                cases b.done with
                | none => rfl
                | some k => rfl
          | error error =>
              have hblock : (c.popped fs).answerBlock b r
                  = { c.popped fs with store := c.store.failBlock b error } := by
                unfold answerBlock
                rw [hres]
                rfl
              dsimp only
              rw [hres]
              refine ⟨((c.popped fs).answerInFlight (.exec b) r).2, ?_, ?_, ?_, rfl⟩
              · unfold answerInFlight
                dsimp only
                rw [hblock]
                cases r with
                | error t => exact .of_eq rfl rfl id rfl rfl
                | _ => exact .of_eq rfl rfl id rfl rfl
              · unfold answerInFlight
                dsimp only
                rw [hblock]
                cases r with
                | error t => rfl
                | _ => rfl
              · unfold answerInFlight
                dsimp only
                rw [hblock]
                cases r with
                | error t => rfl
                | _ => rfl

/-- To close a connection that was never opened is to end it. -/
theorem close_calls (c : Connection) (abort : Bool) :
    ∃ c₁, CallsFrom c [] c₁ ∧ c₁.queue.toList = c.queue.toList ∧ c.close abort
      = c₁.obey (if c.state = .fresh then some ("closed before opening", none) else none) := by
  have haborting : c.aborting = true → (abort || c.aborting) = true := fun h => by simp [h]
  rcases c.close_cases abort with ⟨hs, heq⟩ | ⟨hs, heq⟩ | ⟨hs, heq⟩
  · rw [heq, if_pos hs]
    exact ⟨{ c with aborting := abort || c.aborting }, ⟨rfl, rfl, id, haborting, id⟩, rfl, rfl⟩
  · have hne : c.state ≠ .fresh := by rcases hs with hs | hs <;> simp [hs]
    rw [heq, if_neg hne]
    refine ⟨_, ?_, ?_, rfl⟩
    · exact ⟨rfl, rfl, fun h => (Lifecycle.noConfusion h), haborting, fun _ => rfl⟩
    · rfl
  · have hne : c.state ≠ .fresh := by rcases hs with hs | hs <;> simp [hs]
    rw [heq, if_neg hne]
    refine ⟨_, ?_, ?_, rfl⟩
    · refine ⟨rfl, rfl, id, haborting, fun h => ?_⟩
      cases abort with
      | true => rfl
      | false => exact h
    · cases abort with
      | true => rfl
      | false => rfl

end Connection

namespace Engine

variable {accepted : List MessageId} {e e' : Engine} {ev : Event} {evs : List Event}

theorem shutdownCall?_of_isWork (e : Engine) (h : ev.isWork = true) :
    e.shutdownCall? ev = none := by
  cases ev with
  | beginOpening => cases h
  | connectFailed error => cases h
  | finishOpening ping => cases h
  | openingTimedOut => cases h
  | close abort => cases h
  | shutdown cause error => cases h
  | settle => cases h
  | finish => cases h
  | reply r => cases h
  | _ => rfl

theorem complaints_of_isWork (e : Engine) (h : ev.isWork = true) : e.complaints ev = [] := by
  cases ev with
  | reply r => cases h
  | _ => rfl

theorem settle_calls (w : Writer) :
    w.settle.connection = w.connection.obey
      (w.fault.map fun error => ("error writing to the connection", some error)) := by
  unfold Writer.settle
  cases w.fault with
  | none => rfl
  | some error => rfl

/-- A write fails if writes are broken. -/
theorem flush_fault {w : Writer} (hf : w.fault = none) (hb : w.buffer ≠ []) :
    w.flush.fault = w.broken.map Error.io := by
  have hbuffer : ¬ w.buffer.isEmpty = true := by simpa using hb
  unfold Writer.flush
  rw [if_neg hbuffer]
  cases w.broken with
  | none => exact hf
  | some t => rfl

/-- The end of the outgoing pump asks for a shutdown when the connection is being aborted, and when
the good-bye cannot be written. -/
theorem finish_calls (hs : e.Sound accepted) (h : e.step .finish = some e') :
    ∃ c, Connection.CallsFrom e.connection [] c ∧ c.queue.toList = e.connection.queue.toList
      ∧ e'.connection = c.obey (e.shutdownCall? .finish) := by
  obtain ⟨hfault, rfl⟩ := step_finish h
  unfold shutdownCall?
  show ∃ c, _ ∧ _ ∧ e.writer.finish.connection = _
  cases ha : e.connection.aborting with
  | true =>
      rw [finish_aborting hfault ha]
      exact ⟨e.connection, .refl _, rfl, rfl⟩
  | false =>
      obtain ⟨w, ⟨n, rfl⟩, heq, -⟩ := finish_emits hs hfault ha
      have hcalls := e.connection.callsFrom_transition [.opening, .established]
        (show Lifecycle.closing ≠ .closed from Lifecycle.noConfusion)
      have hqueue := e.connection.transition_queue [.opening, .established] .closing
      -- with the good-bye in it, the buffer is not empty
      have hflush := flush_fault (w := e.closing.after (e.store.issue .quit) e.writer.selected
        [.message e.store.messages.size] n) hfault
        (List.append_ne_nil_of_right_ne_nil _ (List.cons_ne_nil _ _))
      refine ⟨(e.closing.after (e.store.issue .quit) e.writer.selected
        [.message e.store.messages.size] n).connection, ?_, ?_, ?_⟩
      · exact ⟨hcalls.down, hcalls.events, hcalls.state, hcalls.aborting, hcalls.closed⟩
      · exact congrArg PriorityQueue.toList hqueue
      · rw [heq, settle_calls, Writer.flush_connection, hflush, Option.map_map]
        rfl

/-- What a step that is no work does: it comes to the call, and leaves the queue alone until
then. -/
theorem step_at_call (hs : e.Sound accepted) (hev : ev.isWork = false) (h : e.step ev = some e') :
    ∃ c, Connection.CallsFrom e.connection (e.complaints ev) c
      ∧ c.queue.toList = e.connection.queue.toList
      ∧ e'.connection = c.obey (e.shutdownCall? ev) := by
  cases ev with
  | beginOpening =>
      cases h
      exact ⟨_, e.connection.callsFrom_transition [.fresh] Lifecycle.noConfusion,
        congrArg PriorityQueue.toList (e.connection.transition_queue [.fresh] .opening), rfl⟩
  | connectFailed error =>
      cases h
      exact ⟨e.connection, .refl _, rfl, rfl⟩
  | finishOpening ping =>
      cases h
      cases ping with
      | ok v =>
          exact ⟨_, e.connection.callsFrom_transition [.opening] Lifecycle.noConfusion,
            congrArg PriorityQueue.toList (e.connection.transition_queue [.opening] .established),
            e.connection.finishOpening_ok v⟩
      | error error => exact ⟨e.connection, .refl _, rfl, rfl⟩
  | openingTimedOut =>
      cases h
      exact ⟨e.connection.timeout.2, .of_eq rfl rfl id rfl rfl, rfl, rfl⟩
  | close abort =>
      cases h
      exact e.connection.close_calls abort
  | shutdown cause error =>
      cases h
      exact ⟨e.connection, .refl _, rfl, rfl⟩
  | settle =>
      cases h
      exact ⟨e.connection, .refl _, rfl, settle_calls e.writer⟩
  | finish => exact finish_calls hs h
  | reply r =>
      obtain ⟨-, rfl⟩ := step_reply h
      obtain ⟨c, hc, hqueue, -, heq⟩ := e.connection.processReply_calls r
      exact ⟨c, hc, congrArg PriorityQueue.toList hqueue, heq⟩
  | _ => cases hev

/-- What a step has to do with shutdowns and the listener. -/
theorem step_calls (hs : e.Sound accepted) (h : e.step ev = some e') :
    ∃ c, Connection.CallsFrom e.connection (e.complaints ev) c
      ∧ e'.connection = c.obey (e.shutdownCall? ev) := by
  cases hev : ev.isWork with
  | true =>
      have hp := step_proceeds hs hev h
      rw [e.complaints_of_isWork hev, e.shutdownCall?_of_isWork hev]
      exact ⟨e'.connection, ⟨hp.down, hp.events, fun hc => hp.state.symm.trans hc,
        fun ha => hp.aborting.trans ha, fun hc => hp.closed.trans hc⟩, rfl⟩
  | false =>
      obtain ⟨c, hc, -, heq⟩ := step_at_call hs hev h
      exact ⟨c, hc, heq⟩

theorem step_down_iff (hs : e.Sound accepted) (h : e.step ev = some e') :
    e'.connection.isShutDown = (e.connection.isShutDown || (e.shutdownCall? ev).isSome) := by
  obtain ⟨c, hc, heq⟩ := step_calls hs h
  rw [heq, Connection.obey_isShutDown, hc.down]

/-- A step that leaves the connection up has not asked for a shutdown. -/
theorem uncalled_of_open (hs : e.Sound accepted) (h : e.step ev = some e')
    (hopen : e'.connection.isShutDown = false) : e.shutdownCall? ev = none := by
  have hdown := step_down_iff hs h
  rw [hopen] at hdown
  simpa using (Bool.or_eq_false_iff.mp hdown.symm).2

theorem complaints_of_over (ho : e.connection.Over) (ev : Event) : e.complaints ev = [] := by
  cases ev with
  | reply r =>
      show e.connection.replyComplaints r = []
      unfold Connection.replyComplaints
      rw [ho.ledger.2]
      rfl
  | _ => rfl

theorem tells_of_over (ho : e.connection.Over) (ev : Event) : e.tells ev = [] := by
  unfold tells
  rw [complaints_of_over ho, ho.down]
  rfl

/-- The listener is told what is said to be told. -/
theorem step_tells (hs : e.Sound accepted) (ho : e.connection.isShutDown = true → e.connection.Over)
    (h : e.step ev = some e') :
    e'.connection.events = e.connection.events.publishAll (e.tells ev) := by
  obtain ⟨c, hc, heq⟩ := step_calls hs h
  cases hdown : e.connection.isShutDown with
  | true =>
      have hcall : c.obey (e.shutdownCall? ev) = c := by
        cases hcall : e.shutdownCall? ev with
        | none => rfl
        | some call => exact Connection.shutdown_of_down (hc.down.trans hdown) call.1 call.2
      rw [heq, hcall, hc.events, complaints_of_over (ho hdown), tells_of_over (ho hdown)]
  | false =>
      rw [heq, Connection.obey_events (hc.down.trans hdown), hc.events]
      unfold tells
      rw [hdown, EventLog.publishAll_append]
      rfl

theorem complaints_fatal {x : ErrorEvent} (h : x ∈ e.complaints ev) : x.fatal = false := by
  cases ev with
  | reply r =>
      change x ∈ e.connection.replyComplaints r at h
      unfold Connection.replyComplaints at h
      split at h
      · exact Request.complaint?_fatal (Option.mem_toList.mp h)
      · split at h
        · exact Store.complaints_fatal h
        · rw [List.mem_singleton.mp h]
        · cases h
      · cases h
  | _ => cases h

/-! ## Runs -/

/-- A connection that has been torn down is over. -/
def Torn (e : Engine) : Prop := e.connection.isShutDown = true → e.connection.Over

theorem step_torn (hs : e.Sound accepted) (ht : e.Torn) (h : e.step ev = some e') : e'.Torn := by
  intro hdown
  cases hd : e.connection.isShutDown with
  | true => exact step_over hs (ht hd) h
  | false =>
      rw [step_down_iff hs h, hd, Bool.false_or] at hdown
      obtain ⟨c, hc, heq⟩ := step_calls hs h
      rw [heq]
      exact Connection.obey_over (hc.down.trans hd) hdown

theorem calls_cons (h : e.step ev = some e') (evs : List Event) :
    e.calls (ev :: evs) = (e.shutdownCall? ev).toList ++ e'.calls evs := by
  rw [calls, h]

theorem told_cons (h : e.step ev = some e') (evs : List Event) :
    e.told (ev :: evs) = e.tells ev ++ e'.told evs := by
  rw [told, h]

theorem run_told (hs : e.Sound accepted) (ht : e.Torn) (h : e.run evs = some e') :
    e'.connection.events = e.connection.events.publishAll (e.told evs) := by
  induction evs generalizing e with
  | nil =>
      cases h
      rfl
  | cons ev evs ih =>
      obtain ⟨e₁, h₁, hrest⟩ := run_cons_inv h
      rw [told_cons h₁, EventLog.publishAll_append, ← step_tells hs ht h₁]
      exact ih (step_sound hs h₁) (step_torn hs ht h₁) hrest

/-- A connection that is over has nothing to tell. -/
theorem told_of_over (hs : e.Sound accepted) (ho : e.connection.Over)
    (h : e.run evs = some e') : e.told evs = [] := by
  induction evs generalizing e with
  | nil => rfl
  | cons ev evs ih =>
      obtain ⟨e₁, h₁, hrest⟩ := run_cons_inv h
      rw [told_cons h₁, tells_of_over ho, List.nil_append]
      exact ih (step_sound hs h₁) (step_over hs ho h₁) hrest

theorem told_append {before after : List Event} (h : e.run before = some e') :
    e.told (before ++ after) = e.told before ++ e'.told after := by
  induction before generalizing e with
  | nil =>
      cases h
      rfl
  | cons ev before ih =>
      obtain ⟨e₁, h₁, hrest⟩ := run_cons_inv h
      rw [List.cons_append, told_cons h₁, told_cons h₁, ih hrest, List.append_assoc]

/-- As long as nobody asks for a shutdown, the connection goes on, and the listener is told of
nothing fatal. -/
theorem run_uncalled (hs : e.Sound accepted) (hopen : e.connection.isShutDown = false)
    (h : e.run evs = some e') (hcalls : e.calls evs = []) :
    e'.connection.isShutDown = false ∧ ∀ x ∈ e.told evs, x.fatal = false := by
  induction evs generalizing e with
  | nil =>
      cases h
      exact ⟨hopen, fun x hx => by cases hx⟩
  | cons ev evs ih =>
      obtain ⟨e₁, h₁, hrest⟩ := run_cons_inv h
      rw [calls_cons h₁, List.append_eq_nil_iff] at hcalls
      have hnone : e.shutdownCall? ev = none := by simpa using hcalls.1
      have hopen₁ : e₁.connection.isShutDown = false := by
        rw [step_down_iff hs h₁, hopen, hnone]
        rfl
      obtain ⟨hopen', hquiet⟩ := ih (step_sound hs h₁) hopen₁ hrest hcalls.2
      refine ⟨hopen', fun x hx => ?_⟩
      rw [told_cons h₁, List.mem_append] at hx
      rcases hx with hx | hx
      · unfold tells at hx
        rw [hopen, hnone, if_neg (by decide)] at hx
        exact complaints_fatal (List.append_nil _ ▸ hx)
      · exact hquiet x hx

/-- The connection is torn down in a run from `e₀` to `e`: nobody had asked for it before, and what
is done is what is asked for. -/
inductive FirstCall (e₀ : Engine) : List Event → ShutdownCall → Engine → Prop where
  | intro {before after : List Event} {ev : Event} {e₁ e₂ e : Engine} {c : Connection}
      {cause : String} {error : Option Error} (hbefore : e₀.run before = some e₁)
      (hcalls : e₀.calls before = []) (hopen : e₁.connection.isShutDown = false)
      (hcall : e₁.shutdownCall? ev = some (cause, error)) (hstep : e₁.step ev = some e₂)
      (hc : c.isShutDown = false) (hdown : e₂.connection = c.shutdown cause error)
      (hafter : e₂.run after = some e) :
      FirstCall e₀ (before ++ ev :: after) (cause, error) e

/-- In a run with a call, the first one tears the connection down. -/
theorem run_firstCall (hs : e.Sound accepted) (hopen : e.connection.isShutDown = false)
    (h : e.run evs = some e') {call : ShutdownCall} {more : List ShutdownCall}
    (hcalls : e.calls evs = call :: more) : FirstCall e evs call e' := by
  induction evs generalizing e with
  | nil => cases hcalls
  | cons ev evs ih =>
      obtain ⟨e₁, h₁, hrest⟩ := run_cons_inv h
      rw [calls_cons h₁] at hcalls
      cases hcall : e.shutdownCall? ev with
      | some first =>
          rw [hcall] at hcalls
          obtain rfl : first = call := (List.cons.inj hcalls).1
          obtain ⟨c, hc, heq⟩ := step_calls hs h₁
          rw [hcall] at heq
          have hbefore : e.run [] = some e := rfl
          exact .intro hbefore rfl hopen hcall h₁ (hc.down.trans hopen) heq hrest
      | none =>
          have hopen₁ : e₁.connection.isShutDown = false := by
            rw [step_down_iff hs h₁, hopen, hcall]
            rfl
          rw [hcall] at hcalls
          cases ih (step_sound hs h₁) hopen₁ hrest hcalls with
          | intro hbefore hnone hopen' hcall' hstep hc hdown hafter =>
              rw [← List.cons_append]
              refine .intro ?_ ?_ hopen' hcall' hstep hc hdown hafter
              · rw [run_cons, h₁]
                exact hbefore
              · rw [calls_cons h₁, hcall]
                exact hnone

/-- What the listener is told up to the first call, and after it. -/
theorem FirstCall.told (hs : e.Sound accepted) (hopen : e.connection.isShutDown = false)
    {call : ShutdownCall} (h : FirstCall e evs call e') :
    e'.connection.Over ∧ ∃ quiet, (∀ x ∈ quiet, x.fatal = false)
      ∧ e.told evs = quiet ++ fatalEvents (some call) := by
  cases h with
  | @intro before after ev e₁ e₂ _ c cause error hbefore hcalls hopen₁ hcall hstep hc hdown
      hafter =>
      have hs₁ := run_sound hs hbefore
      have hs₂ := step_sound hs₁ hstep
      have hover : e₂.connection.Over := by
        rw [hdown]
        exact Connection.shutdown_over hc cause error
      obtain ⟨-, hquiet⟩ := run_uncalled hs hopen hbefore hcalls
      refine ⟨run_over hs₂ hover hafter, e.told before ++ e₁.complaints ev, fun x hx => ?_, ?_⟩
      · rcases List.mem_append.mp hx with hx | hx
        · exact hquiet x hx
        · exact complaints_fatal hx
      · rw [told_append hbefore, told_cons hstep, told_of_over hs₂ hover hafter]
        unfold tells
        rw [hopen₁, hcall, if_neg (by decide), List.append_nil, List.append_assoc]

/-! ## The life of a connection -/

/-- There is nothing left that could happen to the connection. -/
structure Final (e : Engine) : Prop extends e.connection.Over where
  /-- frames and messages are refused -/
  push : ∀ f, ∃ error, e.connection.ledger.push f = .error error
  enqueue : ∀ id priority, e.connection.enqueue id priority = some (.error .queueClosed)
  /-- replies are rejected, and complete nothing -/
  reply : ∀ r, e.connection.processReply r
    = (some (.protocol (.unexpectedReply r.display)), e.connection)
  /-- the listener is told nothing more -/
  quiet : ∀ ev, e.tells ev = []
  /-- opening, closing, replies and more calls for a shutdown do nothing, except that a wait that
  runs out of time is counted -/
  idle : ∀ ev e', ev.isWork = false → e.step ev = some e' →
    e'.connection = e.connection ∨ e'.connection = e.connection.count .timeout

theorem final_of_over (ho : e.connection.Over) : e.Final where
  toOver := ho
  push f := ⟨_, Ledger.push_of_closed ho.ledger.1 f⟩
  enqueue := Connection.enqueue_of_closed ho.queue.1
  reply := Connection.processReply_nil ho.ledger.2
  quiet := tells_of_over ho
  idle _ _ hev h := step_of_over ho hev h

/-- In the run from `e₀` to `e`, only the first call for a shutdown counts. -/
structure ShutsDownOnce (e₀ : Engine) (evs : List Event) (e : Engine) : Prop where
  heard : e.connection.events = e₀.connection.events.publishAll (e₀.told evs)
  /-- the only fatal event is the error of the first call, if it has one, and is the last event -/
  fatal : ∃ quiet, (∀ x ∈ quiet, x.fatal = false)
    ∧ e₀.told evs = quiet ++ fatalEvents (e₀.calls evs).head?
  /-- without a call the connection goes on -/
  goesOn : e₀.calls evs = [] → e.connection.isShutDown = false
  /-- the first call tears it down, and this is final -/
  tornDown : ∀ call more, e₀.calls evs = call :: more → FirstCall e₀ evs call e ∧ e.Final

/-- A connection is torn down once, whoever asks for it, when and how often. -/
theorem shutdown_once {config : Config} {log : EventLog}
    (h : ((new config).listening log).run evs = some e) :
    ShutsDownOnce ((new config).listening log) evs e := by
  have hs : ((new config).listening log).Sound [] := (new_sound config).listening log
  have hopen : ((new config).listening log).connection.isShutDown = false := rfl
  have htorn : ((new config).listening log).Torn := fun hdown => by cases hdown
  refine ⟨run_told hs htorn h, ?_, fun hcalls => (run_uncalled hs hopen h hcalls).1,
    fun call more hcalls => ?_⟩
  · cases hcalls : ((new config).listening log).calls evs with
    | nil => exact ⟨_, (run_uncalled hs hopen h hcalls).2, (List.append_nil _).symm⟩
    | cons call more => exact ((run_firstCall hs hopen h hcalls).told hs hopen).2
  · have hfirst := run_firstCall hs hopen h hcalls
    exact ⟨hfirst, final_of_over (hfirst.told hs hopen).1⟩

/-- A command is in flight when the connection is torn down, twice, and then answered. -/
def tornTwice : List Event :=
  [.make { command := .get, args := [.text "k"] }, .submit .connection 0 .standard .text, .round,
   .shutdown "test" (some .aborted), .shutdown "again" none,
   .reply (.status Literal.ok.bytes), .close true]

theorem shutdown_once_tornTwice :
    ShutsDownOnce ((new {}).listening (EventLog.withCapacity 16).subscribe) tornTwice
      ((((new {}).listening (EventLog.withCapacity 16).subscribe).run tornTwice).get (by decide)) :=
  shutdown_once (Option.some_get _).symm

end Engine

end RespMux
