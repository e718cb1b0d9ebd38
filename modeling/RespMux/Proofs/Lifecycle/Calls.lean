import RespMux.Proofs.Lifecycle.Reserved

/-!
# Calls and their steps

To open a connection, to close it and to tear it down takes several steps each. A call looks at the
lifecycle and acts later on what it has seen, and whatever others do may come in between. So a call
has come some way (`Progress`), and `Life.proceed` is its next step. In a life (`Life`) there are
any number of such calls beside the callers and the pumps, and each may go on at any time
(`Life.step`). The pumps may work from the beginning, although in truth they are started with the
handshake.

The rest of the project takes `close`, `shutdown` and the parts of the handshake in one step each.
This is what such a call comes to if nobody gets in its way (`close_alone`, `shutdown_alone`,
`handshake_alone`, `finish_alone`).
-/

set_option autoImplicit false

namespace RespMux

/-! ## Single operations -/

namespace Connection

variable {c c' : Connection}

/-- The parts of a shutdown that are done first are done by the rest of it as well. -/
theorem shutdown_completes (h : c.isShutDown = false) (cause : String) (error : Option Error) :
    ({ c with aborting := true, queue := c.queue.close, state := .closed } : Connection).shutdown
      cause error = c.shutdown cause error := by
  unfold shutdown
  dsimp only
  rw [h]
  cases error <;> rfl

theorem transition_of_mem {origins : List Lifecycle} (h : c.state ∈ origins) (target : Lifecycle) :
    c.transition origins target = (true, { c with state := target }) := by
  simp [transition, h]

theorem transition_of_not_mem {origins : List Lifecycle} (h : c.state ∉ origins)
    (target : Lifecycle) : c.transition origins target = (false, c) := by
  simp [transition, h]

/-- A request of high priority does not have to wait. -/
theorem submit_high (c : Connection) (r : Request) (shape : Shape) :
    ∃ k c', c.submit .connection r .high shape = some (k, c') := by
  unfold submit Executor.submit
  dsimp only
  split
  · exact ⟨_, _, rfl⟩
  · split
    · next hwait => exact absurd hwait (Engine.enqueue_high _ _)
    · exact ⟨_, _, rfl⟩
    · exact ⟨_, _, rfl⟩

/-- A request of high priority is queued unless the queue is closed. -/
theorem post_open {r : Request} (h : c.post r .high = some (none, c')) :
    c.queue.isClosed = false := by
  cases hclosed : c.queue.isClosed with
  | false => rfl
  | true => simp [post, enqueue, PriorityQueue.enqueue, hclosed] at h

end Connection

/-! ## Calls -/

/-- What has been done to tear a connection down: it has been claimed, so that nobody else does it,
it aborts, its queue is closed, and its life is over. What waits is still to fail. -/
inductive Teardown where
  | nothing | claimed | aborting | sealed | ended
  deriving DecidableEq, Repr

/-- How far a call has come. -/
inductive Progress where
  /-- wants to open the connection -/
  | opens
  /-- is the one who opens it, and looks for the server -/
  | connects
  /-- has queued the password, if there is one -/
  | greets
  /-- has queued the ping, and waits for its outcome -/
  | awaits (ping : CompletionId)
  | concludes (outcome : Outcome)
  /-- wants to close the connection -/
  | closes (abort : Bool)
  /-- has said whether to abort, and looks at the lifecycle -/
  | looks (abort : Bool)
  /-- acts on what it has seen -/
  | acts (abort : Bool) (seen : Lifecycle)
  /-- still has to close the queue -/
  | seals
  /-- tears the connection down -/
  | tearsDown (done : Teardown) (cause : String) (error : Option Error)
  | returned

/-- A call that changes the lifecycle. -/
inductive Life.Call where
  | openUp
  | close (abort : Bool)
  | shutdown (cause : String) (error : Option Error)

/-- Where a call begins. -/
def Life.Call.start : Call → Progress
  | openUp => .opens
  | close abort => .closes abort
  | shutdown cause error => .tearsDown .nothing cause error

/-- A connection at work, with the calls that change its lifecycle. -/
structure Life where
  engine : Engine
  calls : List Progress := []
  /-- somebody has begun to tear the connection down -/
  claimed : Bool := false
  /-- the messages of the handshake -/
  handshake : List MessageId := []
  /-- how many calls have begun to open the connection -/
  starts : Nat := 0

namespace Life

/-- A connection before anything has happened. -/
def new (config : Config) : Life := { engine := .new config }

/-- Where the connection is in its life. -/
def state (l : Life) : Lifecycle := l.engine.connection.state

def withEngine (l : Life) (e : Engine) : Life := { l with engine := e }

def withConnection (l : Life) (c : Connection) : Life := l.withEngine (l.engine.withConnection c)

/-- The life after a message of the handshake has been made and queued. -/
def queued (l : Life) (e : Engine) : Life :=
  { l with engine := e, handshake := l.engine.store.messages.size :: l.handshake }

/-- The next step of a call; none if it has returned. -/
def proceed (l : Life) : Progress → Option (Progress × Life)
  | .opens =>
      match l.engine.connection.beginOpening with
      | (true, c) => some (.connects, { l.withConnection c with starts := l.starts + 1 })
      | (false, _) => some (.returned, l)
  | .connects =>
      match l.engine.connection.config.password with
      | none => some (.greets, l)
      | some password =>
          let id := l.engine.store.messages.size
          match l.engine.connection.post (.auth password) .high,
              l.engine.run [.make (.auth password), .put .connection id .high] with
          | some (none, _), some e => some (.greets, l.queued e)
          | some (some error, _), some e =>
              some (.tearsDown .nothing "failed to start the connection" (some error),
                l.withEngine e)
          | _, _ => none
  | .greets =>
      let id := l.engine.store.messages.size
      match l.engine.connection.submit .connection .handshakePing .high .integer,
          l.engine.run [.make .handshakePing, .submit .connection id .high .integer] with
      | some (k, _), some e => some (.awaits k, l.queued e)
      | _, _ => none
  | .awaits k =>
      match l.engine.store.completions[k]?, l.engine.step (.look k .poll) with
      | some d, some e => some ((d.poll.1.map .concludes).getD (.awaits k), l.withEngine e)
      | _, _ => none
  | .concludes (.ok _) =>
      some (.returned, l.withConnection (l.engine.connection.transition [.opening] .established).2)
  | .concludes (.error error) =>
      some (.tearsDown .nothing "handshake failed" (some error), l)
  | .closes abort =>
      some (.looks abort,
        if abort then l.withConnection { l.engine.connection with aborting := true } else l)
  | .looks abort => some (.acts abort l.state, l)
  | .acts abort seen =>
      match seen with
      | .fresh => some (.tearsDown .nothing "closed before opening" none, l)
      | .opening | .established =>
          some (.seals, l.withConnection
            (l.engine.connection.transition [.opening, .established] .closing).2)
      | .closing | .closed => some (if abort then .seals else .returned, l)
  | .seals =>
      some (.returned,
        l.withConnection { l.engine.connection with queue := l.engine.connection.queue.close })
  | .tearsDown .nothing cause error =>
      if l.claimed then some (.returned, l)
      else some (.tearsDown .claimed cause error, { l with claimed := true })
  | .tearsDown .claimed cause error =>
      some (.tearsDown .aborting cause error,
        l.withConnection { l.engine.connection with aborting := true })
  | .tearsDown .aborting cause error =>
      some (.tearsDown .sealed cause error,
        l.withConnection { l.engine.connection with queue := l.engine.connection.queue.close })
  | .tearsDown .sealed cause error =>
      some (.tearsDown .ended cause error,
        l.withConnection { l.engine.connection with state := .closed })
  | .tearsDown .ended cause error =>
      some (.returned, l.withConnection (l.engine.connection.shutdown cause error))
  | .returned => none

/-- One move of somebody. -/
inductive Move where
  /-- a caller, the clock or a pump makes a step -/
  | work (ev : Event)
  /-- somebody calls -/
  | calls (c : Call)
  /-- the call with this number makes its next step -/
  | proceeds (i : Nat)
  /-- the call with this number cannot open the connection: the server is not reached, a pump cannot
  be started, or the ping is not answered in time -/
  | fails (i : Nat) (cause : String) (error : Error)
  /-- the outgoing pump is through with the queue and about to say good-bye -/
  | departs

/-- The handshake is only known to the call that opens the connection, and the lifecycle is left to
the calls. -/
def admits (l : Life) (ev : Event) : Bool :=
  !ev.steersLifecycle && l.handshake.all fun id => !l.engine.touches ev id

/-- One move; none if it is not possible now. -/
def step (l : Life) : Move → Option Life
  | .work ev =>
      if l.admits ev then
        (l.engine.step ev).map fun e =>
          { l with engine := e, claimed := l.claimed || e.connection.isShutDown }
      else none
  | .calls c => some { l with calls := l.calls ++ [c.start] }
  | .proceeds i =>
      l.calls[i]?.bind fun s =>
        (l.proceed s).map fun (s', l') => { l' with calls := l.calls.set i s' }
  | .fails i cause error =>
      l.calls[i]?.bind fun s =>
        match s with
        | .connects | .greets | .awaits _ =>
            some { l with calls := l.calls.set i (.tearsDown .nothing cause (some error)) }
        | _ => none
  | .departs =>
      some (l.withConnection
        (l.engine.connection.transition [.opening, .established] .closing).2)

/-- A whole life; none if one of its moves is not possible. -/
def run (l : Life) (ms : List Move) : Option Life := ms.foldlM step l

/-! ## Calls that nobody gets in the way of -/

/-- What a call comes to with the next `n` steps if nobody else does anything. -/
def alone (l : Life) (s : Progress) : Nat → Option (Progress × Life)
  | 0 => some (s, l)
  | n + 1 => (l.proceed s).bind fun (s', l') => l'.alone s' n

variable {l : Life}

theorem alone_succ {s s' : Progress} {l' : Life} (h : l.proceed s = some (s', l')) (n : Nat) :
    l.alone s (n + 1) = l'.alone s' n := by
  rw [alone, h]
  rfl

/-- To tear the connection down. -/
theorem shutdown_alone (cause : String) (error : Option Error)
    (h : l.claimed = l.engine.connection.isShutDown) :
    ∃ n l', l.alone (.tearsDown .nothing cause error) n = some (.returned, l')
      ∧ l'.engine.connection = l.engine.connection.shutdown cause error := by
  cases hdown : l.engine.connection.isShutDown with
  | true =>
      have hfirst : l.proceed (.tearsDown .nothing cause error) = some (.returned, l) :=
        if_pos (h.trans hdown)
      exact ⟨1, l, alone_succ hfirst 0, (Connection.shutdown_of_down hdown cause error).symm⟩
  | false =>
      have hfirst : l.proceed (.tearsDown .nothing cause error)
          = some (.tearsDown .claimed cause error, { l with claimed := true }) :=
        if_neg (by rw [h, hdown]; decide)
      exact ⟨5, _, alone_succ hfirst 4, Connection.shutdown_completes hdown cause error⟩

/-- A call that has seen that the connection is being opened, or is open, begins to close it. -/
theorem acts_open {seen : Lifecycle} (abort : Bool) (h : l.engine.connection.state = seen)
    (hopen : seen ∈ [Lifecycle.opening, .established]) :
    ∃ l', l.alone (.acts abort seen) 2 = some (.returned, l') ∧ l'.engine.connection
      = { l.engine.connection with state := .closing, queue := l.engine.connection.queue.close } := by
  have hact : l.proceed (.acts abort seen) = some (.seals, l.withConnection
      (l.engine.connection.transition [.opening, .established] .closing).2) := by
    rcases List.mem_cons.mp hopen with rfl | hmem
    · rfl
    · rw [List.mem_singleton.mp hmem]
      rfl
  rw [Connection.transition_of_mem (h.symm ▸ hopen)] at hact
  exact ⟨_, alone_succ hact 1, rfl⟩

/-- One that has seen that it is being closed closes the queue at most. -/
theorem acts_closing {seen : Lifecycle} (abort : Bool)
    (hclosing : seen ∈ [Lifecycle.closing, .closed]) :
    ∃ n l', l.alone (.acts abort seen) n = some (.returned, l') ∧ l'.engine.connection
      = if abort then { l.engine.connection with queue := l.engine.connection.queue.close }
        else l.engine.connection := by
  have hact : l.proceed (.acts abort seen) = some (if abort then .seals else .returned, l) := by
    rcases List.mem_cons.mp hclosing with rfl | hmem
    · rfl
    · rw [List.mem_singleton.mp hmem]
      rfl
  cases abort with
  | true => exact ⟨2, _, alone_succ hact 1, rfl⟩
  | false => exact ⟨1, _, alone_succ hact 0, rfl⟩

/-- To close it. -/
theorem close_alone (abort : Bool) (h : l.claimed = l.engine.connection.isShutDown) :
    ∃ n l', l.alone (.closes abort) n = some (.returned, l')
      ∧ l'.engine.connection = l.engine.connection.close abort := by
  obtain ⟨l₁, hfirst, hclaimed, hc⟩ : ∃ l₁, l.proceed (.closes abort) = some (.looks abort, l₁)
      ∧ l₁.claimed = l₁.engine.connection.isShutDown ∧ l₁.engine.connection
        = if abort then { l.engine.connection with aborting := true } else l.engine.connection := by
    cases abort with
    | true => exact ⟨_, rfl, h, rfl⟩
    | false => exact ⟨_, rfl, h, rfl⟩
  have hlooks : ∀ {seen : Lifecycle} (n : Nat), l₁.engine.connection.state = seen →
      l.alone (.closes abort) (n + 2) = l₁.alone (.acts abort seen) n := by
    rintro _ n rfl
    rw [alone_succ hfirst, alone_succ rfl]
    rfl
  unfold Connection.close
  dsimp only
  rw [← hc]
  -- what the call does then depends on what it has seen
  split
  · next hstate =>
    obtain ⟨n, l', hrun, hend⟩ := shutdown_alone "closed before opening" none hclaimed
    exact ⟨n + 3, l', (hlooks _ hstate).trans ((alone_succ rfl n).trans hrun), hend⟩
  · next hstate =>
    obtain ⟨l', hrun, hend⟩ := acts_open abort hstate (by decide)
    exact ⟨4, l', (hlooks 2 hstate).trans hrun, hend⟩
  · next hstate =>
    obtain ⟨l', hrun, hend⟩ := acts_open abort hstate (by decide)
    exact ⟨4, l', (hlooks 2 hstate).trans hrun, hend⟩
  · next hstate =>
    obtain ⟨n, l', hrun, hend⟩ := @acts_closing l₁ .closing abort (by decide)
    exact ⟨n + 2, l', (hlooks n hstate).trans hrun, hend⟩
  · next hstate =>
    obtain ⟨n, l', hrun, hend⟩ := @acts_closing l₁ .closed abort (by decide)
    exact ⟨n + 2, l', (hlooks n hstate).trans hrun, hend⟩

/-- The ping is always queued, even if that fails it at once. -/
theorem proceed_greets (l : Life) : ∃ k e,
    l.engine.run [.make .handshakePing,
        .submit .connection l.engine.store.messages.size .high .integer] = some e
      ∧ l.engine.connection.submit .connection .handshakePing .high .integer
        = some (k, e.connection)
      ∧ l.proceed .greets = some (.awaits k, l.queued e) := by
  obtain ⟨k, c, hsubmit⟩ := Connection.submit_high l.engine.connection .handshakePing .integer
  obtain ⟨e, hrun, rfl⟩ := Engine.submit_run hsubmit
  refine ⟨k, e, hrun, hsubmit, ?_⟩
  unfold proceed
  dsimp only
  rw [hsubmit, hrun]

/-- The password is queued, or the opening fails. -/
theorem proceed_connects {password : String}
    (h : l.engine.connection.config.password = some password) : ∃ e,
    l.engine.run [.make (.auth password),
        .put .connection l.engine.store.messages.size .high] = some e
      ∧ ((l.engine.connection.post (.auth password) .high = some (none, e.connection)
          ∧ l.proceed .connects = some (.greets, l.queued e))
        ∨ ∃ error, l.engine.connection.post (.auth password) .high = some (some error, e.connection)
          ∧ l.proceed .connects = some (.tearsDown .nothing "failed to start the connection"
            (some error), l.withEngine e)) := by
  obtain ⟨e, error, hrun, hpost⟩ := Engine.post_run l.engine (.auth password)
  refine ⟨e, hrun, ?_⟩
  unfold proceed
  dsimp only
  rw [h]
  dsimp only
  rw [hpost, hrun]
  cases error with
  | none => exact Or.inl ⟨rfl, rfl⟩
  | some error => exact Or.inr ⟨error, rfl, rfl⟩

/-- To queue the handshake. -/
theorem handshake_alone (h : l.claimed = l.engine.connection.isShutDown) :
    (∃ n k l', l.alone .connects n = some (.awaits k, l')
        ∧ l.engine.connection.queueHandshake = (.ok k, l'.engine.connection))
      ∨ ∃ n error l', l.alone .connects n = some (.returned, l')
        ∧ l.engine.connection.queueHandshake = (.error error, l'.engine.connection) := by
  unfold Connection.queueHandshake
  cases hpassword : l.engine.connection.config.password with
  | none =>
      obtain ⟨k, e, -, hsubmit, hping⟩ := l.proceed_greets
      have hfirst : l.proceed .connects = some (.greets, l) := by
        unfold proceed
        dsimp only
        rw [hpassword]
      refine Or.inl ⟨2, k, _, (alone_succ hfirst 1).trans (alone_succ hping 0), ?_⟩
      dsimp only
      rw [hsubmit]
      rfl
  | some password =>
      obtain ⟨e, -, ⟨hpost, hfirst⟩ | ⟨error, hpost, hfirst⟩⟩ := l.proceed_connects hpassword
      · obtain ⟨k, e', -, hsubmit, hping⟩ := (l.queued e).proceed_greets
        have hsubmit : e.connection.submit .connection .handshakePing .high .integer
            = some (k, e'.connection) := hsubmit
        refine Or.inl ⟨2, k, _, (alone_succ hfirst 1).trans (alone_succ hping 0), ?_⟩
        dsimp only
        rw [hpost]
        dsimp only [Option.getD_some]
        rw [hsubmit]
        rfl
      · have hclaimed : (l.withEngine e).claimed = e.connection.isShutDown := by
          rcases Engine.post_cases l.engine.connection (.auth password) .high with
            ⟨-, hnone⟩ | ⟨c, -, hok⟩ | ⟨error', -, herror⟩
          · cases hpost.symm.trans hnone
          · cases hpost.symm.trans hok
          · have hc := congrArg Prod.snd (Option.some.inj (hpost.symm.trans herror))
            exact h.trans (congrArg Connection.isShutDown hc).symm
        obtain ⟨n, l', hend, hc⟩ :=
          shutdown_alone "failed to start the connection" (some error) hclaimed
        refine Or.inr ⟨n + 1, error, l', (alone_succ hfirst n).trans hend, ?_⟩
        dsimp only
        rw [hpost, hc]
        rfl

/-- To conclude the opening with the outcome of the ping. -/
theorem finish_alone (outcome : Outcome) (h : l.claimed = l.engine.connection.isShutDown) :
    ∃ n l', l.alone (.concludes outcome) n = some (.returned, l')
      ∧ l'.engine.connection = (l.engine.connection.finishOpening outcome).2 := by
  cases outcome with
  | ok v =>
      refine ⟨1, _, rfl, ?_⟩
      unfold Connection.finishOpening
      dsimp only
      split
      · next h => exact congrArg Prod.snd h
      · next h => exact congrArg Prod.snd h
  | error error =>
      obtain ⟨n, l', hrun, hend⟩ := shutdown_alone "handshake failed" (some error) h
      exact ⟨n + 1, l', (alone_succ rfl n).trans hrun, hend⟩

end Life

end RespMux
