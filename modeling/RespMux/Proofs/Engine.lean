import RespMux.Connection.Handshake
import RespMux.Connection.Incoming
import RespMux.Connection.Outgoing

/-!
# A connection at work

Callers, the two pumps and the clock work on one connection at the same time. Each of them makes
steps that nobody can interrupt, and a run is a sequence of such steps in any order. `Engine.step`
says what each step does, and when it is possible at all: a caller deals with messages of its own
only, the outgoing pump does not go on after a failure or after its end, and the incoming pump does
not go on after a fatal reply.

Besides the state the engine keeps a record: which messages belong to callers, and which frame was
taken for which reply.
-/

set_option autoImplicit false

namespace RespMux

/-- What the holder of a completion does with it. -/
inductive Look where
  | take | poll | pollComplete | close
  deriving DecidableEq, Repr, Inhabited

/-- The completion after that. -/
def Look.apply : Look → Completion → Completion
  | take, c => c.take?.2
  | poll, c => c.poll.2
  | pollComplete, c => c.pollComplete.2
  | close, c => c.close

/-- One step of somebody. -/
inductive Event where
  /-- a caller makes a message -/
  | make (r : Request)
  /-- a caller asks for the outcome of a message in the given shape -/
  | attach (id : MessageId) (shape : Shape)
  /-- a caller hands a message in -/
  | put (target : Connection.Target) (id : MessageId) (priority : Priority)
  /-- both at once, as the helpers for the common commands do -/
  | submit (target : Connection.Target) (id : MessageId) (priority : Priority) (shape : Shape)
  /-- a caller gives a message up -/
  | fail (id : MessageId) (error : Error)
  | cancel (id : MessageId)
  | cancelThrough (k : CompletionId)
  | look (k : CompletionId) (l : Look)
  | timeOut
  | newTransaction
  | execute (t : Nat) (priority : Priority)
  | discard (t : Nat)
  | beginOpening
  | connectFailed (error : Error)
  | finishOpening (ping : Outcome)
  | openingTimedOut
  | close (abort : Bool)
  | shutdown (cause : String) (error : Option Error)
  /-- the outgoing pump takes a message out of the queue and handles it -/
  | round
  /-- the outgoing pump shuts the connection down if it has failed -/
  | settle
  /-- the outgoing pump ends with a closed and empty queue -/
  | finish
  /-- from now on every write fails -/
  | breakWrites (text : String)
  /-- the incoming pump matches a reply -/
  | reply (r : Reply)
  | tick (now : Duration)

/-- A connection with its pumps. -/
structure Engine where
  writer : Writer
  /-- the outgoing pump has come to its end -/
  ended : Bool := false
  /-- the error that ended the incoming pump -/
  failure : Option Error := none
  /-- the messages that callers have made -/
  owned : List MessageId := []
  /-- the frames taken out of the ledger, each with the reply for which it was taken -/
  answered : List (InFlight × Reply) := []
  deriving Inhabited

namespace Engine

/-- A connection before anything has happened. -/
def new (config : Config) : Engine := { writer := { connection := .new config } }

/-- The connection. -/
def connection (e : Engine) : Connection := e.writer.connection

/-- The messages and completions. -/
def store (e : Engine) : Store := e.connection.store

/-- Changes the connection. -/
def withConnection (e : Engine) (c : Connection) : Engine :=
  { e with writer := { e.writer with connection := c } }

/-- Changes the store. -/
def withStore (e : Engine) (s : Store) : Engine := e.withConnection { e.connection with store := s }

/-- One step; none if it is not possible now. -/
def step (e : Engine) : Event → Option Engine
  | .make r =>
      let (id, s) := e.store.create r
      some { e.withStore s with owned := id :: e.owned }
  | .attach id shape =>
      if id ∈ e.owned then
        let (k, s) := e.store.addCompletion {}
        match s.assign id ⟨k, shape⟩ with
        | .ok s => some (e.withStore (s.link k id))
        | .error _ => none
      else none
  | .put target id priority =>
      if id ∈ e.owned then
        match (Connection.executor target).enqueue e.connection id priority with
        | some (.ok c) => some (e.withConnection c)
        | some (.error _) => some e
        | none => none
      else none
  | .submit target id priority shape =>
      if id ∈ e.owned then
        match (Connection.executor target).submit e.connection id priority shape with
        | some (_, c) => some (e.withConnection c)
        | none => none
      else none
  | .fail id error => if id ∈ e.owned then some (e.withStore (e.store.fail id error)) else none
  | .cancel id => if id ∈ e.owned then some (e.withStore (e.store.cancel id).2) else none
  | .cancelThrough k => some (e.withStore (e.store.cancelThrough k).2)
  | .look k l => some (e.withStore (e.store.modifyCompletion k l.apply))
  | .timeOut => some (e.withConnection e.connection.timeout.2)
  | .newTransaction => some (e.withConnection e.connection.newTransaction.2)
  | .execute t priority =>
      match e.connection.executeTransaction t priority with
      | some (_, c) => some (e.withConnection c)
      | none => none
  | .discard t => some (e.withConnection (e.connection.discardTransaction t).2)
  | .beginOpening => some (e.withConnection e.connection.beginOpening.2)
  | .connectFailed error => some (e.withConnection (e.connection.connectFailed error))
  | .finishOpening ping => some (e.withConnection (e.connection.finishOpening ping).2)
  | .openingTimedOut => some (e.withConnection e.connection.openingTimedOut.2)
  | .close abort => some (e.withConnection (e.connection.close abort))
  | .shutdown cause error => some (e.withConnection (e.connection.shutdown cause error))
  | .round =>
      if e.writer.fault.isSome || e.ended then none
      else e.writer.round?.map fun w => { e with writer := w }
  | .settle => some { e with writer := e.writer.settle }
  | .finish =>
      if e.writer.fault.isNone && !e.ended && e.connection.queue.isClosed
          && e.connection.queue.isEmpty then
        some { e with writer := e.writer.finish, ended := true }
      else none
  | .breakWrites text => some { e with writer := { e.writer with broken := some text } }
  | .reply r =>
      if e.failure.isSome then none
      else
        let (failure, c) := e.connection.processReply r
        some { e.withConnection c with
          failure := failure
          answered := e.answered ++ (e.connection.ledger.entries.head?.map fun f => (f, r)).toList }
  | .tick now => some (e.withStore { e.store with now := now })

/-- A whole run; none if one of its steps is not possible. -/
def run (e : Engine) (evs : List Event) : Option Engine := evs.foldlM step e

/-- The replies that the server has sent in a run. -/
def replies (evs : List Event) : List Reply :=
  evs.filterMap fun
    | .reply r => some r
    | _ => none

theorem run_nil (e : Engine) : e.run [] = some e := rfl

theorem run_cons (e : Engine) (ev : Event) (evs : List Event) :
    e.run (ev :: evs) = (e.step ev).bind fun e' => e'.run evs := rfl

theorem run_cons_inv {e e' : Engine} {ev : Event} {evs : List Event}
    (h : e.run (ev :: evs) = some e') : ∃ e₁, e.step ev = some e₁ ∧ e₁.run evs = some e' :=
  Option.bind_eq_some_iff.mp h

theorem run_append (e : Engine) (evs evs' : List Event) :
    e.run (evs ++ evs') = (e.run evs).bind fun e' => e'.run evs' :=
  List.foldlM_append

/-- What every step of a run preserves holds at its end. -/
theorem run_induction_mem {P : Engine → Prop} {e e' : Engine} {evs : List Event}
    (hstep : ∀ e ev e', ev ∈ evs → P e → e.step ev = some e' → P e')
    (h : e.run evs = some e') (hP : P e) : P e' := by
  induction evs generalizing e with
  | nil =>
      rw [run_nil] at h
      cases h
      exact hP
  | cons ev evs ih =>
      obtain ⟨e₁, h₁, hrest⟩ := run_cons_inv h
      have hP₁ := hstep e ev e₁ List.mem_cons_self hP h₁
      exact ih (fun e ev e' hev => hstep e ev e' (List.mem_cons_of_mem _ hev)) hrest hP₁

theorem run_induction {P : Engine → Prop}
    (hstep : ∀ e ev e', P e → e.step ev = some e' → P e') {e e' : Engine} {evs : List Event}
    (h : e.run evs = some e') (hP : P e) : P e' :=
  run_induction_mem (fun e ev e' _ => hstep e ev e') h hP

/-! ## The handshake -/

/-- The engine after a caller has made a message. -/
def made (e : Engine) (r : Request) : Engine :=
  { e.withStore (e.store.create r).2 with owned := e.store.messages.size :: e.owned }

theorem step_make (e : Engine) (r : Request) : e.step (.make r) = some (e.made r) := rfl

theorem mem_made (e : Engine) (r : Request) : e.store.messages.size ∈ (e.made r).owned :=
  List.mem_cons_self

/-- A message in the high lane never has to wait for room. -/
theorem enqueue_high (c : Connection) (id : MessageId) : c.enqueue id .high ≠ none := by
  unfold Connection.enqueue PriorityQueue.enqueue
  split
  · simp
  · simp
  · next h =>
    split at h
    · cases h
    · cases h

theorem step_put {e : Engine} {t : Connection.Target} {id : MessageId} {p : Priority}
    {c : Connection} (ho : id ∈ e.owned)
    (h : (Connection.executor t).enqueue e.connection id p = some (.ok c)) :
    e.step (.put t id p) = some (e.withConnection c) := by
  unfold step
  dsimp only
  rw [if_pos ho, h]

theorem step_put_refused {e : Engine} {t : Connection.Target} {id : MessageId} {p : Priority}
    {error : Error} (ho : id ∈ e.owned)
    (h : (Connection.executor t).enqueue e.connection id p = some (.error error)) :
    e.step (.put t id p) = some e := by
  unfold step
  dsimp only
  rw [if_pos ho, h]

theorem step_submit {e : Engine} {target : Connection.Target} {id : MessageId} {p : Priority}
    {shape : Shape} {k : CompletionId} {c : Connection} (ho : id ∈ e.owned)
    (h : (Connection.executor target).submit e.connection id p shape = some (k, c)) :
    e.step (.submit target id p shape) = some (e.withConnection c) := by
  unfold step
  dsimp only
  rw [if_pos ho, h]

/-- Posting is making a message and handing it in. -/
theorem post_cases (c : Connection) (r : Request) (p : Priority) :
    (Connection.enqueue { c with store := (c.store.create r).2 } c.store.messages.size p = none
        ∧ c.post r p = none)
      ∨ (∃ c', Connection.enqueue { c with store := (c.store.create r).2 } c.store.messages.size p
            = some (.ok c') ∧ c.post r p = some (none, c'))
      ∨ ∃ error, Connection.enqueue { c with store := (c.store.create r).2 }
            c.store.messages.size p = some (.error error)
          ∧ c.post r p = some (some error, { c with store := (c.store.create r).2 }) := by
  unfold Connection.post
  dsimp only [Store.create, Store.add]
  split
  · next h => exact Or.inl ⟨h, rfl⟩
  · next c' h => exact Or.inr (Or.inl ⟨c', h, rfl⟩)
  · next error h => exact Or.inr (Or.inr ⟨error, h, rfl⟩)

/-- A request that is posted is made and handed in. -/
theorem post_run (e : Engine) (r : Request) :
    ∃ e' error, e.run [.make r, .put .connection e.store.messages.size .high] = some e'
      ∧ e.connection.post r .high = some (error, e'.connection) := by
  rw [run_cons, step_make, Option.bind_some, run_cons]
  rcases post_cases e.connection r .high with ⟨hwait, -⟩ | ⟨c, hok, hpost⟩ | ⟨error, herr, hpost⟩
  · exact absurd hwait (enqueue_high _ _)
  · have hput := step_put (e := e.made r) (t := .connection) (e.mem_made r) hok
    rw [hput]
    exact ⟨_, none, rfl, hpost⟩
  · have hput := step_put_refused (e := e.made r) (t := .connection) (e.mem_made r) herr
    rw [hput]
    exact ⟨_, some error, rfl, hpost⟩

/-- A request that is submitted is made and submitted. -/
theorem submit_run {e : Engine} {r : Request} {p : Priority} {shape : Shape} {k : CompletionId}
    {c : Connection} (h : e.connection.submit .connection r p shape = some (k, c)) :
    ∃ e', e.run [.make r, .submit .connection e.store.messages.size p shape] = some e'
      ∧ e'.connection = c := by
  have hsubmit := step_submit (e := e.made r) (e.mem_made r) h
  rw [run_cons, step_make, Option.bind_some, run_cons]
  exact ⟨_, congrArg (fun x => x.bind fun e' => e'.run []) hsubmit, rfl⟩

/-- The handshake is made of steps of callers. -/
theorem queueHandshake_run (e : Engine) :
    ∃ evs e', e.run evs = some e' ∧ e'.connection = e.connection.queueHandshake.2 := by
  -- the ping, for whatever connection the password leaves behind
  have hping : ∀ e₁ : Engine, ∃ evs e', e₁.run evs = some e' ∧ e'.connection =
      (match e₁.connection.submit .connection .handshakePing .high .integer with
        | some (k, c) => ((.ok k, c) : Except Error CompletionId × Connection)
        | none => (.error .queueClosed, e₁.connection)).2 := by
    intro e₁
    cases hsubmit : e₁.connection.submit .connection .handshakePing .high .integer with
    | none => exact ⟨[], e₁, rfl, rfl⟩
    | some kc =>
        obtain ⟨e', hrun, hc⟩ := submit_run hsubmit
        exact ⟨_, e', hrun, hc⟩
  unfold Connection.queueHandshake
  cases e.connection.config.password with
  | none => exact hping e
  | some password =>
      obtain ⟨e₁, error, hrun, hpost⟩ := post_run e (.auth password)
      dsimp only
      rw [hpost]
      cases error with
      | none =>
          obtain ⟨evs, e', hrun', hc⟩ := hping e₁
          refine ⟨[.make (.auth password), .put .connection e.store.messages.size .high] ++ evs, e',
            ?_, hc⟩
          rw [run_append, hrun]
          exact hrun'
      | some error =>
          refine ⟨[.make (.auth password), .put .connection e.store.messages.size .high]
            ++ [.shutdown "failed to start the connection" (some error)],
            e₁.withConnection (e₁.connection.shutdown "failed to start the connection" (some error)),
            ?_, rfl⟩
          rw [run_append, hrun]
          rfl

end Engine

end RespMux
