import RespMux.Proofs.Outgoing.Tally
import RespMux.Proofs.Shutdown

/-!
# What a step counts

Callers count nothing but the waits that ran out of time (`SameTraffic`). The outgoing pump counts
what it records and what it passes over, and the incoming pump counts each reply that finds a
frame, and each error that it tells the listener of (`processReply_counters`). So each counter moves
in step with something that a run leaves behind, and `Engine.Counts` says of every step how
(`step_counts`).
-/

set_option autoImplicit false

namespace RespMux

namespace Connection

variable {c c₁ c' : Connection}

/-! ## Callers -/

/-- Nothing has been counted but waits that ran out of time. -/
def SameTraffic (c c' : Connection) : Prop := ∃ n, c'.counters = { c.counters with timeouts := n }

theorem SameTraffic.of_eq (h : c'.counters = c.counters) : SameTraffic c c' := ⟨_, h⟩

theorem SameTraffic.refl (c : Connection) : SameTraffic c c := .of_eq rfl

theorem SameTraffic.trans (h : SameTraffic c c₁) (h' : SameTraffic c₁ c') : SameTraffic c c' := by
  obtain ⟨n, hn⟩ := h
  obtain ⟨n', hn'⟩ := h'
  refine ⟨n', ?_⟩
  rw [hn', hn]

theorem shutdown_counters (c : Connection) (cause : String) (error : Option Error) :
    (c.shutdown cause error).counters = c.counters := by
  cases h : c.isShutDown with
  | true => rw [shutdown_of_down h]
  | false =>
    obtain ⟨events, heq⟩ := shutdown_eq h cause error
    rw [heq]

theorem transition_counters (c : Connection) (origins : List Lifecycle) (target : Lifecycle) :
    (c.transition origins target).2.counters = c.counters := by
  obtain ⟨state, heq⟩ := c.transition_eq origins target
  rw [heq]

theorem executor_counters (target : Target) {id : MessageId} {p : Priority}
    (h : (executor target).enqueue c id p = some (.ok c')) : c'.counters = c.counters := by
  cases target with
  | connection =>
    change c.enqueue id p = some (.ok c') at h
    unfold enqueue at h
    split at h
    · cases h
      rfl
    · cases h
    · cases h
  | transaction t =>
    simp only [executor, collector] at h
    split at h
    · cases h
      rfl
    · cases h
    · cases h

theorem submit_counters {target : Target} {id : MessageId} {p : Priority} {shape : Shape}
    {k : CompletionId} (h : (executor target).submit c id p shape = some (k, c')) :
    c'.counters = c.counters := by
  rcases submit_cases h with ⟨-, e, rfl⟩ | ⟨-, hok | ⟨e, -, rfl⟩⟩
  · rfl
  · exact executor_counters (c := { c with store := c.store.attach id shape }) target hok
  · rfl

theorem execute_counters {t : Nat} {p : Priority} {k : CompletionId}
    (h : c.executeTransaction t p = some (k, c')) : c'.counters = c.counters := by
  rcases execute_cases h with ⟨-, rfl⟩ | ⟨-, hok | ⟨e, -, rfl⟩⟩
  · rfl
  · exact executor_counters (c := c.handedOn t) .connection hok
  · rfl

theorem finishOpening_counters (c : Connection) (ping : Outcome) :
    (c.finishOpening ping).2.counters = c.counters := by
  cases ping with
  | ok v =>
    rw [finishOpening_ok]
    exact c.transition_counters _ _
  | error error => exact c.shutdown_counters "handshake failed" (some error)

theorem close_counters (c : Connection) (abort : Bool) : (c.close abort).counters = c.counters := by
  rcases c.close_cases abort with ⟨-, heq⟩ | ⟨-, heq⟩ | ⟨-, heq⟩
  · rw [heq, shutdown_counters]
  · rw [heq]
  · rw [heq]

/-! ## Replies -/

/-- An answer counts as an error just if the listener is told of it. -/
theorem answer_counters (c : Connection) (id : MessageId) (r : Reply) :
    (c.answer id r).2.counters = { c.counters with
      errors := c.counters.errors + ((c.store.requestOf id).complaint? r).toList.length } := by
  unfold answer Request.complaint?
  dsimp only
  cases (c.store.requestOf id).judge r with
  | error t =>
    cases (c.store.requestOf id).critical with
    | true => rfl
    | false => rfl
  | _ => rfl

theorem answerSlots_counters (c : Connection) (l : List (Option MessageId × Reply)) :
    (c.answerSlots l).2.counters = { c.counters with
      errors := c.counters.errors + (c.store.complaints (memberResults l)).length } := by
  induction l generalizing c with
  | nil => rfl
  | cons x l ih =>
    obtain ⟨slot, r⟩ := x
    cases slot with
    | none => exact ih c
    | some id =>
      have hrequest : (c.answer id r).2.store.requestOf = c.store.requestOf := by
        obtain ⟨n, heq⟩ := c.answer_spec id r
        rw [heq]
        exact c.store.answer_requestOf id r
      have hrest := ih (c.answer id r).2
      rw [Store.complaints_congr hrequest, answer_counters] at hrest
      rw [memberResults_some, Store.complaints_cons, List.length_append, ← Nat.add_assoc]
      exact hrest

theorem failWith_counters (c : Connection) (es : List Error) :
    (c.failWith es).counters = c.counters := by
  cases es with
  | nil => rfl
  | cons e more => exact shutdown_counters ..

theorem answerBlock_counters (c : Connection) {b : Block} {r : Reply} {rs : List Reply}
    (h : b.results? r = .ok rs) :
    (c.answerBlock b r).counters = { c.counters with
      errors := c.counters.errors + (c.store.complaints (b.pairs rs)).length } := by
  obtain ⟨rfl, hlen⟩ := results?_ok h
  have hslots := c.answerSlots_counters (b.slots.zip rs)
  have hsucceed : ((c.answerSlots (b.slots.zip rs)).2.succeed b.done).counters
      = (c.answerSlots (b.slots.zip rs)).2.counters := by
    cases b.done <;> rfl
  rw [answerBlock_unpacked c hlen, failWith_counters, hsucceed]
  exact hslots

theorem answerInFlight_counters (c : Connection) (fs : List InFlight) (b : Block) (r : Reply)
    {error : Error} (h : b.results? r = .error error) :
    ((c.popped fs).answerInFlight (.exec b) r).2.counters = { c.counters with
      received := c.counters.received + 1
      errors := c.counters.errors + if r.isError then 1 else 0 } := by
  have hblock : ((c.popped fs).answerBlock b r).counters = (c.popped fs).counters := by
    unfold answerBlock
    rw [h]
  unfold answerInFlight
  cases r with
  | error t => exact congrArg (Counters.count · .error) hblock
  | _ => exact hblock

/-- A reply is counted if it finds a frame, and what the listener is told of it counts as errors. -/
theorem processReply_counters (c : Connection) (r : Reply) :
    (c.processReply r).2.counters = { c.counters with
      received := c.counters.received + c.ledger.entries.head?.toList.length
      errors := c.counters.errors + (c.replyComplaints r).length } := by
  unfold replyComplaints
  cases h : c.ledger.entries with
  | nil =>
    rw [processReply_nil h]
    rfl
  | cons f fs =>
    rw [processReply_cons h, List.head?_cons]
    cases f with
    | message id => exact (c.popped fs).answer_counters id r
    | exec b =>
      dsimp only
      cases hres : b.results? r with
      | ok rs =>
        have hblock := (c.popped fs).answerBlock_counters hres
        obtain ⟨rfl, -⟩ := results?_ok hres
        exact hblock
      | error error =>
        have hblock := c.answerInFlight_counters fs b r hres
        cases r <;> exact hblock

end Connection

namespace Engine

variable {accepted : List MessageId} {e e' : Engine} {ev : Event}

/-! ## Steps -/

/-- The message that a round is about, unless the connection is being aborted. -/
def handled? (e : Engine) : Option MessageId :=
  if e.connection.aborting then none else e.connection.queue.next?.map fun x => x.1.1

/-- The messages that the outgoing pump passes over in a step. -/
def skips (e : Engine) : Event → List MessageId
  | .round => (e.handled?.map e.store.skips).getD []
  | _ => []

/-- The messages that use their databases in a step of the outgoing pump. -/
def users (e : Engine) : Event → List MessageId
  | .round => (e.handled?.map e.store.users).getD []
  | _ => []

theorem handled?_of_next {id : MessageId} {overtook wakes : Bool} {q : PriorityQueue MessageId}
    (ha : e.connection.aborting = false)
    (h : e.connection.queue.next? = some ((id, overtook), q, wakes)) : e.handled? = some id := by
  unfold handled?
  rw [ha, h]
  rfl

theorem round_of_none (h : e.handled? = none) : e.skips .round = [] ∧ e.users .round = [] := by
  unfold skips users
  rw [h]
  exact ⟨rfl, rfl⟩

theorem round_of_some {id : MessageId} (h : e.handled? = some id) :
    e.skips .round = e.store.skips id ∧ e.users .round = e.store.users id := by
  unfold skips users
  rw [h]
  exact ⟨rfl, rfl⟩

/-- What a step counts is what it leaves behind. -/
structure Counts (e : Engine) (ev : Event) (e' : Engine) : Prop where
  sent : e'.connection.counters.sent + e.tape.length
    = e.connection.counters.sent + e'.tape.length
  received : e'.connection.counters.received + e.answered.length
    = e.connection.counters.received + e'.answered.length
  cancelled : e'.connection.counters.cancelled
    = e.connection.counters.cancelled + (e.skips ev).length
  errors : e'.connection.counters.errors = e.connection.counters.errors + (e.complaints ev).length
  usage : e'.connection.counters.usage
    = (e.store.targets (e.users ev)).foldl UseCounts.count e.connection.counters.usage

theorem settle_counters (w : Writer) : w.settle.connection.counters = w.connection.counters := by
  rcases settle_cases w with heq | ⟨error, heq⟩
  · rw [heq]
  · rw [heq]
    exact w.connection.shutdown_counters _ _

/-- Callers and the clock count only waits that ran out of time. -/
theorem step_sameTraffic (hq : ev.isQuiet = true) (h : e.step ev = some e') :
    Connection.SameTraffic e.connection e'.connection := by
  cases ev with
  | make r =>
    cases h
    exact .of_eq rfl
  | attach id shape =>
    obtain ⟨-, -, rfl⟩ := step_attach_inv h
    exact .of_eq rfl
  | put target id priority =>
    obtain ⟨-, ⟨c, henq, rfl⟩ | ⟨-, rfl⟩⟩ := step_put_inv h
    · exact .of_eq (Connection.executor_counters _ henq)
    · exact .refl _
  | submit target id priority shape =>
    obtain ⟨-, k, c, hsubmit, rfl⟩ := step_submit_inv h
    exact .of_eq (Connection.submit_counters hsubmit)
  | fail id error =>
    obtain ⟨-, rfl⟩ := step_fail_inv h
    exact .of_eq rfl
  | cancel id =>
    obtain ⟨-, rfl⟩ := step_cancel_inv h
    exact .of_eq rfl
  | cancelThrough k =>
    cases h
    exact .of_eq rfl
  | look k l =>
    cases h
    exact .of_eq rfl
  | timeOut =>
    cases h
    exact ⟨_, rfl⟩
  | newTransaction =>
    cases h
    exact .of_eq rfl
  | execute t priority =>
    obtain ⟨k, c, hexecute, rfl⟩ := step_execute_inv h
    exact .of_eq (Connection.execute_counters hexecute)
  | discard t =>
    cases h
    exact .of_eq rfl
  | beginOpening =>
    cases h
    exact .of_eq (e.connection.transition_counters _ _)
  | connectFailed error =>
    cases h
    exact .of_eq (e.connection.shutdown_counters "connect failed" (some error))
  | finishOpening ping =>
    cases h
    exact .of_eq (e.connection.finishOpening_counters ping)
  | openingTimedOut =>
    cases h
    have htimeout : Connection.SameTraffic e.connection e.connection.timeout.2 := ⟨_, rfl⟩
    exact htimeout.trans (.of_eq (e.connection.timeout.2.shutdown_counters "handshake timed out"
      (some e.connection.timeout.1)))
  | close abort =>
    cases h
    exact .of_eq (e.connection.close_counters abort)
  | shutdown cause error =>
    cases h
    exact .of_eq (e.connection.shutdown_counters cause error)
  | settle =>
    cases h
    exact .of_eq (settle_counters e.writer)
  | breakWrites text =>
    cases h
    exact .refl _
  | tick now =>
    cases h
    exact .of_eq rfl
  | round => cases hq
  | finish => cases hq
  | reply r => cases hq

theorem counts_of_quiet (hs : e.Sound accepted) (hq : ev.isQuiet = true)
    (h : e.step ev = some e') : Counts e ev e' := by
  obtain ⟨n, hn⟩ := step_sameTraffic hq h
  obtain ⟨-, hrests⟩ := step_quiet hs hq h
  have hskips : e.skips ev = [] ∧ e.users ev = [] ∧ e.complaints ev = [] := by
    cases ev with
    | round => cases hq
    | reply r => cases hq
    | _ => exact ⟨rfl, rfl, rfl⟩
  obtain ⟨hskips, husers, hcomplaints⟩ := hskips
  refine ⟨?_, ?_, ?_, ?_, ?_⟩
  · rw [hn, hrests.tape]
  · rw [hn, hrests.answered]
  · rw [hn, hskips]
    rfl
  · rw [hn, hcomplaints]
    rfl
  · rw [hn, husers]
    rfl

/-- What the outgoing pump counts, apart from a change of the queue or of the lifecycle before. -/
theorem counts_of_tallies {w w' : Writer} {n : Nat} {dbs : List Database} {ended : Bool}
    (htape : w.written ++ w.buffer = e.tape)
    (hcounters : w.connection.counters = e.connection.counters) (h : w.Tallies n dbs w')
    (hskips : (e.skips ev).length = n) (husers : e.store.targets (e.users ev) = dbs)
    (hcomplaints : e.complaints ev = []) :
    Counts e ev { e with writer := w', ended := ended } where
  sent := by
    rw [← htape, ← hcounters]
    exact h.sent
  received := by
    show w'.connection.counters.received + _ = _
    rw [h.received, hcounters]
  cancelled := by
    show w'.connection.counters.cancelled = _
    rw [h.cancelled, hcounters, hskips]
  errors := by
    show w'.connection.counters.errors = _
    rw [h.errors, hcounters, hcomplaints]
    rfl
  usage := by
    show w'.connection.counters.usage = _
    rw [h.usage, hcounters, husers]

theorem counts_of_round (hs : e.Sound accepted) (h : e.step .round = some e') :
    Counts e .round e' := by
  obtain ⟨id, overtook, q, wakes, hnext, hfault, rfl⟩ := step_round h
  have hready := withQueue_ready hs hfault (hs.next_open hnext) q
  cases ha : e.connection.aborting with
  | true =>
    -- the message is put away unseen, and stays as it is
    obtain ⟨hskips, husers⟩ := round_of_none (e := e) (if_pos ha)
    have htally : (e.withQueue q).Tallies 0 [] ((e.withQueue q).handle id overtook) := by
      rw [Writer.handle_aborting (w := e.withQueue q) ha]
      exact Writer.tallies_withStore _ _
    refine counts_of_tallies (w := e.withQueue q) rfl rfl htally ?_ ?_ rfl
    · rw [hskips]
      rfl
    · rw [husers]
      rfl
  | false =>
    obtain ⟨hskips, husers⟩ := round_of_some (handled?_of_next ha hnext)
    have wf := hs.custody.wellFormed
    have htally := Writer.tallies_handle hready ha id overtook fun ms => wf.member_ne
    refine counts_of_tallies (w := e.withQueue q) rfl rfl htally ?_ ?_ rfl
    · rw [hskips]
      rfl
    · rw [husers]
      rfl

theorem tallies_settle (w : Writer) : w.Tallies 0 [] w.settle := by
  refine Writer.tallies_of_eq ?_ (settle_counters w)
  rcases settle_cases w with heq | ⟨error, heq⟩
  · rw [heq]
  · rw [heq]

/-- At its end the outgoing pump counts its good-bye, if it records it. -/
theorem tallies_finish (w : Writer) : w.Tallies 0 [] w.finish := by
  unfold Writer.finish
  split
  · exact .refl w
  · split
    · exact Writer.tallies_of_eq rfl (w.connection.shutdown_counters _ _)
    · dsimp only
      have hclosing : w.Tallies 0 [] { w with
          connection := (w.connection.transition [.opening, .established] .closing).2 } :=
        Writer.tallies_of_eq rfl (w.connection.transition_counters _ _)
      have hsaid := hclosing.andThen (Writer.tallies_pushOwn _ .quit)
      exact (hsaid.andThen (Writer.tallies_next (Writer.tallies_flush _))).andThen
        (tallies_settle _)

theorem counts_of_reply {r : Reply} (h : e.step (.reply r) = some e') :
    Counts e (.reply r) e' := by
  obtain ⟨-, rfl⟩ := step_reply h
  have hcounters := e.connection.processReply_counters r
  refine ⟨?_, ?_, ?_, ?_, ?_⟩
  · show (e.connection.processReply r).2.counters.sent + _ = _
    rw [hcounters]
    rfl
  · show (e.connection.processReply r).2.counters.received + _ = _ + (e.answered ++ _).length
    rw [hcounters, List.length_append, Option.length_toList, Option.length_toList]
    simp only [Option.isSome_map]
    omega
  · show (e.connection.processReply r).2.counters.cancelled = _
    rw [hcounters]
    rfl
  · show (e.connection.processReply r).2.counters.errors = _
    rw [hcounters]
    rfl
  · show (e.connection.processReply r).2.counters.usage = _
    rw [hcounters]
    rfl

/-- Every step counts what it leaves behind. -/
theorem step_counts (hs : e.Sound accepted) (h : e.step ev = some e') : Counts e ev e' := by
  cases hq : ev.isQuiet with
  | true => exact counts_of_quiet hs hq h
  | false =>
    cases ev with
    | round => exact counts_of_round hs h
    | finish =>
      obtain ⟨-, rfl⟩ := step_finish h
      exact counts_of_tallies (w := e.writer) rfl rfl (tallies_finish e.writer) rfl rfl rfl
    | reply r => exact counts_of_reply h
    | _ => cases hq

end Engine

end RespMux
