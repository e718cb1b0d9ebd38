import RespMux.Proofs.Connection.Results
import RespMux.Proofs.Engine.Sound

/-!
# Standing in line

Only the outgoing pump takes messages out of the queue and picks them up. Whatever else happens, a
message that comes into the high lane goes to its end, and a message that was there before may be
given up, but keeps its place. `InLine` says so of two states, unless the connection has been torn
down in between, which empties the queue. It composes, and every step other than those of the
outgoing pump satisfies it (`step_inLine`).
-/

set_option autoImplicit false

namespace RespMux

theorem PriorityQueue.enqueue_prefix {α : Type} {q q' : PriorityQueue α} {x : α} {p : Priority}
    {wakes : Bool} (h : q.enqueue x p = .done (.ok ()) q' wakes) : q.high <+: q'.high := by
  unfold enqueue at h
  split at h
  · cases h
  · cases p with
    | high =>
        cases h
        exact List.prefix_append q.high [x]
    | standard =>
        dsimp only at h
        split at h
        · cases h
        · cases h
          exact List.prefix_rfl

namespace Connection

/-- Between `c` and `c'` nobody has picked a message up or left the high lane. The configuration
never changes. -/
structure InLine (c c' : Connection) : Prop where
  config : c'.config = c.config
  size : c.store.messages.size ≤ c'.store.messages.size
  phase : ∀ id < c.store.messages.size,
    c'.store.phase id = c.store.phase id ∨ c'.store.phase id = .complete
  down : c.isShutDown = true → c'.isShutDown = true
  lane : c'.isShutDown = false → c.queue.high <+: c'.queue.high

variable {owned accepted : List MessageId} {c c₁ c' : Connection}

theorem InLine.refl (c : Connection) : InLine c c where
  config := rfl
  size := Nat.le_refl _
  phase _ _ := Or.inl rfl
  down h := h
  lane _ := List.prefix_rfl

theorem InLine.trans (h : InLine c c₁) (h' : InLine c₁ c') : InLine c c' where
  config := h'.config.trans h.config
  size := Nat.le_trans h.size h'.size
  phase id hid := by
    rcases h'.phase id (Nat.lt_of_lt_of_le hid h.size) with hp | hp
    · rw [hp]
      exact h.phase id hid
    · exact Or.inr hp
  down hd := h'.down (h.down hd)
  lane hopen := by
    have hopen₁ : c₁.isShutDown = false := by
      cases hd : c₁.isShutDown with
      | false => rfl
      | true =>
          rw [h'.down hd] at hopen
          cases hopen
    exact (h.lane hopen₁).trans (h'.lane hopen)

/-! ## Parts of the state -/

/-- The configuration, the messages and the high lane are the same. -/
theorem inLine_of_eq (hconfig : c'.config = c.config) (hstore : c'.store = c.store)
    (hqueue : c'.queue.high = c.queue.high) (hdown : c'.isShutDown = c.isShutDown) :
    InLine c c' where
  config := hconfig
  size := Nat.le_of_eq (congrArg (fun s : Store => s.messages.size) hstore.symm)
  phase id _ := by
    rw [hstore]
    exact Or.inl rfl
  down hd := hdown.trans hd
  lane _ := hqueue.symm ▸ List.prefix_rfl

theorem inLine_store {s : Store} (hgrows : c.store.Grows s)
    (hphase : ∀ id < c.store.messages.size,
      s.phase id = c.store.phase id ∨ s.phase id = .complete) :
    InLine c { c with store := s } where
  config := rfl
  size := hgrows.size_le
  phase := hphase
  down hd := hd
  lane _ := List.prefix_rfl

/-- Giving out outcomes. -/
theorem inLine_resolves {P : Outcome → Prop} {ids : List MessageId} {own : List CompletionId}
    {s : Store} (h : c.store.Resolves P ids own s) : InLine c { c with store := s } :=
  inLine_store (.of_draft? h.draft?) fun id _ => h.phase id

/-- New messages. -/
theorem inLine_add (c : Connection) (m : Message) :
    InLine c { c with store := (c.store.add m).2 } :=
  inLine_store (.add c.store m) fun _ hid => Or.inl (Store.add_phase_of_lt m hid)

theorem inLine_attach (c : Connection) (id : MessageId) (shape : Shape) :
    InLine c { c with store := c.store.attach id shape } :=
  inLine_store (.of_draft? fun j => c.store.attach_draft? id j shape) fun j _ =>
    Or.inl (c.store.attach_phase id j shape)

/-- Anything about completions and the clock. -/
theorem inLine_messages {s : Store} (h : s.messages = c.store.messages) :
    InLine c { c with store := s } := by
  have hget : ∀ id : MessageId, s.messages[id]? = c.store.messages[id]? := fun id => by rw [h]
  exact inLine_store (.of_draft? fun id => Store.draft?_congr (hget id)) fun id _ =>
    Or.inl (Store.phase_congr (hget id))

/-! ## Handing in -/

theorem inLine_executor {target : Target} {id : MessageId} {p : Priority}
    (h : (executor target).enqueue c id p = some (.ok c')) : InLine c c' := by
  cases target with
  | connection =>
      change c.enqueue id p = some (.ok c') at h
      unfold enqueue at h
      split at h
      · next henq =>
        cases h
        exact
          { config := rfl
            size := Nat.le_refl _
            phase := fun _ _ => Or.inl rfl
            down := fun hd => hd
            lane := fun _ => PriorityQueue.enqueue_prefix henq }
      · cases h
      · cases h
  | transaction t =>
      simp only [executor, collector] at h
      split at h
      · cases h
        exact inLine_of_eq rfl rfl rfl rfl
      · cases h
      · cases h

theorem inLine_submit {target : Target} {id : MessageId} {p : Priority} {shape : Shape}
    {k : CompletionId} (wf : c.store.WellFormed)
    (h : (executor target).submit c id p shape = some (k, c')) : InLine c c' := by
  have hattach := c.inLine_attach id shape
  rcases submit_cases h with ⟨-, e, rfl⟩ | ⟨-, hok | ⟨e, -, rfl⟩⟩
  · exact inLine_messages rfl
  · exact hattach.trans (inLine_executor hok)
  · have hwf : (c.store.attach id shape).WellFormed :=
      wf.congr fun j => c.store.attach_draft? id j shape
    exact hattach.trans (inLine_resolves (c := { c with store := c.store.attach id shape })
      (Store.fail_resolves hwf id e))

/-! ## Giving up -/

theorem inLine_cancel (wf : c.store.WellFormed) (id : MessageId) :
    InLine c { c with store := (c.store.cancel id).2 } := by
  unfold Store.cancel
  split
  · exact inLine_resolves (Store.fail_resolves wf id .cancelled)
  · exact .refl c

theorem inLine_cancelThrough (wf : c.store.WellFormed) (k : CompletionId) :
    InLine c { c with store := (c.store.cancelThrough k).2 } := by
  unfold Store.cancelThrough
  split
  · next id _ =>
    split
    · split
      · exact .refl c
      · exact inLine_cancel wf id
    · exact .refl c
  · exact .refl c

theorem inLine_cancelAll (hs : c.Sound owned accepted) (ids : List MessageId) :
    InLine c { c with store := ids.foldl (fun s id => (s.cancel id).2) c.store } := by
  induction ids generalizing c with
  | nil => exact .refl c
  | cons id ids ih =>
      have hcancel := inLine_cancel hs.custody.wellFormed id
      exact hcancel.trans (ih (c.keeps_cancel id hs).1)

/-! ## Transactions -/

theorem inLine_discard (hs : c.Sound owned accepted) (t : Nat) :
    InLine c (c.discardTransaction t).2 := by
  have hemptied : InLine c (c.setCollected t (c.collected t).drain.2) :=
    inLine_of_eq rfl rfl rfl rfl
  exact hemptied.trans (inLine_cancelAll (c.keeps_emptied t hs).1 (c.collected t).toList)

theorem inLine_submitBatch {ms : List MessageId} {p : Priority} {k : CompletionId}
    (wf : (c.store.batch ms).2.WellFormed)
    (h : sender.submit { c with store := (c.store.batch ms).2 } c.store.messages.size p .unit
      = some (k, c')) : InLine c c' := by
  have hmade : InLine c { c with store := (c.store.batch ms).2 } := c.inLine_add _
  have hsubmit : (executor .connection).submit { c with store := (c.store.batch ms).2 }
      c.store.messages.size p .unit = some (k, c') := h
  exact hmade.trans (inLine_submit wf hsubmit)

theorem inLine_execute {t : Nat} {p : Priority} {k : CompletionId} (hs : c.Sound owned accepted)
    (h : c.executeTransaction t p = some (k, c')) : InLine c c' := by
  have hemptied : InLine c (c.setCollected t (c.collected t).drain.2) :=
    inLine_of_eq rfl rfl rfl rfl
  unfold executeTransaction at h
  dsimp only at h
  split at h
  · cases h
    exact hemptied.trans (inLine_messages rfl)
  · -- the batch is made of messages of callers
    have hbatch := hs.custody.batch fun j hj => hs.collected t j hj
    exact hemptied.trans (inLine_submitBatch hbatch.wellFormed h)

/-! ## The lifecycle -/

theorem shutdown_config (c : Connection) (cause : String) (error : Option Error) :
    (c.shutdown cause error).config = c.config := by
  cases h : c.isShutDown with
  | true => rw [shutdown_of_down h]
  | false =>
      obtain ⟨events, heq⟩ := shutdown_eq h cause error
      rw [heq]

theorem inLine_shutdown (wf : c.store.WellFormed) (cause : String) (error : Option Error) :
    InLine c (c.shutdown cause error) := by
  obtain ⟨ids, own, hr⟩ := shutdown_resolves wf cause error
  exact
    { config := c.shutdown_config cause error
      size := (Store.Grows.of_draft? hr.draft?).size_le
      phase := fun id _ => hr.phase id
      down := fun _ => c.shutdown_down cause error
      lane := fun hopen => by
        rw [shutdown_down] at hopen
        cases hopen }

theorem inLine_transition (c : Connection) (origins : List Lifecycle) (target : Lifecycle) :
    InLine c (c.transition origins target).2 := by
  obtain ⟨state, heq⟩ := c.transition_eq origins target
  rw [heq]
  exact inLine_of_eq rfl rfl rfl rfl

theorem inLine_finishOpening (wf : c.store.WellFormed) (ping : Outcome) :
    InLine c (c.finishOpening ping).2 := by
  have htransition := c.inLine_transition [.opening] .established
  unfold finishOpening
  split
  · split
    · next heq =>
      rw [heq] at htransition
      exact htransition
    · next heq =>
      rw [heq] at htransition
      exact htransition
  · next error => exact inLine_shutdown wf "handshake failed" (some error)

theorem inLine_close (wf : c.store.WellFormed) (abort : Bool) : InLine c (c.close abort) := by
  have habort : InLine c (if abort then { c with aborting := true } else c) := by
    split
    · exact inLine_of_eq rfl rfl rfl rfl
    · exact .refl c
  have hstore : (if abort then { c with aborting := true } else c).store = c.store := by
    split
    · rfl
    · rfl
  unfold close
  dsimp only
  rw [← hstore] at wf
  generalize (if abort then { c with aborting := true } else c) = c₁ at habort wf
  refine habort.trans ?_
  split
  · exact inLine_shutdown wf _ _
  · exact inLine_of_eq rfl rfl rfl rfl
  · exact inLine_of_eq rfl rfl rfl rfl
  · split
    · exact inLine_of_eq rfl rfl rfl rfl
    · exact .refl c₁
  · split
    · exact inLine_of_eq rfl rfl rfl rfl
    · exact .refl c₁

/-! ## Replies -/

theorem inLine_answerBlock {b : Block} (wf : c.store.WellFormed)
    (hsingle : ∀ j ∈ b.members, c.store.IsSingle j) (r : Reply) :
    InLine c (c.answerBlock b r) := by
  cases hres : b.results? r with
  | error e =>
      have heq : c.answerBlock b r = { c with store := c.store.failBlock b e } := by
        unfold answerBlock
        rw [hres]
      rw [heq]
      exact inLine_resolves (Store.failBlock_resolves wf b e)
  | ok rs =>
      obtain ⟨-, hlen⟩ := results?_ok hres
      have hr := Store.answerBlock_resolves wf hlen hsingle
      obtain ⟨n, events, heq⟩ := c.answerBlock_eq hres
      have hanswered : InLine c
          { c with store := c.store.answerBlock b rs, counters := n, events := events } :=
        (inLine_resolves hr).trans (inLine_of_eq rfl rfl rfl rfl)
      rw [heq]
      split
      · -- a critical command among the results tears the connection down
        next e _ =>
        exact hanswered.trans (inLine_shutdown (hr.wellFormed wf) _ _)
      · exact hanswered

/-- A reply gives outcomes, and may tear the connection down. -/
theorem inLine_processReply (hs : c.Sound owned accepted) (r : Reply) :
    InLine c (c.processReply r).2 := by
  cases h : c.ledger.entries with
  | nil =>
      rw [processReply_nil h]
      exact .refl c
  | cons f fs =>
      have hc := hs.custody
      rw [h] at hc
      have hpopped : InLine c (c.popped fs) := inLine_of_eq rfl rfl rfl rfl
      cases f with
      | message id =>
          have hbatch : ∀ ms, ¬ c.store.IsBatch id ms := hc.message_not_batch List.mem_cons_self
          obtain ⟨n, events, heq⟩ := (c.popped fs).answer_eq id r
          rw [processReply_cons h]
          show InLine c (answer _ id r).2
          rw [heq]
          have hanswered := inLine_resolves (c := { c with
            ledger := { c.ledger with entries := fs } }.count .received)
            (Store.answer_resolves hc.wellFormed hbatch r)
          exact (hpopped.trans hanswered).trans (inLine_of_eq rfl rfl rfl rfl)
      | exec b =>
          have hsingle : ∀ j ∈ b.members, c.store.IsSingle j := fun j hj =>
            hc.kinds.owned_single j (hc.kinds.block_owned b List.mem_cons_self j hj)
          have hanswered := inLine_answerBlock (c := c.popped fs) hc.wellFormed hsingle r
          obtain ⟨n, events, heq⟩ := processReply_exec (r := r) h
          rw [heq]
          exact (hpopped.trans hanswered).trans (inLine_of_eq rfl rfl rfl rfl)

end Connection

namespace Engine

variable {accepted : List MessageId} {e e' : Engine} {ev : Event}

/-- A step of anybody but the outgoing pump. -/
theorem step_inLine (hs : e.Sound accepted) (hround : ev ≠ .round) (hfinish : ev ≠ .finish)
    (h : e.step ev = some e') : e.connection.InLine e'.connection := by
  have wf : e.connection.store.WellFormed := hs.custody.wellFormed
  cases ev with
  | make r =>
      cases h
      exact e.connection.inLine_add _
  | attach id shape =>
      obtain ⟨-, -, rfl⟩ := step_attach_inv h
      exact e.connection.inLine_attach id shape
  | put target id p =>
      obtain ⟨-, ⟨c, henq, rfl⟩ | ⟨-, rfl⟩⟩ := step_put_inv h
      · exact Connection.inLine_executor henq
      · exact .refl _
  | submit target id p shape =>
      obtain ⟨-, k, c, hsubmit, rfl⟩ := step_submit_inv h
      exact Connection.inLine_submit wf hsubmit
  | fail id error =>
      obtain ⟨-, rfl⟩ := step_fail_inv h
      exact Connection.inLine_resolves (Store.fail_resolves wf id error)
  | cancel id =>
      obtain ⟨-, rfl⟩ := step_cancel_inv h
      exact Connection.inLine_cancel wf id
  | cancelThrough k =>
      cases h
      exact Connection.inLine_cancelThrough wf k
  | look k l =>
      cases h
      exact Connection.inLine_messages rfl
  | timeOut =>
      cases h
      exact Connection.inLine_of_eq rfl rfl rfl rfl
  | newTransaction =>
      cases h
      exact Connection.inLine_of_eq rfl rfl rfl rfl
  | execute t p =>
      obtain ⟨k, c, hexecute, rfl⟩ := step_execute_inv h
      exact Connection.inLine_execute hs hexecute
  | discard t =>
      cases h
      exact Connection.inLine_discard hs t
  | beginOpening =>
      cases h
      exact e.connection.inLine_transition _ _
  | connectFailed error =>
      cases h
      exact Connection.inLine_shutdown wf "connect failed" (some error)
  | finishOpening ping =>
      cases h
      exact Connection.inLine_finishOpening wf ping
  | openingTimedOut =>
      cases h
      have hcounted : e.connection.InLine e.connection.timeout.2 :=
        Connection.inLine_of_eq rfl rfl rfl rfl
      exact hcounted.trans (Connection.inLine_shutdown (c := e.connection.timeout.2) wf
        "handshake timed out" (some e.connection.timeout.1))
  | close abort =>
      cases h
      exact Connection.inLine_close wf abort
  | shutdown cause error =>
      cases h
      exact Connection.inLine_shutdown wf cause error
  | settle =>
      cases h
      show e.connection.InLine e.writer.settle.connection
      rcases settle_cases e.writer with heq | ⟨error, heq⟩
      · rw [heq]
        exact .refl e.connection
      · rw [heq]
        exact Connection.inLine_shutdown wf "error writing to the connection" (some error)
  | breakWrites text =>
      cases h
      exact .refl e.connection
  | reply r =>
      obtain ⟨-, rfl⟩ := step_reply h
      exact Connection.inLine_processReply hs r
  | tick now =>
      cases h
      exact Connection.inLine_messages rfl
  | round => exact absurd rfl hround
  | finish => exact absurd rfl hfinish

end Engine

end RespMux
