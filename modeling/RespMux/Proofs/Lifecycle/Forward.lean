import RespMux.Proofs.Connection.Changes
import RespMux.Proofs.Connection.Results

/-!
# Where the lifecycle goes by itself

A connection goes through its lifecycle in one direction (`Lifecycle.rank`). Most steps leave it
where it is. What callers and the pumps do can end it: a shutdown closes it for good, and the
outgoing pump begins to close it when it says good-bye. Only opening and closing a connection do
more (`Event.steersLifecycle`), and those are not of concern here. `Drifts` says so of two states,
and every other step satisfies it (`step_drifts`).
-/

set_option autoImplicit false

namespace RespMux

/-- How far a connection has come in its life. -/
def Lifecycle.rank : Lifecycle → Nat
  | fresh => 0
  | opening => 1
  | established => 2
  | closing => 3
  | closed => 4

theorem Lifecycle.rank_injective {s s' : Lifecycle} (h : s.rank = s'.rank) : s = s' := by
  cases s <;> cases s' <;> first | rfl | cases h

theorem Lifecycle.rank_le (s : Lifecycle) : s.rank ≤ closed.rank := by
  cases s <;> decide

namespace Connection

/-- Between `c` and `c'` nobody has opened the connection. It may have begun to close or may have
been torn down, and nobody has changed his mind about aborting it. -/
structure Drifts (c c' : Connection) : Prop where
  aborting : c.aborting = true → c'.aborting = true
  state : c'.state = c.state ∨ c'.state = .closed
    ∨ (c'.state = .closing ∧ (c.state = .opening ∨ c.state = .established))
  down : c'.isShutDown = true → c.isShutDown = true ∨ c'.state = .closed

variable {c c₁ c' : Connection}

theorem Drifts.of_eq (hstate : c'.state = c.state) (haborting : c'.aborting = c.aborting)
    (hdown : c'.isShutDown = c.isShutDown) : Drifts c c' where
  aborting ha := haborting.trans ha
  state := Or.inl hstate
  down hd := Or.inl (hdown.symm.trans hd)

theorem Drifts.refl (c : Connection) : Drifts c c := .of_eq rfl rfl rfl

theorem Drifts.closed (h : Drifts c c') (hc : c.state = .closed) : c'.state = .closed := by
  rcases h.state with hsame | hclosed | ⟨-, hopen | hopen⟩
  · exact hsame.trans hc
  · exact hclosed
  · cases hc.symm.trans hopen
  · cases hc.symm.trans hopen

theorem Drifts.trans (h : Drifts c c₁) (h' : Drifts c₁ c') : Drifts c c' where
  aborting ha := h'.aborting (h.aborting ha)
  state := by
    rcases h'.state with hsame' | hclosed' | ⟨hclosing', hopen'⟩
    · rw [hsame']
      exact h.state
    · exact Or.inr (Or.inl hclosed')
    · -- what could still begin to close could do so before
      rcases h.state with hsame | hclosed | ⟨hclosing, -⟩
      · exact Or.inr (Or.inr ⟨hclosing', hsame ▸ hopen'⟩)
      · exact Or.inr (Or.inl (h'.closed hclosed))
      · rcases hopen' with hopen' | hopen'
        · cases hclosing.symm.trans hopen'
        · cases hclosing.symm.trans hopen'
  down hd := by
    rcases h'.down hd with hd₁ | hclosed
    · exact (h.down hd₁).imp_right h'.closed
    · exact Or.inr hclosed

/-- The lifecycle goes forward. -/
theorem Drifts.rank_le (h : Drifts c c') : c.state.rank ≤ c'.state.rank := by
  rcases h.state with hsame | hclosed | ⟨hclosing, hopen | hopen⟩
  · exact Nat.le_of_eq (congrArg Lifecycle.rank hsame.symm)
  · rw [hclosed]
    exact c.state.rank_le
  · rw [hclosing, hopen]
    decide
  · rw [hclosing, hopen]
    decide

/-- Nobody has opened the connection in between. -/
theorem Drifts.established (h : Drifts c c') (hstate : c'.state = .established) :
    c.state = .established := by
  rcases h.state with hsame | hclosed | ⟨hclosing, -⟩
  · exact hsame.symm.trans hstate
  · cases hclosed.symm.trans hstate
  · cases hclosing.symm.trans hstate

/-! ## The operations -/

theorem drifts_shutdown (c : Connection) (cause : String) (error : Option Error) :
    Drifts c (c.shutdown cause error) := by
  cases h : c.isShutDown with
  | true =>
      rw [shutdown_of_down h]
      exact .refl c
  | false =>
      obtain ⟨events, heq⟩ := shutdown_eq h cause error
      rw [heq]
      exact ⟨fun _ => rfl, Or.inr (Or.inl rfl), fun _ => Or.inr rfl⟩

theorem drifts_abort (c : Connection) : Drifts c { c with aborting := true } where
  aborting _ := rfl
  state := Or.inl rfl
  down := Or.inl

theorem drifts_closed (c : Connection) : Drifts c { c with state := .closed } where
  aborting := id
  state := Or.inr (Or.inl rfl)
  down _ := Or.inr rfl

theorem drifts_closing (c : Connection) :
    Drifts c (c.transition [.opening, .established] .closing).2 := by
  unfold transition
  split
  · next horigin =>
    refine ⟨fun ha => ha, Or.inr (Or.inr ⟨rfl, ?_⟩), fun hd => Or.inl hd⟩
    rcases List.mem_cons.mp (List.contains_iff_mem.mp horigin) with hopening | hmem
    · exact Or.inl hopening
    · exact Or.inr (List.mem_singleton.mp hmem)
  · exact .refl c

theorem drifts_executor {target : Target} {id : MessageId} {priority : Priority}
    (h : (executor target).enqueue c id priority = some (.ok c')) : Drifts c c' := by
  cases target with
  | connection =>
      change c.enqueue id priority = some (.ok c') at h
      unfold enqueue at h
      split at h
      · cases h
        exact .of_eq rfl rfl rfl
      · cases h
      · cases h
  | transaction t =>
      simp only [executor, collector] at h
      split at h
      · cases h
        exact .of_eq rfl rfl rfl
      · cases h
      · cases h

theorem drifts_submit {target : Target} {id : MessageId} {priority : Priority} {shape : Shape}
    {k : CompletionId} (h : (executor target).submit c id priority shape = some (k, c')) :
    Drifts c c' := by
  have hattach : Drifts c { c with store := c.store.attach id shape } := .of_eq rfl rfl rfl
  rcases submit_cases h with ⟨-, e, rfl⟩ | ⟨-, hok | ⟨e, -, rfl⟩⟩
  · exact .of_eq rfl rfl rfl
  · exact hattach.trans (drifts_executor hok)
  · exact .of_eq rfl rfl rfl

theorem drifts_execute {t : Nat} {priority : Priority} {k : CompletionId}
    (h : c.executeTransaction t priority = some (k, c')) : Drifts c c' := by
  have hmade : Drifts c (c.handedOn t) := .of_eq rfl rfl rfl
  rcases execute_cases h with ⟨-, rfl⟩ | ⟨-, hok | ⟨e, -, rfl⟩⟩
  · exact .of_eq rfl rfl rfl
  · have htaken : Drifts (c.handedOn t) c' := @drifts_executor _ _ .connection _ _ hok
    exact hmade.trans htaken
  · exact .of_eq rfl rfl rfl

/-- A reply to a block may tear the connection down. -/
theorem drifts_answerBlock (c : Connection) (b : Block) (r : Reply) :
    Drifts c (c.answerBlock b r) := by
  cases hres : b.results? r with
  | error e =>
      unfold answerBlock
      rw [hres]
      exact .of_eq rfl rfl rfl
  | ok rs =>
      obtain ⟨n, events, heq⟩ := c.answerBlock_eq hres
      have hanswered : Drifts c
          { c with store := c.store.answerBlock b rs, counters := n, events := events } :=
        .of_eq rfl rfl rfl
      rw [heq]
      split
      · exact hanswered.trans (drifts_shutdown _ _ _)
      · exact hanswered

theorem drifts_processReply (c : Connection) (r : Reply) : Drifts c (c.processReply r).2 := by
  cases h : c.ledger.entries with
  | nil =>
      rw [processReply_nil h]
      exact .refl c
  | cons f fs =>
      have hpopped : Drifts c (c.popped fs) := .of_eq rfl rfl rfl
      cases f with
      | message id =>
          obtain ⟨n, events, heq⟩ := (c.popped fs).answer_eq id r
          rw [processReply_cons h]
          show Drifts c (answer _ id r).2
          rw [heq]
          exact .of_eq rfl rfl rfl
      | exec b =>
          obtain ⟨n, events, heq⟩ := processReply_exec (r := r) h
          have hanswered := drifts_answerBlock (c.popped fs) b r
          rw [heq]
          exact (hpopped.trans hanswered).trans (.of_eq rfl rfl rfl)

end Connection

/-- The step opens or closes the connection. -/
def Event.steersLifecycle : Event → Bool
  | beginOpening => true
  | connectFailed _ => true
  | finishOpening _ => true
  | openingTimedOut => true
  | close _ => true
  | _ => false

namespace Engine

variable {accepted : List MessageId} {e e' : Engine} {ev : Event}

theorem drifts_settle (w : Writer) : w.connection.Drifts w.settle.connection := by
  rcases settle_cases w with heq | ⟨error, heq⟩
  · rw [heq]
    exact .refl _
  · rw [heq]
    exact w.connection.drifts_shutdown "error writing to the connection" (some error)

theorem drifts_round (hs : e.Sound accepted) (h : e.step .round = some e') :
    e.connection.Drifts e'.connection := by
  obtain ⟨id, overtook, q, wakes, hnext, hfault, rfl⟩ := step_round h
  have hready := withQueue_ready hs hfault (hs.next_open hnext) q
  show e.connection.Drifts ((e.withQueue q).handle id overtook).connection
  cases ha : (e.withQueue q).connection.aborting with
  | true =>
      rw [Writer.handle_aborting ha]
      exact .of_eq rfl rfl rfl
  | false =>
      by_cases hp : (e.withQueue q).connection.store.phase id = .notSent
      · obtain ⟨w, s', fs, sel, -, ⟨n, rfl⟩, heq⟩ := Writer.handle_picked hready ha hp overtook
        rw [heq, Writer.flush_connection]
        exact .of_eq rfl rfl rfl
      · rw [Writer.handle_skipped ha hp]
        exact .of_eq rfl rfl rfl

theorem drifts_finish (hs : e.Sound accepted) (h : e.step .finish = some e') :
    e.connection.Drifts e'.connection := by
  obtain ⟨hfault, rfl⟩ := step_finish h
  show e.connection.Drifts e.writer.finish.connection
  cases ha : e.connection.aborting with
  | true =>
      rw [finish_aborting hfault ha]
      exact e.connection.drifts_shutdown "connection aborted" none
  | false =>
      obtain ⟨w, ⟨n, rfl⟩, heq, -⟩ := finish_emits hs hfault ha
      have hclosing : e.connection.Drifts e.closing.connection := e.connection.drifts_closing
      have hemitted : e.closing.connection.Drifts (e.closing.after (e.store.issue .quit)
          e.writer.selected [.message e.store.messages.size] n).connection := .of_eq rfl rfl rfl
      have hsettled := drifts_settle (e.closing.after (e.store.issue .quit) e.writer.selected
        [.message e.store.messages.size] n).flush
      rw [heq]
      rw [Writer.flush_connection] at hsettled
      exact (hclosing.trans hemitted).trans hsettled

/-- Whoever neither opens nor closes the connection lets it drift. -/
theorem step_drifts (hs : e.Sound accepted) (hev : ev.steersLifecycle = false)
    (h : e.step ev = some e') : e.connection.Drifts e'.connection := by
  have hsame : ∀ s : Store, e.connection.Drifts { e.connection with store := s } :=
    fun _ => .of_eq rfl rfl rfl
  cases ev with
  | make r =>
      cases h
      exact hsame _
  | attach id shape =>
      obtain ⟨-, -, rfl⟩ := step_attach_inv h
      exact hsame _
  | put target id priority =>
      obtain ⟨-, ⟨c, henq, rfl⟩ | ⟨-, rfl⟩⟩ := step_put_inv h
      · exact Connection.drifts_executor henq
      · exact .refl _
  | submit target id priority shape =>
      obtain ⟨-, k, c, hsubmit, rfl⟩ := step_submit_inv h
      exact Connection.drifts_submit hsubmit
  | fail id error =>
      obtain ⟨-, rfl⟩ := step_fail_inv h
      exact hsame _
  | cancel id =>
      obtain ⟨-, rfl⟩ := step_cancel_inv h
      exact hsame _
  | cancelThrough k =>
      cases h
      exact hsame _
  | look k l =>
      cases h
      exact hsame _
  | timeOut =>
      cases h
      exact .of_eq rfl rfl rfl
  | newTransaction =>
      cases h
      exact .of_eq rfl rfl rfl
  | execute t priority =>
      obtain ⟨k, c, hexecute, rfl⟩ := step_execute_inv h
      exact Connection.drifts_execute hexecute
  | discard t =>
      cases h
      exact .of_eq rfl rfl rfl
  | shutdown cause error =>
      cases h
      exact e.connection.drifts_shutdown cause error
  | settle =>
      cases h
      exact drifts_settle e.writer
  | breakWrites text =>
      cases h
      exact .refl _
  | tick now =>
      cases h
      exact hsame _
  | round => exact drifts_round hs h
  | finish => exact drifts_finish hs h
  | reply r =>
      obtain ⟨-, rfl⟩ := step_reply h
      exact e.connection.drifts_processReply r
  | beginOpening => cases hev
  | connectFailed error => cases hev
  | finishOpening ping => cases hev
  | openingTimedOut => cases hev
  | close abort => cases hev

end Engine

end RespMux
