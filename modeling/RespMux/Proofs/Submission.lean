import RespMux.Proofs.Engine.Collecting
import RespMux.Proofs.Engine.Standing
import RespMux.Proofs.Unpacking

/-!
# Submissions that are refused

A message gets its completer before it is handed in, and handing it in can fail. Whoever submits a
message is given a completion in any case, and none that nobody will ever resolve: it is the
completion of a message that has been taken (`Submits`), or it has its outcome already.

A transaction that is executed hands in a batch. If the connection refuses the batch, its failure
reaches the members, each of which may have got somewhere else in the meantime (`Refuses`): who has
an outcome keeps it, and everybody else gets the refusal.
-/

set_option autoImplicit false

namespace RespMux

/-! ## Outcomes that are there -/

namespace Store

variable {s : Store} {id j : MessageId} {k : CompletionId} {o : Outcome} {d : Completion}

/-- The completion has this outcome, and hands it out. -/
def Has (s : Store) (k : CompletionId) (o : Outcome) : Prop :=
  ∃ d, s.completions[k]? = some d ∧ d.isComplete = true ∧ d.take?.1 = some o

/-- A completion that waits has the outcome that it is given. -/
theorem has_of_deliver (hw : d.Waits) (h : s.completions[k]? = some (d.deliver o)) :
    s.Has k o := by
  refine ⟨_, h, ?_, ?_⟩
  · unfold Completion.isComplete
    rw [Completion.deliver_stage hw]
  · unfold Completion.take?
    rw [Completion.deliver_stage hw]

theorem has_addCompletion (s : Store) (o : Outcome) :
    (s.addCompletion (.ready o)).2.Has s.completions.size o :=
  ⟨.ready o, Array.getElem?_push_size, rfl, rfl⟩

/-- Who has an outcome keeps it, whatever outcomes are given afterwards. -/
theorem Resolves.has {P : Outcome → Prop} {ids : List MessageId} {own : List CompletionId}
    {s' : Store} (r : Resolves P ids own s s') (h : s.Has k o) : s'.Has k o := by
  obtain ⟨d, hd, hcomplete, ho⟩ := h
  refine ⟨d, r.completion_of_not_waits hd fun hw => ?_, hcomplete, ho⟩
  rw [Completion.take?_of_waiting hw.1] at ho
  cases ho

/-- The failure of a message comes to the completion of everything it contains. -/
theorem fail_delivers (wf : s.WellFormed) {sh : Shape} (hj : j ∈ s.scopeOf id)
    (hsink : s.sink j = .assigned ⟨k, sh⟩) (hk : s.completions[k]? = some d) (e : Error) :
    (s.fail id e).completions[k]? = some (d.deliver (.error e)) := by
  have hconsumed : (s.fail id e).sink j = .consumed := by
    unfold fail
    rw [foldl_finish_sink, if_pos hj]
  exact (fail_resolves wf id e).given_of_consumed hk hsink hconsumed

/-- A message that has just got its completer and fails gives the failure to it. -/
theorem fail_attached (wf : s.WellFormed) (hempty : s.sink id = .empty) (shape : Shape)
    (e : Error) :
    ((s.attach id shape).fail id e).phase id = .complete
      ∧ ((s.attach id shape).fail id e).Has s.completions.size (.error e) := by
  have hlt : id < s.messages.size := lt_size_of_sink hempty
  have hwf : (s.attach id shape).WellFormed := wf.congr fun j => s.attach_draft? id j shape
  have hscope : id ∈ (s.attach id shape).scopeOf id := by
    rw [scopeOf_congr (s.attach_draft? id id shape)]
    exact wf.self_mem_scopeOf (Array.getElem?_eq_getElem hlt)
  refine ⟨fail_phase _ id e id hscope, ?_⟩
  exact has_of_deliver ⟨rfl, rfl⟩
    (fail_delivers hwf hscope (attach_sink_self hlt shape) (attach_completion_self s id shape) e)

end Store

/-! ## One message -/

namespace Executor

variable {σ : Type} {x : Executor σ} {s : σ} {id : MessageId}

theorem submit_eq_of_assigned (h : (x.store s).sink id ≠ .empty) (p : Priority) (shape : Shape) :
    x.submit s id p shape
      = some ((x.store s).completions.size,
          x.withStore s ((x.store s).addCompletion (.ready (.error .completionAssigned))).2) := by
  have hassign : ((x.store s).addCompletion {}).2.assign id ⟨(x.store s).completions.size, shape⟩
      = .error .completionAssigned := by
    unfold Store.assign
    split
    · next hempty => exact absurd hempty h
    · rfl
  unfold submit
  dsimp only
  rw [show ((x.store s).addCompletion {}).1 = (x.store s).completions.size from rfl, hassign]
  rfl

theorem submit_eq_of_empty (h : (x.store s).sink id = .empty) (p : Priority) (shape : Shape) :
    x.submit s id p shape =
      match x.enqueue (x.withStore s ((x.store s).attach id shape)) id p with
      | none => none
      | some (.ok s') => some ((x.store s).completions.size, s')
      | some (.error e) =>
          some ((x.store s).completions.size,
            x.withStore s (((x.store s).attach id shape).fail id e)) := by
  have hassign : ((x.store s).addCompletion {}).2.assign id ⟨(x.store s).completions.size, shape⟩
      = .ok (((x.store s).addCompletion {}).2.modify id fun m =>
          { m with sink := .assigned ⟨(x.store s).completions.size, shape⟩ }) := by
    unfold Store.assign
    rw [show ((x.store s).addCompletion {}).2.sink id = .empty from h]
  unfold submit
  dsimp only
  rw [show ((x.store s).addCompletion {}).1 = (x.store s).completions.size from rfl, hassign]
  rfl

/-- A message that the executor does not take fails. -/
theorem submit_of_refused (h : (x.store s).sink id = .empty) {p : Priority} {shape : Shape}
    {e : Error}
    (henq : x.enqueue (x.withStore s ((x.store s).attach id shape)) id p = some (.error e)) :
    x.submit s id p shape
      = some ((x.store s).completions.size,
          x.withStore s (((x.store s).attach id shape).fail id e)) := by
  rw [submit_eq_of_empty h, henq]

/-- What comes of submitting the message `id` to the executor `x` in the state `s`. -/
structure Submits (x : Executor σ) (s : σ) (id : MessageId) (p : Priority) (shape : Shape) :
    Prop where
  /-- a message that has or had a completer is not handed in -/
  assigned : (x.store s).sink id ≠ .empty →
    ∃ k st, x.submit s id p shape = some (k, x.withStore s st)
      ∧ st.messages = (x.store s).messages ∧ st.Has k (.error .completionAssigned)
  /-- any other message is handed in once, and the completer of a new completion is its sink; if
  it is refused, it is complete and the completion has the reason -/
  handedIn : (x.store s).sink id = .empty →
    ∃ k st, st.sink id = .assigned ⟨k, shape⟩ ∧ st.completions[k]? = some { target := some id }
      ∧ (x.store s).completions[k]? = none
      ∧ (∀ j, id ≠ j → st.messages[j]? = (x.store s).messages[j]?)
      ∧ match x.enqueue (x.withStore s st) id p with
        | none => x.submit s id p shape = none
        | some (.ok s') => x.submit s id p shape = some (k, s')
        | some (.error e) => ∃ failed, x.submit s id p shape = some (k, x.withStore s failed)
            ∧ failed.phase id = .complete ∧ failed.Has k (.error e)

theorem submits (wf : (x.store s).WellFormed) (p : Priority) (shape : Shape) :
    x.Submits s id p shape where
  assigned h := ⟨_, _, submit_eq_of_assigned h p shape, rfl, Store.has_addCompletion _ _⟩
  handedIn h := by
    have hlt : id < (x.store s).messages.size := Store.lt_size_of_sink h
    refine ⟨_, _, Store.attach_sink_self hlt shape, Store.attach_completion_self _ id shape,
      Array.getElem?_eq_none (Nat.le_refl _), fun j hj => Store.attach_messages_ne hj shape, ?_⟩
    have hsubmit := submit_eq_of_empty h p shape
    split
    · next henq => rw [hsubmit, henq]
    · next s' henq => rw [hsubmit, henq]
    · next e henq =>
      obtain ⟨hphase, hhas⟩ := Store.fail_attached wf h shape e
      rw [hsubmit, henq]
      exact ⟨_, rfl, hphase, hhas⟩

end Executor

/-! ## One transaction -/

namespace Connection

variable {c c' : Connection} {owned accepted : List MessageId} {t : Nat} {k : CompletionId}

/-- The failure of a message comes to everybody who waits for something that it contains. -/
theorem Sound.fail_reaches (hs : c.Sound owned accepted) {b id : MessageId} {d : Completion}
    (hid : id ∈ c.store.scopeOf b) (hsingle : c.store.IsSingle id)
    (hk : c.store.completions[k]? = some d) (ht : d.target = some id) (hw : d.Waits) (e : Error) :
    (c.store.fail b e).Has k (.error e) := by
  obtain ⟨j, sh, hj, hsink | ⟨ms, -, hb, -⟩⟩ := hs.custody.completers.waits k d hk hw
  · obtain rfl : j = id := Option.some.inj (hj.symm.trans ht)
    exact Store.has_of_deliver hw (Store.fail_delivers hs.custody.wellFormed hid hsink hk e)
  · obtain rfl : j = id := Option.some.inj (hj.symm.trans ht)
    exact absurd hb (hsingle.not_isBatch ms)

/-- Executing the transaction `t` returns the completion `k`, and the connection refuses the
batch. -/
structure Refuses (c : Connection) (t : Nat) (k : CompletionId) (c' : Connection) : Prop where
  batch : c'.store.Has k (.error .queueClosed)
  /-- so does everybody who holds the completion of a member that has not been cancelled -/
  uncancelled : ∀ id ∈ (c.collected t).toList, c.store.phase id = .notSent →
    ∀ (j : CompletionId) d, c.store.completions[j]? = some d → d.target = some id →
      d.isOpen = true → c'.store.Has j (.error .queueClosed)
  /-- and whoever waits for a member, whatever has become of it -/
  waiting : ∀ id ∈ (c.collected t).toList, ∀ (j : CompletionId) d,
    c.store.completions[j]? = some d → d.target = some id → d.Waits →
      c'.store.Has j (.error .queueClosed)
  cancelled : ∀ id ∈ (c.collected t).toList, c.store.CalledOff id → c'.store.CalledOff id
  /-- an outcome that is there stays, the cancellation as any other -/
  kept : ∀ j o, c.store.Has j o → c'.store.Has j o
  /-- nothing is left to be done for the members or for the batch -/
  complete : ∀ id ∈ c.store.messages.size :: (c.collected t).toList, c'.store.phase id = .complete
  isBatch : c'.store.IsBatch c.store.messages.size (c.collected t).toList
  emptied : (c'.collected t).toList = []
  queue : c'.queue = c.queue
  ledger : c'.ledger = c.ledger

/-- A transaction that has collected something exists. -/
theorem lt_size_of_collected (h : (c.collected t).toList ≠ []) : t < c.transactions.size := by
  refine Nat.lt_of_not_le fun hge => h ?_
  unfold collected
  rw [Array.getElem?_eq_none hge]
  rfl

theorem execute_eq_of_closed (hne : (c.collected t).toList ≠ []) (hclosed : c.queue.isClosed = true)
    (p : Priority) :
    c.executeTransaction t p
      = some (c.store.completions.size,
          { c.handedOn t with
            store := (c.handedOn t).store.fail c.store.messages.size .queueClosed }) := by
  have hempty : (c.store.batch (c.collected t).toList).2.sink c.store.messages.size = .empty :=
    c.store.add_sink_self _
  have hrefused : sender.enqueue (c.handedOn t) c.store.messages.size p
      = some (.error .queueClosed) := enqueue_of_closed (c := c.handedOn t) hclosed _ p
  have hsome : ¬ (c.collected t).drain.1.isEmpty = true := fun hnil =>
    hne (List.isEmpty_iff.mp hnil)
  unfold executeTransaction
  dsimp only
  rw [if_neg hsome]
  exact Executor.submit_of_refused hempty hrefused

/-- The connection refuses the batch once its queue is closed. -/
theorem refuses {stray : MessageId → Prop} (hs : c.Sound owned accepted)
    (hf : c.Fated stray owned) (hne : (c.collected t).toList ≠ [])
    (hclosed : c.queue.isClosed = true) (p : Priority) :
    ∃ k c', c.executeTransaction t p = some (k, c') ∧ c.Refuses t k c' := by
  have hexecute := execute_eq_of_closed hne hclosed p
  have hhanded : (c.handedOn t).Sound owned accepted := (keeps_handedOn hs t hs).1
  have wf := hhanded.custody.wellFormed
  have hisBatch := c.handedOn_isBatch t
  have hresolves := Store.fail_resolves wf c.store.messages.size .queueClosed
  -- the failure of the batch reaches the members and then the batch
  have hscope : (c.handedOn t).store.scopeOf c.store.messages.size
      = (c.collected t).toList ++ [c.store.messages.size] := wf.scopeOf_batch hisBatch
  have hmember : ∀ id ∈ (c.collected t).toList,
      id ∈ (c.handedOn t).store.scopeOf c.store.messages.size := fun id hid => by
    rw [hscope]
    exact List.mem_append_left _ hid
  have hself : c.store.messages.size ∈ (c.handedOn t).store.scopeOf c.store.messages.size := by
    rw [hscope]
    exact List.mem_append_right _ (List.mem_singleton_self _)
  -- the completions that were there are not touched before that
  have hold : ∀ (j : CompletionId) d, c.store.completions[j]? = some d →
      (c.handedOn t).store.completions[j]? = some d := fun j d hj =>
    Store.attach_completion_of_some hj
  have hwaiting : ∀ id ∈ (c.collected t).toList, ∀ (j : CompletionId) d,
      c.store.completions[j]? = some d → d.target = some id → d.Waits →
        ((c.handedOn t).store.fail c.store.messages.size .queueClosed).Has j
          (.error .queueClosed) := by
    intro id hid j d hj ht hw
    exact hhanded.fail_reaches (hmember id hid)
      (hhanded.custody.kinds.owned_single id (hs.collected t id hid)) (hold j d hj) ht hw _
  refine ⟨_, _, hexecute, ?_⟩
  constructor
  case batch =>
    have hlt : c.store.messages.size < (c.store.batch (c.collected t).toList).2.messages.size := by
      show _ < (c.store.messages.push _).size
      rw [Array.size_push]
      exact Nat.lt_succ_self _
    exact Store.has_of_deliver ⟨rfl, rfl⟩ (Store.fail_delivers wf hself
      (Store.attach_sink_self hlt .unit) (Store.attach_completion_self _ _ .unit) _)
  case uncancelled =>
    intro id hid hphase j d hj ht hopen
    exact hwaiting id hid j d hj ht ⟨hf.fates.waiting j d id hj ht hphase, hopen⟩
  case waiting => exact hwaiting
  case cancelled =>
    intro id hid hoff
    exact (spares_execute hexecute hs hf).2 id
      (hs.custody.kinds.owned_single id (hs.collected t id hid)) hoff
  case kept =>
    rintro j o ⟨d, hj, hcomplete, ho⟩
    exact hresolves.has ⟨d, hold j d hj, hcomplete, ho⟩
  case complete =>
    intro id hid
    refine Store.fail_phase _ _ _ id ?_
    rcases List.mem_cons.mp hid with rfl | hid
    · exact hself
    · exact hmember id hid
  case isBatch => exact hresolves.isBatch.mpr hisBatch
  case emptied =>
    exact congrArg PriorityQueue.toList
      (collected_setCollected_self (lt_size_of_collected hne) _)
  case queue => rfl
  case ledger => rfl

end Connection

/-! ## Every submission -/

/-- No submission leaves anybody with a completion that will not be resolved, neither of a message
to any executor nor of a transaction to a connection that has refused its batch. -/
theorem submissions_resolved :
    (∀ {σ : Type} (x : Executor σ) (s : σ), (x.store s).WellFormed →
        ∀ id p shape, x.Submits s id p shape)
      ∧ ∀ config evs e, (Engine.new config).run evs = some e →
          ∀ t p, (e.connection.collected t).toList ≠ [] → e.connection.queue.isClosed = true →
            ∃ k c', e.connection.executeTransaction t p = some (k, c')
              ∧ e.connection.Refuses t k c' := by
  constructor
  · intro σ x s wf id p shape
    exact Executor.submits wf p shape
  · intro config evs e hrun t p hne hclosed
    have hkept := Engine.run_new_kept hrun
    exact Connection.refuses hkept.sound hkept.fated hne hclosed p

/-- Two commands are in a transaction, one of them cancelled, and the connection is closed. A third
command has not been submitted. -/
def closedTransaction : List Event :=
  [.newTransaction, .make { command := .get, args := [.text "k"] },
   .submit (.transaction 0) 0 .standard .text, .make { command := .incr, args := [.text "n"] },
   .submit (.transaction 0) 1 .standard .integer, .cancelThrough 0,
   .make { command := .get, args := [.text "k"] }, .close false]

/-- The engine after it. -/
def closedEngine : Engine := ((Engine.new {}).run closedTransaction).get (by decide)

theorem submissions_resolved_closedTransaction :
    (∃ k c', closedEngine.connection.executeTransaction 0 .high = some (k, c')
        ∧ c'.store.Has k (.error .queueClosed) ∧ c'.store.Has 0 (.error .cancelled)
        ∧ c'.store.Has 1 (.error .queueClosed))
      ∧ ∃ k r, Recorder.executor.submit ⟨closedEngine.store, [], some .queueClosed⟩ 2 .high .text
          = some (k, r)
        ∧ r.store.phase 2 = .complete ∧ r.store.Has k (.error .queueClosed) := by
  have hrun : (Engine.new {}).run closedTransaction = some closedEngine :=
    (Option.some_get _).symm
  constructor
  · obtain ⟨k, c', hexecute, hrefuses⟩ :=
      submissions_resolved.2 {} closedTransaction closedEngine hrun 0 .high (by decide) (by decide)
    exact ⟨k, c', hexecute, hrefuses.batch, hrefuses.kept 0 _ ⟨_, rfl, rfl, rfl⟩,
      hrefuses.uncancelled 1 (by decide) (by decide) 1 _ rfl rfl rfl⟩
  · have wf : closedEngine.store.WellFormed := (Engine.run_new_sound hrun).custody.wellFormed
    obtain ⟨k, st, -, -, -, -, failed, hsubmit, hphase, hhas⟩ :=
      (submissions_resolved.1 Recorder.executor ⟨closedEngine.store, [], some .queueClosed⟩ wf 2
        .high .text).handedIn (by decide)
    exact ⟨k, _, hsubmit, hphase, hhas⟩

end RespMux
