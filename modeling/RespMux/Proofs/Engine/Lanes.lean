import RespMux.Proofs.Lifecycle.Reserved
import RespMux.Proofs.Shutdown

/-!
# What is queued

Between two rounds of the outgoing pump the queue changes in two ways only: a message is put in, or
the connection is torn down and the queue emptied (`step_requeues`). A closed queue takes nothing,
and nobody opens it again, so from then on it only gets shorter.

A batch is put in once, when its transaction is executed. So a batch that is queued has not been
written, and whoever waits for it waits for its own completer (`Sound.batch_sink`).
-/

set_option autoImplicit false

namespace RespMux

namespace Connection

/-- What has become of the queue of `c` without a round of the pump. -/
inductive Requeues (owned : List MessageId) (c c' : Connection) : Prop where
  | same (h : c'.queue.toList = c.queue.toList)
  | puts {id : MessageId} {p : Priority} {wakes : Bool}
      (h : c.queue.enqueue id p = .done (.ok ()) c'.queue wakes)
      (hid : id ∈ owned ∨ id = c.store.messages.size ∧ c'.store.phase id ≠ .sent)
  | drained (h : c'.isShutDown = true)

variable {owned : List MessageId} {c c' : Connection}

theorem enqueue_queue {id : MessageId} {p : Priority} (h : c.enqueue id p = some (.ok c')) :
    ∃ wakes, c.queue.enqueue id p = .done (.ok ()) c'.queue wakes := by
  unfold enqueue at h
  split at h
  · next q wakes hq =>
    cases h
    exact ⟨wakes, hq⟩
  · cases h
  · cases h

theorem executor_queue {target : Target} {id : MessageId} {p : Priority}
    (h : (executor target).enqueue c id p = some (.ok c')) :
    c'.queue.toList = c.queue.toList
      ∨ ∃ wakes, c.queue.enqueue id p = .done (.ok ()) c'.queue wakes := by
  cases target with
  | connection => exact .inr (enqueue_queue h)
  | transaction t =>
      simp only [executor, collector] at h
      split at h
      · cases h
        exact .inl rfl
      · cases h
      · cases h

theorem requeues_executor {target : Target} {id : MessageId} {p : Priority}
    (h : (executor target).enqueue c id p = some (.ok c')) (hid : id ∈ owned) :
    Requeues owned c c' := by
  rcases executor_queue h with hsame | ⟨wakes, hq⟩
  · exact .same hsame
  · exact .puts hq (.inl hid)

theorem requeues_submit {target : Target} {id : MessageId} {p : Priority} {shape : Shape}
    {k : CompletionId} (h : (executor target).submit c id p shape = some (k, c'))
    (hid : id ∈ owned) : Requeues owned c c' := by
  rcases submit_cases h with ⟨-, e, rfl⟩ | ⟨-, hok | ⟨e, -, rfl⟩⟩
  · exact .same rfl
  · rcases executor_queue hok with hsame | ⟨wakes, hq⟩
    · exact .same hsame
    · exact .puts hq (.inl hid)
  · exact .same rfl

/-- A batch that has just been made has not been picked up. -/
theorem handedOn_phase (c : Connection) (t : Nat) :
    (c.handedOn t).store.phase c.store.messages.size = .notSent := by
  show ((c.store.batch (c.collected t).toList).2.attach c.store.messages.size .unit).phase _ = _
  rw [Store.attach_phase]
  exact c.store.add_phase_self _

theorem requeues_execute {t : Nat} {p : Priority} {k : CompletionId}
    (h : c.executeTransaction t p = some (k, c')) : Requeues owned c c' := by
  rcases execute_cases h with ⟨-, rfl⟩ | ⟨-, hok | ⟨e, -, rfl⟩⟩
  · exact .same rfl
  · obtain ⟨wakes, hq⟩ := enqueue_queue hok
    refine .puts hq (.inr ⟨rfl, ?_⟩)
    rw [enqueue_store hok, handedOn_phase]
    exact Phase.noConfusion
  · exact .same rfl

theorem requeues_obey (h : c'.queue.toList = c.queue.toList) (call : Option ShutdownCall) :
    Requeues owned c (c'.obey call) := by
  cases call with
  | none => exact .same h
  | some call => exact .drained (c'.shutdown_down call.1 call.2)

/-- Into a closed queue nothing is put. -/
theorem Requeues.closed (h : Requeues owned c c') (hclosed : c.queue.isClosed = true) :
    c'.queue.toList = c.queue.toList ∨ c'.isShutDown = true := by
  cases h with
  | same hsame => exact .inl hsame
  | puts hq _ => cases (PriorityQueue.enqueue_ok hq).1.symm.trans hclosed
  | drained hdown => exact .inr hdown

/-- Changes keep what is in flight, unless the connection is torn down. -/
theorem Changes.continues {accepted gain : List MessageId} {lost : MessageId → Prop}
    (h : Changes owned accepted lost c gain c') (hs : c.Sound owned accepted) :
    Continues c c' := by
  induction h with
  | refl => exact .refl c
  | step h hkeeps _ ih =>
      have hs₁ := (h.preserves (Q := fun _ => True) (fun _ _ _ _ _ _ => trivial) hs trivial).1
      exact ih.trans (hkeeps hs₁).2

end Connection

namespace Engine

variable {accepted : List MessageId} {stray : MessageId → Prop} {e e' : Engine} {ev : Event}
variable {evs : List Event}

/-- Only a round takes something out of the queue of a connection that goes on. -/
theorem step_requeues (hs : e.Sound accepted) (hround : ev ≠ .round) (h : e.step ev = some e') :
    e.connection.Requeues e.owned e'.connection := by
  cases hev : ev.isWork with
  | false =>
      obtain ⟨c, -, hqueue, heq⟩ := step_at_call hs hev h
      rw [heq]
      exact Connection.requeues_obey hqueue _
  | true =>
      cases ev with
      | make r =>
          cases h
          exact .same rfl
      | attach id shape =>
          obtain ⟨-, -, rfl⟩ := step_attach_inv h
          exact .same rfl
      | put target id priority =>
          obtain ⟨hid, ⟨c, henq, rfl⟩ | ⟨-, rfl⟩⟩ := step_put_inv h
          · exact Connection.requeues_executor henq hid
          · exact .same rfl
      | submit target id priority shape =>
          obtain ⟨hid, k, c, hsubmit, rfl⟩ := step_submit_inv h
          exact Connection.requeues_submit hsubmit hid
      | fail id error =>
          obtain ⟨-, rfl⟩ := step_fail_inv h
          exact .same rfl
      | cancel id =>
          obtain ⟨-, rfl⟩ := step_cancel_inv h
          exact .same rfl
      | execute t priority =>
          obtain ⟨k, c, hexecute, rfl⟩ := step_execute_inv h
          exact Connection.requeues_execute hexecute
      | round => exact absurd rfl hround
      | cancelThrough k =>
          cases h
          exact .same rfl
      | look k l =>
          cases h
          exact .same rfl
      | timeOut =>
          cases h
          exact .same rfl
      | newTransaction =>
          cases h
          exact .same rfl
      | discard t =>
          cases h
          exact .same rfl
      | breakWrites text =>
          cases h
          exact .same rfl
      | tick now =>
          cases h
          exact .same rfl
      | _ => cases hev

/-! ## What has been stopped -/

theorem step_closed (hs : e.Sound accepted) (h : e.step ev = some e')
    (hclosed : e.connection.queue.isClosed = true) : e'.connection.queue.isClosed = true := by
  obtain ⟨c, hc, heq⟩ := step_calls hs h
  rw [heq]
  cases e.shutdownCall? ev with
  | none => exact hc.closed hclosed
  | some call =>
      cases hd : c.isShutDown with
      | true =>
          show (c.shutdown call.1 call.2).queue.isClosed = true
          rw [Connection.shutdown_of_down hd]
          exact hc.closed hclosed
      | false => exact (Connection.shutdown_over hd call.1 call.2).queue.1

theorem step_aborting (hs : e.Sound accepted) (h : e.step ev = some e')
    (ha : e.connection.aborting = true) : e'.connection.aborting = true := by
  obtain ⟨c, hc, heq⟩ := step_calls hs h
  rw [heq]
  cases e.shutdownCall? ev with
  | none => exact hc.aborting ha
  | some call =>
      cases hd : c.isShutDown with
      | true =>
          show (c.shutdown call.1 call.2).aborting = true
          rw [Connection.shutdown_of_down hd]
          exact hc.aborting ha
      | false => exact (Connection.shutdown_over hd call.1 call.2).aborting

theorem run_closed (hs : e.Sound accepted) (h : e.run evs = some e')
    (hclosed : e.connection.queue.isClosed = true) : e'.connection.queue.isClosed = true :=
  run_induction_sound hs (fun _ _ _ hs hc h => step_closed hs h hc) h hclosed

theorem run_aborting (hs : e.Sound accepted) (h : e.run evs = some e')
    (ha : e.connection.aborting = true) : e'.connection.aborting = true :=
  run_induction_sound hs (fun _ _ _ hs ha h => step_aborting hs h ha) h ha

/-- What has not been stopped has not been stopped before. -/
theorem step_running (hs : e.Sound accepted) (h : e.step ev = some e')
    (ha : e'.connection.aborting = false) : e.connection.aborting = false :=
  Bool.eq_false_iff.mpr fun htrue => by cases (step_aborting hs h htrue).symm.trans ha

theorem run_running (hs : e.Sound accepted) (h : e.run evs = some e')
    (ha : e'.connection.aborting = false) : e.connection.aborting = false :=
  Bool.eq_false_iff.mpr fun htrue => by cases (run_aborting hs h htrue).symm.trans ha

/-! ## Batches are queued once -/

/-- A queued batch is queued once, has not been picked up, and no block in flight has been made of
it. -/
structure Lined (e : Engine) : Prop where
  once : ∀ b ∈ e.connection.queue.toList, ∀ ms, e.store.IsBatch b ms →
    e.connection.queue.toList.count b ≤ 1
  unsent : ∀ b ∈ e.connection.queue.toList, ∀ ms, e.store.IsBatch b ms → e.store.phase b ≠ .sent
  unwritten : ∀ b ∈ e.connection.queue.toList, ∀ blk, .exec blk ∈ e.connection.ledger.entries →
    ∀ k ∈ InFlight.own (.exec blk), ∀ d, e.store.completions[k]? = some d → d.target ≠ some b

/-- What is queued exists, and is of the same kind later. -/
theorem Sound.queued_batch (hs : e.Sound accepted) (hg : e.store.Grows e'.store) {b : MessageId}
    {ms : List MessageId} (hb : b ∈ e.connection.queue.toList) (hbatch : e'.store.IsBatch b ms) :
    ∃ ms', e.store.IsBatch b ms' := by
  rcases hs.custody.kinds.queued_kind b hb with howned | hsome
  · exact absurd hbatch ((hg.isSingle (hs.custody.kinds.owned_single b howned)).not_isBatch ms)
  · exact hsome

/-- Without a round, nothing is picked up. -/
theorem step_phase (hs : e.Sound accepted) (hround : ev ≠ .round) (h : e.step ev = some e')
    {j : MessageId} (hj : j < e.store.messages.size) :
    e'.store.phase j = e.store.phase j ∨ e'.store.phase j = .complete := by
  by_cases hfinish : ev = .finish
  · subst hfinish
    obtain ⟨hf, rfl⟩ := step_finish h
    exact (finish_frames hs hf).1 j hj
  · exact (step_inLine hs hround hfinish h).phase j hj

/-- And in a round, no batch but the one that is taken out of the queue. -/
theorem round_phase (hs : e.Sound accepted) (h : e.step .round = some e') {b : MessageId}
    {ms : List MessageId} (hbatch : e.store.IsBatch b ms)
    (hrest : b ∉ e.connection.queue.toList.head?) :
    e'.store.phase b = e.store.phase b ∨ e'.store.phase b = .complete := by
  obtain ⟨id, overtook, q, wakes, hnext, -, -, hhandles⟩ := round_handles hs h
  cases hhandles with
  | left hid hphase hsize hwritten hbuffer => exact hphase b
  | wrote hid hdispatch htape =>
      rcases hdispatch.picked_phase hbatch.lt_size with hsame | ⟨hn, hsent⟩
      · exact .inl hsame
      · have hne : id ≠ b := by
          rintro rfl
          refine hrest ?_
          rw [PriorityQueue.next?_toList hnext]
          rfl
        have hlt : b < (e.store.markSent id).2.messages.size := by
          rw [Store.markSent_size]
          exact hbatch.lt_size
        have hn₁ : (e.store.markSent id).2.phase b = .notSent :=
          (Store.phase_congr (Store.markSent_messages_ne hne)).trans hn
        -- the members of a batch are messages of callers
        obtain ⟨ms', hbatch', hmem⟩ := hdispatch.mem_of_picked hlt hn₁ (by rw [hsent]; decide)
        have howned :=
          hs.custody.kinds.members_owned id ms' (Store.markSent_batches.mp hbatch') b hmem
        exact absurd hbatch ((hs.custody.kinds.owned_single b howned).not_isBatch ms)

/-- The completer of a block gives its outcome to those who wait for a batch. -/
theorem Sound.own_target (hs : e.Sound accepted) {blk : Block}
    (hblk : .exec blk ∈ e.connection.ledger.entries) {k : CompletionId}
    (hk : k ∈ InFlight.own (.exec blk)) :
    ∃ d b ms, e.store.completions[k]? = some d ∧ d.target = some b ∧ e.store.IsBatch b ms := by
  rw [InFlight.own_exec] at hk
  obtain ⟨c, hc, rfl⟩ := List.mem_map.mp hk
  obtain ⟨-, d, b, ms, hd, ht, hbatch, -⟩ :=
    hs.custody.completers.done blk hblk c (Option.mem_toList.mp hc)
  exact ⟨d, b, ms, hd, ht, hbatch⟩

/-- With a frame in flight the connection has not been torn down. -/
theorem Sound.open_of_mem (hs : e.Sound accepted) {f : InFlight}
    (hf : f ∈ e.connection.ledger.entries) : e.connection.isShutDown = false := by
  refine Bool.eq_false_iff.mpr fun hdown => ?_
  rw [(hs.down hdown).2.2.1] at hf
  cases hf

/-- A block is only recorded in a round. -/
theorem step_exec (hs : e.Sound accepted) (hround : ev ≠ .round) (h : e.step ev = some e')
    {blk : Block} (hblk : .exec blk ∈ e'.connection.ledger.entries) :
    .exec blk ∈ e.connection.ledger.entries := by
  have hopen := (step_sound hs h).open_of_mem hblk
  cases hq : ev.isQuiet with
  | true =>
      rw [(step_quiet hs hq h).2.continues.ledger hopen] at hblk
      exact hblk
  | false =>
      cases ev with
      | round => exact absurd rfl hround
      | finish =>
          obtain ⟨-, hchanges | ⟨c, hbye, hsound, hchanges⟩⟩ :=
            @finish_cases accepted e e' (fun _ => True) hs h
          · rw [(hchanges.continues hs).ledger hopen] at hblk
            exact hblk
          · rw [(hchanges.continues hsound).ledger hopen, hbye.entries] at hblk
            simpa using hblk
      | reply r =>
          obtain ⟨-, -, ⟨-, hrests⟩ | ⟨f, -, htakes⟩⟩ := reply_takes hs h
          · rw [hrests.continues.ledger hopen] at hblk
            exact hblk
          · rw [htakes.entries hopen]
            exact List.mem_cons_of_mem f hblk
      | _ => cases hq

/-- The block of a round is made of the message that has been taken out of the queue. -/
theorem PicksUp.own {id : MessageId} {fs : List InFlight} {c : Connection}
    (h : PicksUp id fs e c) (hs : e.Sound accepted) {blk : Block} (hblk : .exec blk ∈ fs)
    {k : CompletionId} (hk : k ∈ InFlight.own (.exec blk)) :
    (∃ d, e.store.completions[k]? = some d ∧ d.target = some id) ∧ ∃ ms, e.store.IsBatch id ms := by
  obtain ⟨sel, hdispatch⟩ := h.dispatch
  generalize c.store = s' at hdispatch
  cases hdispatch with
  | plain _ _ _ _ => simp at hblk
  | choice _ _ => simp at hblk
  | preceded _ _ _ _ _ => simp at hblk
  | @batch m ms _ inner slots db' _ hm hb hexp hsel =>
      have hlast : blk = ⟨slots, ((e.store.markSent id).2.takeCompleter id).1⟩ := by
        rw [List.cons_append, List.mem_cons, List.mem_append, List.mem_singleton] at hblk
        rcases hblk with hblk | hblk | hblk
        · cases hblk
        · obtain ⟨x, -, hx, -⟩ := hexp.frames_fresh _ hblk
          cases hx
        · exact InFlight.exec.inj hblk
      subst hlast
      rw [InFlight.own_exec] at hk
      obtain ⟨c, hc, rfl⟩ := List.mem_map.mp hk
      have hsink : e.store.sink id = .assigned c := by
        rw [← e.store.markSent_sink id id]
        exact (Store.takeCompleter_fst _ id c).mp (Option.mem_toList.mp hc)
      have hbatch : e.store.IsBatch id ms :=
        Store.markSent_batches.mp ⟨m.draft, Store.draft?_of_get hm, hb⟩
      exact ⟨(hs.custody.completers.target id c hsink).1, ms, hbatch⟩

/-- Who waits for the outcome of a block in flight has waited for the same batch before. -/
theorem Sound.own_back (hs : e.Sound accepted) (hties : e.store.Ties e'.store) {blk : Block}
    (hblk : .exec blk ∈ e.connection.ledger.entries) {k : CompletionId}
    (hk : k ∈ InFlight.own (.exec blk)) {d : Completion} (hd : e'.store.completions[k]? = some d)
    {b : MessageId} (ht : d.target = some b) :
    (∃ d₀, e.store.completions[k]? = some d₀ ∧ d₀.target = some b)
      ∧ ∃ ms, e.store.IsBatch b ms := by
  obtain ⟨d₀, b₀, ms, hd₀, ht₀, hbatch⟩ := hs.own_target hblk hk
  obtain ⟨d', hd', ht'⟩ := hties k d₀ hd₀
  obtain rfl := Option.some.inj (hd'.symm.trans hd)
  obtain rfl : b₀ = b := Option.some.inj ((ht'.trans ht₀).symm.trans ht)
  exact ⟨⟨d₀, hd₀, ht₀⟩, ms, hbatch⟩

theorem Lined.round (hl : e.Lined) (hs : e.Sound accepted) (hf : e.Fated stray)
    (h : e.step .round = some e') : e'.Lined := by
  have hs' := step_sound hs h
  have hties := step_ties hs hf h
  obtain ⟨id, rest, hqueue, hqueue', -, hcases⟩ := round_cases hs h
  have hold : ∀ b ∈ rest, b ∈ e.connection.queue.toList := fun b hb => by
    rw [hqueue]
    exact List.mem_cons_of_mem id hb
  constructor
  · intro b hb ms hbatch
    rw [hqueue'] at hb ⊢
    obtain ⟨ms', hbatch'⟩ := hs.queued_batch (step_grows hs h) (hold b hb) hbatch
    have honce := hl.once b (hold b hb) ms' hbatch'
    rw [hqueue] at honce
    exact Nat.le_trans (List.Sublist.count_le b (List.sublist_cons_self id rest)) honce
  · intro b hb ms hbatch
    rw [hqueue'] at hb
    obtain ⟨ms', hbatch'⟩ := hs.queued_batch (step_grows hs h) (hold b hb) hbatch
    have hrest : b ∉ e.connection.queue.toList.head? := by
      rw [hqueue, List.head?_cons]
      rintro ⟨rfl⟩
      have honce := hl.once id (hold id hb) ms' hbatch'
      have htwice := List.count_pos_iff.mpr hb
      rw [hqueue, List.count_cons_self] at honce
      omega
    rcases round_phase hs h hbatch' hrest with hsame | hcomplete
    · rw [hsame]
      exact hl.unsent b (hold b hb) ms' hbatch'
    · rw [hcomplete]
      exact Phase.noConfusion
  · intro b hb blk hblk k hk d hd ht
    rw [hqueue'] at hb
    have hopen := hs'.open_of_mem hblk
    -- an old block is none of a batch that was queued
    have hwritten : .exec blk ∉ e.connection.ledger.entries := by
      intro hmem
      obtain ⟨⟨d₀, hd₀, ht₀⟩, -⟩ := hs.own_back hties hmem hk hd ht
      exact hl.unwritten b (hold b hb) blk hmem k hk d₀ hd₀ ht₀
    rcases hcases with ⟨-, -, hchanges⟩ | ⟨fs, -, hpicks⟩
    · rw [(hchanges.continues hs).ledger hopen] at hblk
      exact hwritten hblk
    · rw [hpicks.entries] at hblk
      -- a new one is of the batch that has been taken out, which was queued once
      have hnew := (List.mem_append.mp hblk).resolve_left hwritten
      obtain ⟨⟨d₀, hd₀, ht₀⟩, ms, hbatch⟩ := hpicks.own hs hnew hk
      obtain ⟨d', hd', ht'⟩ := hties k d₀ hd₀
      obtain rfl := Option.some.inj (hd'.symm.trans hd)
      obtain rfl : id = b := Option.some.inj ((ht'.trans ht₀).symm.trans ht)
      have honce := hl.once id (hold id hb) ms hbatch
      have htwice := List.count_pos_iff.mpr hb
      rw [hqueue, List.count_cons_self] at honce
      omega

theorem Lined.step (hl : e.Lined) (hs : e.Sound accepted) (hf : e.Fated stray)
    (h : e.step ev = some e') : e'.Lined := by
  by_cases hround : ev = .round
  · subst hround
    exact hl.round hs hf h
  · have hs' := step_sound hs h
    -- what has been queued is not picked up
    have hunsent : ∀ b ∈ e.connection.queue.toList, ∀ ms, e'.store.IsBatch b ms →
        e'.store.phase b ≠ .sent := by
      intro b hb ms hbatch
      obtain ⟨ms', hbatch'⟩ := hs.queued_batch (step_grows hs h) hb hbatch
      rcases step_phase hs hround h hbatch'.lt_size with hsame | hcomplete
      · rw [hsame]
        exact hl.unsent b hb ms' hbatch'
      · rw [hcomplete]
        exact Phase.noConfusion
    have hg := step_grows hs h
    have hties := step_ties hs hf h
    cases step_requeues hs hround h with
    | drained hdown =>
        have hempty := (hs'.down hdown).2.1
        constructor
        · intro b hb
          rw [hempty] at hb
          cases hb
        · intro b hb
          rw [hempty] at hb
          cases hb
        · intro b hb
          rw [hempty] at hb
          cases hb
    | same hsame =>
        constructor
        · intro b hb ms hbatch
          rw [hsame] at hb ⊢
          obtain ⟨ms', hbatch'⟩ := hs.queued_batch hg hb hbatch
          exact hl.once b hb ms' hbatch'
        · rw [hsame]
          exact hunsent
        · intro b hb blk hblk k hk d hd ht
          rw [hsame] at hb
          have hmem := step_exec hs hround h hblk
          obtain ⟨⟨d₀, hd₀, ht₀⟩, -⟩ := hs.own_back hties hmem hk hd ht
          exact hl.unwritten b hb blk hmem k hk d₀ hd₀ ht₀
    | @puts id p wakes henq hid =>
        have hmem_of := (PriorityQueue.enqueue_ok henq).2
        constructor
        · intro b hb ms hbatch
          rw [PriorityQueue.enqueue_count henq b]
          rcases (hmem_of b).mp hb with rfl | hb
          · -- the batch is new
            have hnot : b ∉ e.connection.queue.toList := by
              intro hqueued
              rcases hid with howned | ⟨hsize, -⟩
              · exact (hg.isSingle (hs.custody.kinds.owned_single b howned)).not_isBatch ms hbatch
              · exact absurd (hs.queue_lt hqueued) (by rw [hsize]; exact Nat.lt_irrefl _)
            rw [List.count_eq_zero_of_not_mem hnot]
            simp
          · obtain ⟨ms', hbatch'⟩ := hs.queued_batch hg hb hbatch
            have honce := hl.once b hb ms' hbatch'
            have hne : id ≠ b := by
              rintro rfl
              rcases hid with howned | ⟨hsize, -⟩
              · exact (hs.custody.kinds.owned_single id howned).not_isBatch ms' hbatch'
              · exact absurd (hs.queue_lt hb) (by rw [hsize]; exact Nat.lt_irrefl _)
            rw [List.count_cons_of_ne hne]
            simpa using honce
        · intro b hb ms hbatch
          rcases (hmem_of b).mp hb with rfl | hb
          · rcases hid with howned | ⟨-, hphase⟩
            · exact absurd hbatch
                ((hg.isSingle (hs.custody.kinds.owned_single b howned)).not_isBatch ms)
            · exact hphase
          · exact hunsent b hb ms hbatch
        · intro b hb blk hblk k hk d hd ht
          have hmem := step_exec hs hround h hblk
          obtain ⟨⟨d₀, hd₀, ht₀⟩, ms, hbatch⟩ := hs.own_back hties hmem hk hd ht
          rcases (hmem_of b).mp hb with rfl | hb
          · -- a block is of a batch that was there before
            rcases hid with howned | ⟨hsize, -⟩
            · exact (hs.custody.kinds.owned_single b howned).not_isBatch ms hbatch
            · exact absurd hbatch.lt_size (by rw [hsize]; exact Nat.lt_irrefl _)
          · exact hl.unwritten b hb blk hmem k hk d₀ hd₀ ht₀

theorem new_lined (config : Config) : (new config).Lined where
  once b hb := by cases hb
  unsent b hb := by cases hb
  unwritten b hb := by cases hb

/-- What the proofs on the end of a connection need to know of it, and every run keeps. -/
structure Orderly (e : Engine) : Prop where
  kept : Kept (fun _ => True) e
  lined : e.Lined

theorem Orderly.sound (ho : e.Orderly) : e.Sound [] := ho.kept.sound

theorem Orderly.step (ho : e.Orderly) (h : e.step ev = some e') : e'.Orderly where
  kept := ho.kept.step (fun _ _ => trivial) h
  lined := ho.lined.step ho.sound ho.kept.fated h

theorem Orderly.run (ho : e.Orderly) (h : e.run evs = some e') : e'.Orderly :=
  run_induction (fun _ _ _ ho h => ho.step h) h ho

theorem new_orderly (config : Config) : (new config).Orderly where
  kept := new_kept _ config
  lined := new_lined config

/-- Whoever waits for a queued batch waits for its own completer. -/
theorem Sound.batch_sink (hs : e.Sound accepted) (hl : e.Lined) {b : MessageId}
    (hb : b ∈ e.connection.queue.toList) {ms : List MessageId} (hbatch : e.store.IsBatch b ms)
    {k : CompletionId} {d : Completion} (hd : e.store.completions[k]? = some d)
    (ht : d.target = some b) (hw : d.Waits) : ∃ sh, e.store.sink b = .assigned ⟨k, sh⟩ := by
  obtain ⟨j, sh, hj, hsink | ⟨ms', blk, -, hblk, hdone⟩⟩ := hs.custody.completers.waits k d hd hw
  · obtain rfl := Option.some.inj (hj.symm.trans ht)
    exact ⟨sh, hsink⟩
  · have hk : k ∈ InFlight.own (.exec blk) := by
      rw [InFlight.own_exec, hdone]
      exact List.mem_singleton_self k
    exact absurd ht (hl.unwritten b hb blk hblk k hk d hd)

end Engine

end RespMux
