import RespMux.Proofs.Correlation

/-!
# Nothing that was accepted is stranded

A message that the connection has accepted is in its queue, alone or in a batch, or in its ledger,
as a frame or among the members of a block, or its outcome has been given. The same holds of every
member of a batch. The completion of a batch itself is handed on half way: until the batch is picked
up its completer is in the batch, and afterwards in the block that has been written for it.

All this is read off the custody of the connection, which every run keeps. A connection that has
been torn down holds nothing, so that all the outcomes have been given then.
-/

set_option autoImplicit false

namespace RespMux

theorem Completion.isComplete_of_not_waits {c : Completion} (hkept : c.stage ≠ .abandoned)
    (hopen : c.isOpen = true) (hw : ¬ c.Waits) : c.isComplete = true := by
  unfold isComplete
  cases hstage : c.stage with
  | waiting => exact absurd ⟨hstage, hopen⟩ hw
  | abandoned => exact absurd hstage hkept
  | delivered o => rfl
  | fetched o => rfl
  | spent => rfl

namespace Store

/-- Everybody who holds a completion of the message has its outcome. -/
def Settled (s : Store) (id : MessageId) : Prop :=
  ∀ (k : CompletionId) c, s.completions[k]? = some c → c.target = some id → c.isOpen = true →
    c.isComplete = true

/-- The message is over, and everybody has its outcome. -/
def Given (s : Store) (id : MessageId) : Prop := s.phase id = .complete ∧ s.Settled id

end Store

/-- A message that is still on its way is in the queue, itself or as a member of a batch, or a frame
in flight waits for its answer. -/
def Connection.Holds (c : Connection) (id : MessageId) : Prop :=
  id ∈ c.queue.toList
    ∨ (∃ b ms, b ∈ c.queue.toList ∧ c.store.IsBatch b ms ∧ id ∈ ms)
    ∨ Covers c.ledger.entries id

/-- The completion waits for the outcome of a batch that has been written: the block that was
written for it has the completer. -/
def Connection.HoldsCompleter (c : Connection) (k : CompletionId) : Prop :=
  ∃ b, .exec b ∈ c.ledger.entries ∧ b.done = some ⟨k, .unit⟩

namespace Custody

variable {owned accepted queued : List MessageId} {frames : List InFlight} {s : Store}
variable {id : MessageId} {ms : List MessageId}

/-- A single message that is over has given its outcome. -/
theorem given (h : Custody owned accepted queued frames s) (hs : s.IsSingle id)
    (hp : s.phase id = .complete) : s.Given id := by
  refine ⟨hp, fun k c hk ht hopen => ?_⟩
  refine Completion.isComplete_of_not_waits (h.completers.kept k c hk) hopen fun hw => ?_
  obtain ⟨ms, b, sh, hb, -⟩ := h.waits_of_consumed (h.completers.complete id hp) hk ht hw
  exact hs.not_isBatch ms hb

/-- A batch that has been picked up has given its outcome, or a block in flight will. -/
theorem batch_given (h : Custody owned accepted queued frames s) (hb : s.IsBatch id ms)
    (hp : s.phase id ≠ .notSent) {k : CompletionId} {c : Completion}
    (hk : s.completions[k]? = some c) (ht : c.target = some id) (hopen : c.isOpen = true) :
    c.isComplete = true ∨ ∃ b, .exec b ∈ frames ∧ b.done = some ⟨k, .unit⟩ := by
  have hsink : s.sink id = .consumed := by
    cases hphase : s.phase id with
    | notSent => exact absurd hphase hp
    | sent => exact h.completers.batch id ms hb hphase
    | complete => exact h.completers.complete id hphase
  by_cases hw : c.Waits
  · obtain ⟨-, b, sh, -, hf, hd⟩ := h.waits_of_consumed hsink hk ht hw
    have hshape : sh = .unit := (h.completers.done b hf _ hd).1
    rw [hshape] at hd
    exact Or.inr ⟨b, hf, hd⟩
  · exact Or.inl (Completion.isComplete_of_not_waits (h.completers.kept k c hk) hopen hw)

/-- A single message is over, or in flight, or where it was put. -/
theorem held (h : Custody owned accepted queued frames s) (hs : s.IsSingle id)
    {P : Prop} (hput : s.phase id = .notSent → P) : P ∨ Covers frames id ∨ s.Given id := by
  cases hp : s.phase id with
  | notSent => exact Or.inl (hput hp)
  | sent => exact Or.inr (Or.inl (h.phases.sent id hs hp))
  | complete => exact Or.inr (Or.inr (h.given hs hp))

end Custody

namespace Connection

variable {owned accepted : List MessageId} {c : Connection} {id : MessageId} {ms : List MessageId}

/-- An accepted message of a caller is held or over. -/
theorem Sound.single_held (h : c.Sound owned accepted) (ha : id ∈ accepted)
    (hs : c.store.IsSingle id) : c.Holds id ∨ c.store.Given id := by
  rcases h.custody.held hs (h.custody.phases.accepted_queued id ha) with hq | hf | hg
  · exact Or.inl (Or.inl hq)
  · exact Or.inl (Or.inr (Or.inr hf))
  · exact Or.inr hg

/-- So is every member of an accepted batch. -/
theorem Sound.member_held (h : c.Sound owned accepted) (ha : id ∈ accepted)
    (hb : c.store.IsBatch id ms) {j : MessageId} (hj : j ∈ ms) :
    c.Holds j ∨ c.store.Given j := by
  have hs := h.custody.kinds.owned_single j (h.custody.kinds.members_owned id ms hb j hj)
  have hput : c.store.phase j = .notSent → id ∈ c.queue.toList ∨ j ∈ c.queue.toList := by
    intro hp
    by_cases hbatch : c.store.phase id = .notSent
    · exact Or.inl (h.custody.phases.accepted_queued id ha hbatch)
    · exact Or.inr (h.custody.phases.members_queued id ms hb hbatch j hj hp)
  rcases h.custody.held hs hput with (hq | hq) | hf | hg
  · exact Or.inl (Or.inr (Or.inl ⟨id, ms, hq, hb, hj⟩))
  · exact Or.inl (Or.inl hq)
  · exact Or.inl (Or.inr (Or.inr hf))
  · exact Or.inr hg

/-- An accepted batch is queued, or its own outcome has been given or is held by its block. -/
theorem Sound.batch_held (h : c.Sound owned accepted) (ha : id ∈ accepted)
    (hb : c.store.IsBatch id ms) :
    id ∈ c.queue.toList ∨ ∀ (k : CompletionId) d, c.store.completions[k]? = some d →
      d.target = some id → d.isOpen = true → d.isComplete = true ∨ c.HoldsCompleter k := by
  by_cases hp : c.store.phase id = .notSent
  · exact Or.inl (h.custody.phases.accepted_queued id ha hp)
  · exact Or.inr fun k d hk ht hopen => h.custody.batch_given hb hp hk ht hopen

/-- A connection that has been torn down holds nothing. -/
theorem Sound.not_holds (h : c.Sound owned accepted) (hd : c.isShutDown = true) :
    ¬ c.Holds id := by
  obtain ⟨-, hq, hl, -⟩ := h.down hd
  unfold Holds
  rw [hq, hl]
  rintro (hm | ⟨b, ms, hm, -⟩ | hm | ⟨b, hm, -⟩)
  · cases hm
  · cases hm
  · cases hm
  · cases hm

end Connection

namespace Engine

variable {accepted : List MessageId} {e e' : Engine} {id : MessageId}

/-- In the course of the run the connection has taken the message into its queue. -/
def HasAccepted (config : Config) (evs : List Event) (id : MessageId) : Prop :=
  ∃ before after e, evs = before ++ after ∧ (new config).run before = some e
    ∧ id ∈ e.connection.queue.toList

/-- This is so whenever a step puts the message into the queue, and that succeeds. -/
theorem HasAccepted.of_enqueue {config : Config} {before after : List Event} {ev : Event}
    {p : Priority} {wakes : Bool} (hrun : (new config).run before = some e)
    (hstep : e.step ev = some e')
    (henq : e.connection.queue.enqueue id p = .done (.ok ()) e'.connection.queue wakes) :
    HasAccepted config (before ++ ev :: after) id := by
  have hmem : id ∈ e'.connection.queue.toList :=
    ((PriorityQueue.enqueue_ok henq).2 id).mpr (Or.inl rfl)
  refine ⟨before ++ [ev], after, e', ?_, ?_, hmem⟩
  · rw [List.append_assoc]
    rfl
  · rw [run_append, hrun, Option.bind_some, run_cons, hstep]
    rfl

/-- The message is `id` or one of the members of the batch `id`. -/
def Belongs (e : Engine) (id j : MessageId) : Prop :=
  j = id ∨ ∃ ms, e.store.IsBatch id ms ∧ j ∈ ms

/-- The message `id` is safe with the connection. -/
structure Secured (e : Engine) (id : MessageId) : Prop where
  /-- it is a message of a caller or a batch -/
  kind : e.store.IsSingle id ∨ ∃ ms, e.store.IsBatch id ms
  single : e.store.IsSingle id → e.connection.Holds id ∨ e.store.Given id
  member : ∀ ms, e.store.IsBatch id ms → ∀ j ∈ ms, e.connection.Holds j ∨ e.store.Given j
  batch : ∀ ms, e.store.IsBatch id ms → id ∈ e.connection.queue.toList ∨
    ∀ (k : CompletionId) c, e.store.completions[k]? = some c → c.target = some id →
      c.isOpen = true → c.isComplete = true ∨ e.connection.HoldsCompleter k
  /-- after a shutdown there is nobody who waits -/
  down : e.connection.isShutDown = true → ∀ j, e.Belongs id j → e.store.Settled j
  /-- and whoever waits before one gets its cause -/
  shutdown : ∀ cause error j, e.Belongs id j →
    ∀ (k : CompletionId) c, e.store.completions[k]? = some c → c.target = some j → c.Waits →
      ∃ d, (e.connection.shutdown cause error).store.completions[k]? = some d
        ∧ d.stage = .delivered (.error (.connectionTerminated cause))

theorem Sound.kind (hs : e.Sound accepted) (ha : id ∈ accepted) :
    e.store.IsSingle id ∨ ∃ ms, e.store.IsBatch id ms :=
  (hs.custody.kinds.accepted_kind id ha).imp_left (hs.custody.kinds.owned_single id)

/-- When the connection has been torn down, everybody has the outcome. -/
theorem Sound.settled (hs : e.Sound accepted) (ha : id ∈ accepted)
    (hd : e.connection.isShutDown = true) {j : MessageId} (hj : e.Belongs id j) :
    e.store.Settled j := by
  rcases hj with rfl | ⟨ms, hb, hj⟩
  · -- the message itself: after a shutdown nothing is queued or in flight
    rcases hs.kind ha with hsingle | ⟨ms, hb⟩
    · have hheld := Connection.Sound.single_held hs ha hsingle
      exact (hheld.resolve_left (Connection.Sound.not_holds hs hd)).2
    · obtain ⟨-, hq, hl, -⟩ := hs.down hd
      rcases Connection.Sound.batch_held hs ha hb with hm | hgiven
      · rw [hq] at hm
        cases hm
      · intro k c hk ht hopen
        rcases hgiven k c hk ht hopen with hc | ⟨b, hm, -⟩
        · exact hc
        · rw [hl] at hm
          cases hm
  · -- a member of the batch
    have hheld := Connection.Sound.member_held hs ha hb hj
    exact (hheld.resolve_left (Connection.Sound.not_holds hs hd)).2

/-- Whoever waits when the connection is torn down gets the cause. -/
theorem Sound.terminated (hs : e.Sound accepted) (ha : id ∈ accepted) (cause : String)
    (error : Option Error) {j : MessageId} (hj : e.Belongs id j) {k : CompletionId}
    {c : Completion} (hk : e.store.completions[k]? = some c) (ht : c.target = some j)
    (hw : c.Waits) :
    ∃ d, (e.connection.shutdown cause error).store.completions[k]? = some d
      ∧ d.stage = .delivered (.error (.connectionTerminated cause)) := by
  obtain ⟨ids, own, hr⟩ := e.connection.shutdown_resolves hs.custody.wellFormed cause error
  have hkept := rests_of_keeps hs (e.connection.keeps_shutdown cause error)
  have hbelongs : (e.withConnection (e.connection.shutdown cause error)).Belongs id j :=
    hj.imp_right fun ⟨ms, hb, hm⟩ => ⟨ms, (Store.IsBatch.congr (hr.draft? id)).mpr hb, hm⟩
  have hsettled := hkept.1.settled ha (e.connection.shutdown_down cause error) hbelongs
  rcases hr.completion k c hk with hsame | ⟨⟨o, rfl, hgiven⟩, -⟩
  · -- it cannot be left as it is: then somebody would wait after the shutdown
    have hcomplete := hsettled k c hsame ht hw.2
    unfold Completion.isComplete at hcomplete
    rw [hw.1] at hcomplete
    cases hcomplete
  · exact ⟨_, hgiven, Completion.deliver_stage hw _⟩

theorem Sound.secured (hs : e.Sound accepted) (ha : id ∈ accepted) : Secured e id where
  kind := hs.kind ha
  single := Connection.Sound.single_held hs ha
  member _ hb _ := Connection.Sound.member_held hs ha hb
  batch _ := Connection.Sound.batch_held hs ha
  down hd _ := hs.settled ha hd
  shutdown cause error _ hj _ _ := hs.terminated ha cause error hj

/-- Every message that was accepted in a run is safe at its end. -/
theorem accepted_secured {config : Config} {evs : List Event} (h : (new config).run evs = some e)
    (ha : HasAccepted config evs id) : Secured e id := by
  obtain ⟨before, after, e₁, rfl, hbefore, hqueued⟩ := ha
  rw [run_append, hbefore, Option.bind_some] at h
  have hs := run_sound (run_new_sound hbefore).accept h
  exact hs.secured (List.mem_append_left [] hqueued)

theorem accepted_secured_transaction :
    Secured (((new {}).run twoCommands).get (by decide)) 2 := by
  have hrun : (new {}).run (twoCommands.take 5)
      = some (((new {}).run (twoCommands.take 5)).get (by decide)) := (Option.some_get _).symm
  have hstep : (((new {}).run (twoCommands.take 5)).get (by decide)).step (.execute 0 .high)
      = some ((((new {}).run (twoCommands.take 5)).get (by decide)).step (.execute 0 .high) |>.get
        (by decide)) := (Option.some_get _).symm
  -- the batch of the transaction is put into the queue
  have haccepted : HasAccepted {}
      (twoCommands.take 5 ++ .execute 0 .high :: twoCommands.drop 6) 2 :=
    .of_enqueue (p := .high) hrun hstep rfl
  exact accepted_secured (Option.some_get _).symm haccepted

end Engine

end RespMux
