import RespMux.Proofs.Cancellation
import RespMux.Proofs.Custody.Pledges
import RespMux.Proofs.Engine.Pumps

/-!
# The completion of a transaction comes last

When a transaction is executed, the caller gets a completion for the whole block. It has an outcome
only when all commands of the block have theirs, however the block comes to its end
(`Engine.members_first`). This is said of commands that the helpers of the transaction have
collected: nobody else can hand these in or give them up (`Engine.Collected`). A caller who has to
wait for room in the queue gets the completion when the batch is in the queue, so that is when
`execute` happens.

The proof follows the completer of the batch. As long as the batch waits, its completion does, too.
While the block is in flight, the block has the completer (`Pledges`). So if the completion does not
wait, neither does the batch, and no block with one of its members is in flight. A member that still
had no outcome would be queued or in flight, by itself or with another batch; but there is only one
batch with it, since the member has been collected once (`Connection.places`).
-/

set_option autoImplicit false

namespace RespMux

namespace Connection

variable {owned accepted gain : List MessageId} {lost stray : MessageId → Prop}
variable {c c' : Connection}

theorem pledges_shutdown (hs : c.Sound owned accepted)
    (h : Pledges stray owned c.ledger.entries c.store) (cause : String) (error : Option Error) :
    Pledges stray owned (c.shutdown cause error).ledger.entries
      (c.shutdown cause error).store := by
  cases hd : c.isShutDown with
  | true =>
      rw [shutdown_of_down hd]
      exact h
  | false =>
      obtain ⟨events, heq⟩ := shutdown_eq hd cause error
      have hc : Custody owned accepted c.queue.toList (c.ledger.entries ++ []) c.store := by
        rw [List.append_nil]
        exact hs.custody
      have hp : Pledges stray owned (c.ledger.entries ++ []) c.store := by
        rw [List.append_nil]
        exact h
      -- no batch is in flight as such, so none is reached by what was sent
      have hsent := hp.resolve hc (Store.foldl_failInFlight_resolves hc.wellFormed c.ledger.entries
        (.connectionTerminated cause)) (fun j hj ms hb => by
          obtain ⟨f, hf, hjf⟩ := List.mem_flatMap.mp hj
          exact absurd hb (hs.custody.reach_not_isBatch hf hjf ms)) fun _ hk => hk
      have hc' := hc.failFrames (.connectionTerminated cause)
      have hqueue := Store.foldl_fail_resolves hc'.wellFormed c.queue.toList
        (.connectionTerminated cause)
      have hsent : Pledges stray owned ([] ++ []) _ := hsent
      have hunsent := hsent.resolve hc' hqueue (fun j hj ms _ hn => by
          obtain ⟨i, hi, hji⟩ := List.mem_flatMap.mp hj
          cases (Store.foldl_fail_phase hc'.wellFormed c.queue.toList
            (.connectionTerminated cause) i hi j hji).symm.trans hn) fun k hk => by cases hk
      rw [heq]
      exact hunsent

/-- What callers do leaves the blocks in flight alone. -/
theorem Change.pledges (h : Change owned lost c gain c') (hs : c.Sound owned accepted)
    (hp : Pledges stray owned c.ledger.entries c.store) :
    Pledges stray owned c'.ledger.entries c'.store := by
  cases h with
  | aside hstore hledger =>
      rw [hstore, hledger]
      exact hp
  | tick now =>
      exact hp.observe (fun _ => rfl) (fun _ => rfl) (fun _ _ _ => rfl)
        (fun k d b hk ht => Or.inl ⟨d, hk, ht⟩) fun k d hk hw => ⟨d, hk, rfl, hw⟩
  | look k l =>
      have hget : ∀ j : CompletionId, (c.store.modifyCompletion k l.apply).completions[j]?
          = if k = j then (c.store.completions[j]?).map l.apply else c.store.completions[j]? :=
        fun j => Array.getElem?_modify
      refine hp.observe (fun _ => rfl) (fun _ => rfl) (fun _ _ _ => rfl) (fun j d b hj ht => ?_)
        fun j d hj hw => ?_
      · rw [hget] at hj
        split at hj
        · obtain ⟨d₀, hd₀, rfl⟩ := Option.map_eq_some_iff.mp hj
          exact Or.inl ⟨d₀, hd₀, (l.apply_target d₀).symm.trans ht⟩
        · exact Or.inl ⟨d, hj, ht⟩
      · rw [hget, hj]
        split
        · exact ⟨_, rfl, l.apply_target d, l.apply_waiting hw⟩
        · exact ⟨d, rfl, rfl, hw⟩
  | ready o =>
      have hget : ∀ j : CompletionId, (c.store.addCompletion (.ready o)).2.completions[j]?
          = if j = c.store.completions.size then some (.ready o) else c.store.completions[j]? :=
        fun j => Array.getElem?_push
      refine hp.observe (fun _ => rfl) (fun _ => rfl) (fun _ _ _ => rfl) (fun j d b hj ht => ?_)
        fun j d hj hw => ?_
      · rw [hget] at hj
        split at hj
        · cases hj
          cases ht
        · exact Or.inl ⟨d, hj, ht⟩
      · refine ⟨d, ?_, rfl, hw⟩
        rw [hget, if_neg (Nat.ne_of_lt (Array.getElem?_eq_some_iff.mp hj).1)]
        exact hj
  | @attach id shape hid hempty =>
      have hsingle := hs.custody.kinds.owned_single id hid
      refine hp.observe (fun j => c.store.attach_draft? id j shape)
        (fun j => c.store.attach_phase id j shape) (fun b ms hb => ?_) (fun j d b hj ht => ?_)
        fun j d hj hw => ⟨d, Store.attach_completion_of_some hj, rfl, hw⟩
      · have hne : id ≠ b := by
          rintro rfl
          exact hsingle.not_isBatch ms hb
        exact Store.sink_congr (Store.attach_messages_ne hne shape)
      · rw [Store.attach_completions] at hj
        split at hj
        · cases hj
          cases ht
          exact Or.inr hsingle
        · exact Or.inl ⟨d, hj, ht⟩
  | batch t => exact hp.batched (c.collected t).toList
  | fails error => exact hp.fail hs.custody _ error
  | shutdown cause error => exact pledges_shutdown hs hp cause error

theorem Changes.pledges (h : Changes owned accepted lost c gain c') (hs : c.Sound owned accepted)
    (hp : Pledges stray owned c.ledger.entries c.store) :
    Pledges stray owned c'.ledger.entries c'.store :=
  (h.preserves (Q := fun c => Pledges stray owned c.ledger.entries c.store)
    (fun _ _ _ hs hchange hp => hchange.pledges hs hp) hs hp).2

/-- So does a reply, which takes one of them. -/
theorem Hears.pledges {f : InFlight} (h : Hears f c c') (hs : c.Sound owned accepted)
    (hp : Pledges stray owned c.ledger.entries c.store) :
    Pledges stray owned c'.ledger.entries c'.store := by
  have hc := hs.custody
  obtain ⟨ids, hr, hids⟩ := h.resolves
  rw [h.entries] at hc hp
  have hp : Pledges stray owned ([f] ++ c'.ledger.entries) c.store := hp
  refine hp.resolve hc hr (fun j hj ms hb => ?_) fun k hk => ?_
  · exact absurd hb (hc.reach_not_isBatch List.mem_cons_self (hids j hj) ms)
  · rw [List.flatMap_cons]
    exact List.mem_append_left _ hk

end Connection

namespace Event

variable {ev : Event} {id : MessageId}

theorem strays_of_deals (h : ev.deals id = false) : ev.strays id = false := by
  cases ev with
  | put target j priority =>
      cases target with
      | connection => exact h
      | transaction t => rfl
  | submit target j priority shape =>
      cases target with
      | connection => exact h
      | transaction t => rfl
  | fail j error => exact h
  | _ => rfl

theorem not_gathers_of_deals (h : ev.deals id = false) : id ∉ ev.gathers := by
  have hne : ∀ (target : Connection.Target) j, decide (j = id) = false →
      id ∉ target.gathers j := by
    intro target j hj hmem
    cases target with
    | connection => cases hmem
    | transaction t =>
        rw [List.mem_singleton.mp hmem, decide_eq_false_iff_not] at hj
        exact hj rfl
  cases ev with
  | put target j priority => exact hne target j h
  | submit target j priority shape => exact hne target j h
  | _ => exact List.not_mem_nil

end Event

namespace Engine

variable {accepted : List MessageId} {stray : MessageId → Prop} {e e' : Engine} {ev : Event}
variable {c : Connection} {evs : List Event} {id : MessageId}

/-! ## Places -/

theorem Opening.places (h : Opening e c) (id : MessageId) :
    c.places id ≤ e.connection.places id := by
  cases h with
  | none => exact Nat.le_refl _
  | picksUp h =>
      obtain ⟨sel, hd⟩ := h.dispatch
      exact Connection.places_le h.transactions
        (fun b ms hb => Store.markSent_batches.mp (hd.batches hb)) id
  | saysGoodbye h =>
      refine Connection.places_le h.transactions (fun b ms hb => ?_) id
      rw [h.store] at hb
      exact Store.issue_batches hb
  | hears h =>
      obtain ⟨ids, hr, -⟩ := h.resolves
      exact Connection.places_le h.transactions (fun b ms hb => hr.isBatch.mp hb) id

/-- A message gets another place only when a transaction collects it. -/
theorem step_places (hs : e.Sound accepted) (hf : e.Fated stray) (h : e.step ev = some e')
    (id : MessageId) :
    e'.connection.places id ≤ e.connection.places id + ev.gathers.count id := by
  by_cases hmake : ∃ r, ev = .make r
  · obtain ⟨r, rfl⟩ := hmake
    cases h
    refine Connection.places_le ?_ (fun b ms hb => Store.create_batches (r := r) hb) id
    rfl
  · obtain ⟨c, gain, lost, hopening, hsound, hgain, hchanges⟩ :=
      step_opening hs hf h fun r hr => hmake ⟨r, hr⟩
    have hone := hopening.places id
    have hrest := (hchanges.places hsound id).2
    have hcount := hgain.count_le id
    omega

/-- In a run a message gets no more places than transactions have collected it. -/
theorem run_places (hs : e.Sound accepted)
    (hf : e.Fated fun _ => True) (h : e.run evs = some e') (id : MessageId) :
    e'.connection.places id ≤ e.connection.places id + (evs.flatMap Event.gathers).count id := by
  induction evs generalizing e with
  | nil =>
      cases h
      exact Nat.le_refl _
  | cons ev evs ih =>
      obtain ⟨e₁, hstep, hrest⟩ := run_cons_inv h
      have hone := step_places hs hf hstep id
      have hall := ih (step_sound hs hstep) (step_fated hs hf (fun _ _ => trivial) hstep).1 hrest
      rw [List.flatMap_cons, List.count_append]
      omega

/-! ## Blocks -/

/-- The blocks in flight hold the completers of their batches. -/
def Pledged (stray : MessageId → Prop) (e : Engine) : Prop :=
  Pledges stray e.owned e.connection.ledger.entries e.store

theorem Opening.pledges (h : Opening e c) (hs : e.Sound accepted) (hf : e.Fated stray)
    (hp : e.Pledged stray) : Pledges stray e.owned c.ledger.entries c.store := by
  have hc : Custody e.owned accepted e.connection.queue.toList e.connection.ledger.entries
      e.store := hs.custody
  cases h with
  | none => exact hp
  | picksUp h =>
      obtain ⟨sel, hd⟩ := h.dispatch
      have hfates := hf.fates
      rw [h.queue] at hc hfates
      rw [h.entries]
      exact Pledges.pickUp hp hc hfates h.waiting hd
  | saysGoodbye h =>
      rw [h.entries, h.store]
      exact Pledges.issue hp hc .quit
  | hears h => exact h.pledges hs hp

theorem step_pledged (hs : e.Sound accepted) (hf : e.Fated stray) (hp : e.Pledged stray)
    (h : e.step ev = some e') : e'.Pledged stray := by
  by_cases hmake : ∃ r, ev = .make r
  · obtain ⟨r, rfl⟩ := hmake
    cases h
    refine (Pledges.add hp fun ms hb => by cases hb).own fun hmem => ?_
    rcases hs.custody.kinds.message_kind _ hmem with hs | ⟨inner, he⟩
    · exact absurd hs.lt_size (Nat.lt_irrefl _)
    · exact absurd he.lt_size (Nat.lt_irrefl _)
  · have hmake : ∀ r, ev ≠ .make r := fun r hr => hmake ⟨r, hr⟩
    obtain ⟨c, gain, lost, hopening, hsound, -, hchanges⟩ := step_opening hs hf h hmake
    have howned : e'.owned = e.owned :=
      (step_owned h).resolve_right fun ⟨r, hr, _⟩ => hmake r hr
    unfold Pledged
    rw [howned]
    exact hchanges.pledges hsound (hopening.pledges hs hf hp)

theorem new_pledged (stray : MessageId → Prop) (config : Config) :
    (new config).Pledged stray where
  direct _ hid := by cases hid
  target k c b hk := by
    rw [Array.getElem?_eq_none (Nat.zero_le k)] at hk
    cases hk
  armed b ms hb := absurd hb.lt_size (Nat.not_lt_zero b)
  sole b ms hb := absurd hb.lt_size (Nat.not_lt_zero b)
  pledged blk hf := by cases hf
  keys := List.nodup_nil

theorem run_pledged {config : Config} (h : (new config).run evs = some e) :
    e.Pledged (Strayed evs) := by
  have hboth := run_induction_mem (P := fun e => Kept (Strayed evs) e ∧ e.Pledged (Strayed evs))
    (fun e ev e' hmem ⟨hk, hp⟩ hstep =>
      ⟨hk.step (fun _ htrue => ⟨ev, hmem, htrue⟩) hstep,
        step_pledged hk.sound hk.fated hp hstep⟩) h
    ⟨new_kept _ config, new_pledged _ config⟩
  exact hboth.2

/-! ## Completions -/

theorem Opening.ties (h : Opening e c) : e.store.Ties c.store := by
  cases h with
  | none => exact .refl _
  | picksUp h =>
      obtain ⟨sel, hd⟩ := h.dispatch
      exact .of_eq (hd.completions.trans (e.store.markSent_completions _))
  | saysGoodbye h =>
      rw [h.store]
      exact .of_eq (Store.markSent_completions _ _)
  | hears h =>
      obtain ⟨ids, hr, -⟩ := h.resolves
      exact hr.ties

theorem step_ties (hs : e.Sound accepted) (hf : e.Fated stray) (h : e.step ev = some e') :
    e.store.Ties e'.store := by
  by_cases hmake : ∃ r, ev = .make r
  · obtain ⟨r, rfl⟩ := hmake
    cases h
    exact .refl _
  · obtain ⟨c, gain, lost, hopening, hsound, -, hchanges⟩ :=
      step_opening hs hf h fun r hr => hmake ⟨r, hr⟩
    exact hopening.ties.trans (hchanges.ties hsound)

theorem run_ties (hk : Kept (fun _ => True) e) (h : e.run evs = some e') :
    e.store.Ties e'.store :=
  (run_induction (P := fun e' => Kept (fun _ => True) e' ∧ e.store.Ties e'.store)
    (fun _ _ _ ⟨hk, ht⟩ hstep =>
      ⟨hk.step (fun _ _ => trivial) hstep, ht.trans (step_ties hk.sound hk.fated hstep)⟩)
    h ⟨hk, .refl _⟩).2

/-! ## Commands of a transaction -/

/-- The command has been collected by a transaction, and nobody else has handed it in or given it
up. It may have been cancelled. -/
def Collected (evs : List Event) (id : MessageId) : Prop :=
  ∃ before t priority shape after,
    evs = before ++ .submit (.transaction t) id priority shape :: after
      ∧ ∀ ev ∈ before ++ after, ev.deals id = false

theorem Collected.not_strayed (h : Collected evs id) : ∀ ev ∈ evs, ev.strays id = false := by
  obtain ⟨before, t, priority, shape, after, rfl, hnone⟩ := h
  intro ev hev
  rcases List.mem_append.mp hev with hev | hev
  · exact Event.strays_of_deals (hnone ev (List.mem_append_left _ hev))
  · rcases List.mem_cons.mp hev with rfl | hev
    · rfl
    · exact Event.strays_of_deals (hnone ev (List.mem_append_right _ hev))

theorem Collected.gathers (h : Collected evs id) : (evs.flatMap Event.gathers).count id ≤ 1 := by
  obtain ⟨before, t, priority, shape, after, rfl, hnone⟩ := h
  have hzero : ∀ l : List Event, (∀ ev ∈ l, ev.deals id = false) →
      (l.flatMap Event.gathers).count id = 0 := by
    intro l hl
    refine List.count_eq_zero.mpr fun hmem => ?_
    obtain ⟨ev, hev, hgathers⟩ := List.mem_flatMap.mp hmem
    exact Event.not_gathers_of_deals (hl ev hev) hgathers
  have hbefore := hzero before fun ev hev => hnone ev (List.mem_append_left _ hev)
  have hafter := hzero after fun ev hev => hnone ev (List.mem_append_right _ hev)
  have hone : ([id] : List MessageId).count id = 1 := List.count_singleton_self
  rw [List.flatMap_append, List.flatMap_cons, List.count_append, List.count_append]
  show _ + (List.count id [id] + _) ≤ 1
  omega

/-- So there is at most one batch with it. -/
theorem Collected.oneWay {config : Config} (h : Collected evs id)
    (hrun : (new config).run evs = some e) : OneWay evs e id := by
  have hplaces := run_places (new_sound config) (new_fated (fun _ => True) config) hrun id
  have hnew : (new config).connection.places id = 0 := rfl
  have hle := h.gathers
  refine Or.inr ⟨h.not_strayed, ?_⟩
  show (e.connection.store.batchesWith id).length ≤ 1
  unfold Connection.places at hplaces hnew
  omega

/-- When a completion of a batch has an outcome, the commands of the batch have theirs. -/
theorem members_settled {config : Config} (h : (new config).run evs = some e) {b : MessageId}
    {ms : List MessageId} (hb : e.store.IsBatch b ms) {k : CompletionId} {d : Completion}
    (hk : e.store.completions[k]? = some d) (ht : d.target = some b)
    (hdone : d.isComplete = true) {j : MessageId} (hj : j ∈ ms) (hcollected : Collected evs j) :
    e.store.Settled j := by
  have hkept : Kept (Strayed evs) e := kept_of_run (List.append_nil evs).symm h
  have hpledged := run_pledged h
  have hc : Custody e.owned [] e.connection.queue.toList e.connection.ledger.entries e.store :=
    hkept.sound.custody
  have hnot_waiting : d.stage ≠ .waiting := by
    intro hw
    unfold Completion.isComplete at hdone
    rw [hw] at hdone
    cases hdone
  have hway := hcollected.oneWay h
  obtain ⟨hstray, hone⟩ := hway.of_batch hb hj
  have hphase : e.store.phase b ≠ .notSent := fun hn =>
    hnot_waiting (hkept.fated.fates.waiting k d b hk ht hn)
  have howned := hc.kinds.members_owned b ms hb j hj
  have hsingle := hc.kinds.owned_single j howned
  cases hp : e.store.phase j with
  | notSent =>
      -- a member that has been left out is queued by itself
      have hqueued := hc.phases.members_queued b ms hb hphase j hj hp
      rcases hkept.fated.fates.queued j hqueued with hs | ⟨ms', hb'⟩
      · exact absurd hs hstray
      · exact absurd hb' (hsingle.not_isBatch ms')
  | sent =>
      rcases hc.phases.sent j hsingle hp with hf | ⟨blk, hf, hmem⟩
      · exact absurd (hpledged.direct j howned hf) hstray
      · -- the block is that of the batch, and its completer is the one for `k`
        obtain ⟨done, d', b', ms', -, hk', ht', hw', hb', hms⟩ := hpledged.pledged blk hf
        cases hone b' ms' hb' (hms j hmem)
        cases hpledged.sole b ms hb k done.completion d d' hk ht hk' ht'
        cases hk.symm.trans hk'
        exact absurd hw' hnot_waiting
  | complete => exact (hc.given hsingle hp).2

/-- When the completion that `execute` returns has an outcome, the commands of the block have
theirs. -/
theorem members_first {config : Config} {before after : List Event} {e₁ : Engine} {t : Nat}
    {priority : Priority} {k : CompletionId} {c₁ : Connection} {d : Completion} {j : MessageId}
    (hbefore : (new config).run before = some e₁)
    (hexecute : e₁.connection.executeTransaction t priority = some (k, c₁))
    (hafter : (e₁.withConnection c₁).run after = some e)
    (hk : e.store.completions[k]? = some d) (hdone : d.isComplete = true)
    (hj : j ∈ (e₁.connection.collected t).toList)
    (hcollected : Collected (before ++ .execute t priority :: after) j) : e.store.Settled j := by
  have hstep : e₁.step (.execute t priority) = some (e₁.withConnection c₁) := by
    unfold step
    dsimp only
    rw [hexecute]
  have hrun : (new config).run (before ++ .execute t priority :: after) = some e := by
    rw [run_append, hbefore, Option.bind_some, run_cons, hstep]
    exact hafter
  have hk₁ : Kept (fun _ => True) e₁ :=
    (new_kept _ config).run (fun _ _ _ _ => trivial) hbefore
  have hk₂ := hk₁.step (fun _ _ => trivial) hstep
  -- the completion belongs to the batch, which has the command
  obtain ⟨⟨d₁, hd₁, ht₁⟩, hb₁⟩ :=
    Connection.execute_ties hk₁.sound hexecute (List.ne_nil_of_mem hj)
  have hb := (run_grows hk₂.sound hafter).isBatch hb₁
  obtain ⟨d', hd', ht'⟩ := run_ties hk₂ hafter k d₁ hd₁
  cases hk.symm.trans hd'
  exact members_settled hrun hb hk (ht'.trans ht₁) hdone hj hcollected

/-- A transaction has two commands, one of which is cancelled. -/
def collecting : Engine := ((new {}).run (cancelledBlock.take 6)).get (by decide)

/-- The completion of the block, and the connection with its batch. -/
def executed : CompletionId × Connection :=
  (collecting.connection.executeTransaction 0 .high).get (by decide)

/-- The block is written and answered. -/
def answering : List Event :=
  [.round, .reply (.status Literal.ok.bytes), .reply (.status Literal.queued.bytes),
   .reply (.multi [.integer 7])]

def blockAnswered : Engine :=
  ((collecting.withConnection executed.2).run answering).get (by decide)

theorem members_first_cancelled :
    (blockAnswered.store.completions[executed.1]?).any Completion.isComplete = true
      ∧ blockAnswered.store.Settled 0 := by
  have hbefore : (new {}).run (cancelledBlock.take 6) = some collecting := (Option.some_get _).symm
  have hexecute : collecting.connection.executeTransaction 0 .high = some executed :=
    (Option.some_get _).symm
  have hafter : (collecting.withConnection executed.2).run answering = some blockAnswered :=
    (Option.some_get _).symm
  have hany : (blockAnswered.store.completions[executed.1]?).any Completion.isComplete = true := by
    decide
  obtain ⟨d, hk, hdone⟩ := (Option.any_eq_true _ _).mp hany
  refine ⟨hany, members_first hbefore hexecute hafter hk hdone (by decide) ?_⟩
  exact ⟨cancelledBlock.take 2, 0, .standard, .text,
    (cancelledBlock.take 6).drop 3 ++ .execute 0 .high :: answering, rfl, by decide⟩

end Engine

end RespMux
