import RespMux.Proofs.Connection.Callers
import RespMux.Proofs.Connection.Results
import RespMux.Proofs.Custody.Fates

/-!
# What an operation can do to a message that waits

`Spares` says that an operation lets a message that waits come to an end in no other way than those
that `Fates` lists, and that it does not touch what has been called off. It holds of everything that
callers and the handshake do, as long as a message counts as stray when it is put into the queue or
given up, and of every reply. It composes if the first operation keeps the connection sound
(`Spares.trans`).
-/

set_option autoImplicit false

namespace RespMux

theorem PriorityQueue.enqueue_isClosed {α : Type} {q q' : PriorityQueue α} {x : α} {p : Priority}
    {wakes : Bool} (h : q.enqueue x p = .done (.ok ()) q' wakes) : q'.isClosed = false := by
  obtain ⟨high, standard, isClosed, limit, limit_pos⟩ := q
  unfold enqueue at h
  cases isClosed with
  | true => cases h
  | false =>
      cases p with
      | high =>
          cases h
          rfl
      | standard =>
          simp only [Bool.false_eq_true, if_false] at h
          split at h
          · cases h
          · cases h
            rfl

namespace Connection

/-- Nothing has become of the messages that wait, and the transactions collect. -/
structure Fated (stray : MessageId → Prop) (owned : List MessageId) (c : Connection) : Prop where
  fates : Fates stray owned c.queue.toList c.store
  collecting : ∀ t, (c.collected t).isClosed = false

/-- The fates stay as they are, apart from those of stray messages, of what is called off and of
what departs. -/
def Spares (stray : MessageId → Prop) (owned accepted : List MessageId) (c c' : Connection) :
    Prop :=
  c.Sound owned accepted → c.Fated stray owned → c'.Fated stray owned ∧ c.store.StaysOff c'.store

variable {stray : MessageId → Prop} {owned accepted : List MessageId} {c c₁ c' : Connection}

theorem Spares.refl (c : Connection) : Spares stray owned accepted c c :=
  fun _ hf => ⟨hf, fun _ _ h => h⟩

theorem Spares.trans (h : Spares stray owned accepted c c₁) (hk : Keeps owned accepted c c₁)
    (h' : Spares stray owned accepted c₁ c') : Spares stray owned accepted c c' := by
  intro hs hf
  obtain ⟨hs₁, hcont⟩ := hk hs
  obtain ⟨hf₁, hoff₁⟩ := h hs hf
  obtain ⟨hf', hoff'⟩ := h' hs₁ hf₁
  exact ⟨hf', fun id hid hoff => hoff' id (hcont.grows.isSingle hid) (hoff₁ id hid hoff)⟩

/-! ## Parts of the state -/

/-- The store and the transactions are the same, and nothing has come into the queue. -/
theorem spares_of_eq (hstore : c'.store = c.store)
    (hqueue : ∀ id ∈ c'.queue.toList, id ∈ c.queue.toList)
    (htransactions : c'.transactions = c.transactions) : Spares stray owned accepted c c' := by
  refine fun _ hf => ⟨⟨?_, ?_⟩, ?_⟩
  · rw [hstore]
    exact hf.fates.enqueue fun id hid => hf.fates.queued id (hqueue id hid)
  · unfold collected
    rw [htransactions]
    exact hf.collecting
  · rw [hstore]
    exact fun _ _ h => h

/-- The store changes and the fates stay as they are. -/
theorem spares_store {s : Store}
    (h : Custody owned accepted c.queue.toList c.ledger.entries c.store →
      Fates stray owned c.queue.toList c.store →
        Fates stray owned c.queue.toList s ∧ c.store.StaysOff s) :
    Spares stray owned accepted c { c with store := s } := by
  intro hs hf
  obtain ⟨hfates, hoff⟩ := h hs.custody hf.fates
  exact ⟨⟨hfates, hf.collecting⟩, hoff⟩

theorem spares_setCollected (t : Nat) {q : PriorityQueue MessageId} (hq : q.isClosed = false) :
    Spares stray owned accepted c (c.setCollected t q) := by
  refine fun _ hf => ⟨⟨hf.fates, fun t' => ?_⟩, fun _ _ h => h⟩
  unfold collected setCollected
  dsimp only
  by_cases ht : t = t'
  · subst ht
    by_cases hlt : t < c.transactions.size
    · rw [Array.getElem?_setIfInBounds_self_of_lt hlt]
      exact hq
    · rw [Array.getElem?_setIfInBounds_self, if_neg hlt]
      rfl
  · rw [Array.getElem?_setIfInBounds_ne ht]
    exact hf.collecting t'

theorem spares_emptied (c : Connection) (t : Nat) :
    Spares stray owned accepted c (c.setCollected t (c.collected t).drain.2) :=
  fun hs hf => spares_setCollected t (hf.collecting t) hs hf

theorem spares_newTransaction (c : Connection) :
    Spares stray owned accepted c c.newTransaction.2 := by
  refine fun _ hf => ⟨⟨hf.fates, fun t => ?_⟩, fun _ _ h => h⟩
  have ht := hf.collecting t
  unfold collected at ht
  unfold collected newTransaction
  dsimp only
  rw [Array.getElem?_push]
  split
  · rfl
  · exact ht

/-! ## Completions -/

theorem spares_attach {id : MessageId} {shape : Shape} (hempty : c.store.sink id = .empty)
    (hkind : id ∈ owned ∨ ∃ ms, c.store.IsBatch id ms) :
    Spares stray owned accepted c { c with store := c.store.attach id shape } := by
  refine spares_store fun hc hf => hf.observe hc (fun j => c.store.attach_draft? id j shape)
    (fun j => c.store.attach_phase id j shape) fun k d j hk ht => ?_
  rw [Store.attach_completions] at hk
  split at hk
  · cases hk
    cases ht
    exact Or.inr ⟨rfl, hkind, hempty⟩
  · exact Or.inl ⟨d, hk, ht, fun h => h, fun h => h⟩

theorem spares_ready (c : Connection) (o : Outcome) :
    Spares stray owned accepted c
      { c with store := (c.store.addCompletion (.ready o)).2 } := by
  refine spares_store fun hc hf => hf.observe hc (fun _ => rfl) (fun _ => rfl)
    fun k d j hk ht => ?_
  change (c.store.completions.push (.ready o))[k]? = some d at hk
  rw [Array.getElem?_push] at hk
  split at hk
  · -- the new completion is tied to no message
    cases hk
    cases ht
  · exact Or.inl ⟨d, hk, ht, fun h => h, fun h => h⟩

theorem spares_look (c : Connection) (k : CompletionId) {f : Completion → Completion}
    (ht : ∀ d, (f d).target = d.target) (hw : ∀ d, d.stage = .waiting → (f d).stage = .waiting)
    (hoff : ∀ d, d.CalledOff → (f d).CalledOff) :
    Spares stray owned accepted c { c with store := c.store.modifyCompletion k f } := by
  refine spares_store fun hc hf => hf.observe hc (fun _ => rfl) (fun _ => rfl)
    fun j d id hj hid => ?_
  rw [show (c.store.modifyCompletion k f).completions[j]? = _ from Array.getElem?_modify] at hj
  split at hj
  · obtain ⟨d₀, hd₀, rfl⟩ := Option.map_eq_some_iff.mp hj
    exact Or.inl ⟨d₀, hd₀, (ht d₀).symm.trans hid, hw d₀, hoff d₀⟩
  · exact Or.inl ⟨d, hj, hid, fun h => h, fun h => h⟩

theorem spares_tick (c : Connection) (now : Duration) :
    Spares stray owned accepted c { c with store := { c.store with now := now } } :=
  spares_store fun hc hf => hf.observe hc (fun _ => rfl) (fun _ => rfl)
    fun _ d _ hk ht => Or.inl ⟨d, hk, ht, fun h => h, fun h => h⟩

/-! ## Giving up -/

theorem spares_cancel (c : Connection) (id : MessageId) :
    Spares stray owned accepted c { c with store := (c.store.cancel id).2 } :=
  spares_store fun hc hf =>
    ⟨hf.cancel hc id, fun _ _ => (Store.cancel_resolves hc.wellFormed id).calledOff⟩

theorem spares_cancelThrough (c : Connection) (k : CompletionId) :
    Spares stray owned accepted c { c with store := (c.store.cancelThrough k).2 } := by
  rcases c.store.cancelThrough_cases k with heq | ⟨-, id, -, -, heq⟩
  · rw [heq]
    exact .refl c
  · rw [heq]
    exact c.spares_cancel id

theorem spares_cancelAll (c : Connection) (ids : List MessageId) :
    Spares stray owned accepted c
      { c with store := ids.foldl (fun s id => (s.cancel id).2) c.store } := by
  induction ids generalizing c with
  | nil => exact .refl c
  | cons id ids ih =>
      exact (c.spares_cancel id).trans (c.keeps_cancel id)
        (ih { c with store := (c.store.cancel id).2 })

/-- What fails on its own is stray, and a batch takes its members with it. -/
theorem spares_fail {id : MessageId} (error : Error)
    (hid : id ∈ owned ∧ stray id ∨ ∃ ms, c.store.IsBatch id ms) :
    Spares stray owned accepted c { c with store := c.store.fail id error } := by
  refine spares_store fun hc hf => ⟨hf.failAll (l := [id]) hc error fun j hj => ?_, fun j _ => ?_⟩
  · rw [List.mem_singleton.mp hj]
    exact hid
  · exact (Store.fail_resolves hc.wellFormed id error).calledOff

/-! ## Handing in -/

theorem spares_enqueue {id : MessageId} {priority : Priority}
    (h : c.enqueue id priority = some (.ok c')) (hid : stray id ∨ ∃ ms, c.store.IsBatch id ms) :
    Spares stray owned accepted c c' := by
  unfold enqueue at h
  split at h
  · next q w henq =>
    cases h
    refine fun _ hf => ⟨⟨hf.fates.enqueue fun j hj => ?_, hf.collecting⟩, fun _ _ h => h⟩
    rcases ((PriorityQueue.enqueue_ok henq).2 j).mp hj with rfl | hj
    · exact hid
    · exact hf.fates.queued j hj
  · cases h
  · cases h

theorem spares_collect {t : Nat} {id : MessageId} {priority : Priority}
    (h : (collector t).enqueue c id priority = some (.ok c')) :
    Spares stray owned accepted c c' := by
  simp only [collector] at h
  split at h
  · next henq =>
    cases h
    exact spares_setCollected t (PriorityQueue.enqueue_isClosed henq)
  · cases h
  · cases h

theorem spares_executor {target : Target} {id : MessageId} {priority : Priority}
    (h : (executor target).enqueue c id priority = some (.ok c'))
    (hid : target = .connection → stray id) : Spares stray owned accepted c c' := by
  cases target with
  | connection => exact spares_enqueue h (Or.inl (hid rfl))
  | transaction t => exact spares_collect h

/-- A transaction that is open refuses nothing. -/
theorem collector_open {t : Nat} {id : MessageId} {priority : Priority} {error : Error}
    (hopen : (c.collected t).isClosed = false) :
    (collector t).enqueue c id priority ≠ some (.error error) := by
  intro h
  simp only [collector] at h
  split at h
  · cases h
  · next henq =>
    unfold PriorityQueue.enqueue at henq
    rw [hopen] at henq
    cases priority with
    | high => cases henq
    | standard =>
        simp only [Bool.false_eq_true, if_false] at henq
        split at henq
        · cases henq
        · cases henq
  · cases h

/-- And no transaction is ever closed. -/
theorem Fated.collector_takes (hf : c.Fated stray owned) {t : Nat} {id : MessageId}
    {priority : Priority} {error : Error} :
    (collector t).enqueue c id priority ≠ some (.error error) :=
  collector_open (hf.collecting t)

/-- Submitting spares what waits if the executor does so with what it takes and refuses. -/
theorem spares_submit {target : Target} {id : MessageId} {priority : Priority} {shape : Shape}
    {k : CompletionId} (h : (executor target).submit c id priority shape = some (k, c'))
    (hkind : id ∈ owned ∨ ∃ ms, c.store.IsBatch id ms)
    (hbatch : ∀ ms, c.store.IsBatch id ms → shape = .unit ∧ c.store.phase id = .notSent)
    (htaken : ∀ c₁ c', c₁.store = c.store.attach id shape →
      (executor target).enqueue c₁ id priority = some (.ok c') →
        Spares stray owned accepted c₁ c')
    (hrefused : ∀ c₁ error, c₁.store = c.store.attach id shape → c₁.Fated stray owned →
      (executor target).enqueue c₁ id priority = some (.error error) →
        id ∈ owned ∧ stray id ∨ ∃ ms, c₁.store.IsBatch id ms) :
    Spares stray owned accepted c c' := by
  rcases submit_cases h with ⟨-, e, rfl⟩ | ⟨hempty, hok | ⟨e, herr, rfl⟩⟩
  · exact c.spares_ready (.error e)
  · exact (spares_attach hempty hkind).trans (keeps_attach hempty hbatch) (htaken _ c' rfl hok)
  · refine (spares_attach hempty hkind).trans (keeps_attach hempty hbatch) fun hs hf => ?_
    exact spares_fail (c := { c with store := c.store.attach id shape }) e
      (hrefused _ e rfl hf herr) hs hf

/-- A caller submits a message of its own, which is stray if it goes into the queue by itself. -/
theorem spares_submit_owned {target : Target} {id : MessageId} {priority : Priority}
    {shape : Shape} {k : CompletionId}
    (h : (executor target).submit c id priority shape = some (k, c')) (hid : id ∈ owned)
    (hstray : target = .connection → stray id) : Spares stray owned accepted c c' := by
  intro hs
  refine spares_submit h (Or.inl hid) (fun ms hb => ?_)
    (fun c₁ c' _ hok => spares_executor hok hstray) (fun c₁ e _ hf herr => ?_) hs
  · exact absurd hb ((hs.custody.kinds.owned_single id hid).not_isBatch ms)
  · cases target with
    | connection => exact Or.inl ⟨hid, hstray rfl⟩
    | transaction t => exact absurd herr hf.collector_takes

/-! ## Transactions -/

theorem spares_discard (c : Connection) (t : Nat) :
    Spares stray owned accepted c (c.discardTransaction t).2 :=
  (c.spares_emptied t).trans (c.keeps_emptied t) (spares_cancelAll _ (c.collected t).toList)

/-- A batch is handed in, or it fails with its members. -/
theorem spares_submitBatch {ms : List MessageId} {priority : Priority} {k : CompletionId}
    (hms : ∀ j ∈ ms, j ∈ owned)
    (h : sender.submit { c with store := (c.store.batch ms).2 } c.store.messages.size priority .unit
      = some (k, c')) : Spares stray owned accepted c c' := by
  have hbatch : (c.store.batch ms).2.IsBatch c.store.messages.size ms :=
    ⟨_, c.store.add_draft?_self _, rfl⟩
  have hattached : ∀ s : Store, s = (c.store.batch ms).2.attach c.store.messages.size .unit →
      s.IsBatch c.store.messages.size ms := by
    rintro s rfl
    exact (Store.attach_isBatch _ _).mpr hbatch
  have hmake : Spares stray owned accepted c { c with store := (c.store.batch ms).2 } :=
    spares_store fun hc hf => hf.add hc _
  have hkeep : Keeps owned accepted c { c with store := (c.store.batch ms).2 } :=
    keeps_store fun hc => ⟨hc.batch hms, .add c.store _⟩
  have hsubmit : (executor .connection).submit { c with store := (c.store.batch ms).2 }
      c.store.messages.size priority .unit = some (k, c') := h
  refine hmake.trans hkeep (spares_submit hsubmit (Or.inr ⟨ms, hbatch⟩)
    (fun _ _ => ⟨rfl, c.store.add_phase_self _⟩) (fun c₁ c' hstore hok => ?_)
    fun c₁ e hstore _ _ => Or.inr ⟨ms, hattached c₁.store hstore⟩)
  exact spares_enqueue hok (Or.inr ⟨ms, hattached c₁.store hstore⟩)

theorem spares_execute {t : Nat} {priority : Priority} {k : CompletionId}
    (h : c.executeTransaction t priority = some (k, c')) : Spares stray owned accepted c c' := by
  intro hs
  have hms : ∀ j ∈ (c.collected t).toList, j ∈ owned := hs.collected t
  refine (c.spares_emptied t).trans (c.keeps_emptied t) ?_ hs
  unfold executeTransaction at h
  dsimp only at h
  split at h
  · cases h
    exact spares_ready _ _
  · exact spares_submitBatch hms h

/-! ## The end -/

/-- A shutdown fails what is in flight and what is queued. A frame may be in hand meanwhile. -/
theorem fated_shutdown {frames : List InFlight} (hf : c.Fated stray owned)
    (hc : Custody owned accepted c.queue.toList frames c.store)
    (hl : ∀ f ∈ c.ledger.entries, f ∈ frames) (cause : String) (error : Option Error) :
    (c.shutdown cause error).Fated stray owned
      ∧ c.store.StaysOff (c.shutdown cause error).store := by
  cases h : c.isShutDown with
  | true =>
      rw [shutdown_of_down h]
      exact ⟨hf, fun _ _ hoff => hoff⟩
  | false =>
      obtain ⟨events, heq⟩ := shutdown_eq h cause error
      have hsent := Store.foldl_failInFlight_resolves hc.wellFormed c.ledger.entries
        (.connectionTerminated cause)
      have hc₁ := hc.resolve hsent
      have hunsent := Store.foldl_fail_resolves hc₁.wellFormed c.queue.toList
        (.connectionTerminated cause)
      -- first come the frames, whose messages have been picked up, and then the queue
      have hfates := hf.fates.answer hc hsent
        (fun j hj => by
          obtain ⟨f, hf, hjf⟩ := List.mem_flatMap.mp hj
          exact ⟨f, hl f hf, hjf⟩)
        (fun k hk => by
          obtain ⟨f, hf, hkf⟩ := List.mem_flatMap.mp hk
          exact ⟨f, hl f hf, hkf⟩)
      have hfates₁ := hfates.failQueued hc₁ (.connectionTerminated cause) fun _ hid => hid
      rw [heq]
      refine ⟨⟨hfates₁.enqueue fun id hid => ?_, hf.collecting⟩, fun id _ hoff => ?_⟩
      · cases hid
      · exact hunsent.calledOff (hsent.calledOff hoff)

theorem spares_shutdown (c : Connection) (cause : String) (error : Option Error) :
    Spares stray owned accepted c (c.shutdown cause error) :=
  fun hs hf => fated_shutdown hf hs.custody (fun _ hm => hm) cause error

theorem spares_state (c : Connection) (state : Lifecycle) :
    Spares stray owned accepted c { c with state := state } :=
  spares_of_eq rfl (fun _ hid => hid) rfl

theorem spares_transition (c : Connection) (origins : List Lifecycle) (target : Lifecycle) :
    Spares stray owned accepted c (c.transition origins target).2 := by
  obtain ⟨state, heq⟩ := c.transition_eq origins target
  rw [heq]
  exact c.spares_state state

theorem spares_close (c : Connection) (abort : Bool) :
    Spares stray owned accepted c (c.close abort) := by
  have habort : Spares stray owned accepted c (if abort then { c with aborting := true } else c)
      ∧ Keeps owned accepted c (if abort then { c with aborting := true } else c) := by
    split
    · exact ⟨spares_of_eq rfl (fun _ hid => hid) rfl,
        keeps_of_eq rfl rfl rfl rfl rfl fun _ => rfl⟩
    · exact ⟨.refl c, .refl c⟩
  unfold close
  dsimp only
  generalize (if abort then { c with aborting := true } else c) = c₁ at habort
  refine habort.1.trans habort.2 ?_
  split
  · exact c₁.spares_shutdown _ _
  · exact spares_of_eq rfl (fun _ hid => hid) rfl
  · exact spares_of_eq rfl (fun _ hid => hid) rfl
  · split
    · exact spares_of_eq rfl (fun _ hid => hid) rfl
    · exact .refl c₁
  · split
    · exact spares_of_eq rfl (fun _ hid => hid) rfl
    · exact .refl c₁

/-! ## Opening -/

theorem spares_finishOpening (c : Connection) (ping : Outcome) :
    Spares stray owned accepted c (c.finishOpening ping).2 := by
  have htransition : Spares stray owned accepted c (c.transition [.opening] .established).2 :=
    c.spares_transition _ _
  unfold finishOpening
  split
  · split
    · next heq =>
      rw [heq] at htransition
      exact htransition
    · next heq =>
      rw [heq] at htransition
      exact htransition
  · next error => exact c.spares_shutdown "handshake failed" (some error)

theorem spares_timeout (c : Connection) : Spares stray owned accepted c c.timeout.2 :=
  spares_of_eq rfl (fun _ hid => hid) rfl

theorem spares_openingTimedOut (c : Connection) :
    Spares stray owned accepted c c.openingTimedOut.2 :=
  c.spares_timeout.trans c.keeps_timeout
    (spares_shutdown c.timeout.2 "handshake timed out" (some c.timeout.1))

/-! ## Replies -/

/-- The block in hand is answered. -/
theorem fated_answerBlock {b : Block} {fs : List InFlight} (hf : c.Fated stray owned)
    (hc : Custody owned accepted c.queue.toList (.exec b :: fs) c.store)
    (hl : c.ledger.entries = fs) (r : Reply) :
    (c.answerBlock b r).Fated stray owned ∧ c.store.StaysOff (c.answerBlock b r).store := by
  have hmem : InFlight.exec b ∈ .exec b :: fs := List.mem_cons_self
  have hblock := hc.kinds.block_owned b hmem
  cases hres : b.results? r with
  | error e =>
      have heq : c.answerBlock b r = { c with store := c.store.failBlock b e } := by
        unfold answerBlock
        rw [hres]
      have hr := Store.failBlock_resolves hc.wellFormed b e
      rw [heq]
      exact ⟨⟨hf.fates.answer hc hr (fun j hj => ⟨_, hmem, hj⟩) fun k hk => ⟨_, hmem, hk⟩,
        hf.collecting⟩, fun _ _ => hr.calledOff⟩
  | ok rs =>
      obtain ⟨-, hlen⟩ := results?_ok hres
      have hr := Store.answerBlock_resolves hc.wellFormed hlen fun j hj =>
        hc.kinds.owned_single j (hblock j hj)
      obtain ⟨n, events, heq⟩ := c.answerBlock_eq hres
      have hanswered : Fated stray owned { c with
          store := c.store.answerBlock b rs
          counters := n
          events := events } := by
        refine ⟨hf.fates.answer hc hr (fun j hj => ⟨_, hmem, ?_⟩) (fun k hk => ⟨_, hmem, hk⟩),
          hf.collecting⟩
        rw [hc.reach_block hblock]
        exact hj
      rw [heq]
      split
      · -- a critical command among the results tears the connection down
        next e _ =>
        obtain ⟨hdown, hoff⟩ := fated_shutdown hanswered (hc.resolve hr)
          (fun f hfl => List.mem_cons_of_mem _ (hl ▸ hfl)) "a critical command failed" (some e)
        exact ⟨hdown, fun id hid h =>
          hoff id ((Store.IsSingle.congr (hr.draft? id)).mpr hid) (hr.calledOff h)⟩
      · exact ⟨hanswered, fun _ _ => hr.calledOff⟩

/-- A reply is a matter of what has been picked up. -/
theorem spares_processReply (c : Connection) (r : Reply) :
    Spares stray owned accepted c (c.processReply r).2 := by
  intro hs hf
  cases h : c.ledger.entries with
  | nil =>
      rw [processReply_nil h]
      exact ⟨hf, fun _ _ hoff => hoff⟩
  | cons f fs =>
      have hc := hs.custody
      rw [h] at hc
      have hpopped : (c.popped fs).Fated stray owned := ⟨hf.fates, hf.collecting⟩
      cases f with
      | message id =>
          have hr := Store.answer_resolves hc.wellFormed (hc.message_not_batch List.mem_cons_self) r
          obtain ⟨n, events, heq⟩ := (c.popped fs).answer_eq id r
          rw [processReply_cons h]
          show (answer _ id r).2.Fated stray owned ∧ c.store.StaysOff (answer _ id r).2.store
          rw [heq]
          refine ⟨⟨hf.fates.answer hc hr (fun j hj => ⟨_, List.mem_cons_self, hj⟩) fun k hk => ?_,
            hf.collecting⟩, fun _ _ => hr.calledOff⟩
          cases hk
      | exec b =>
          obtain ⟨hanswered, hoff⟩ := fated_answerBlock hpopped hc rfl r
          obtain ⟨n, events, heq⟩ := processReply_exec (r := r) h
          rw [heq]
          exact ⟨⟨hanswered.fates, hanswered.collecting⟩, hoff⟩

end Connection

end RespMux
