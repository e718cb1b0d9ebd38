import RespMux.Proofs.Connection.Places
import RespMux.Proofs.Engine.Sound

/-!
# Elementary changes

What callers, the handshake and the clock do to a connection is made of few elementary changes:
a completion is added, tied to a message or looked at, a transaction hands on what it has collected
as a batch, a message fails, the connection is torn down, or something changes that concerns neither
messages nor frames. `Change` lists them, and `Changes` is a sequence of them through sound
connections. A property that every elementary change keeps is kept by every step that is not one of
the pumps (`step_changes`).

Besides, changes tell which messages transactions have collected meanwhile, and which messages may
have failed.
-/

set_option autoImplicit false

namespace RespMux

/-! ## Ties -/

namespace Store

variable {s s₁ s' : Store}

/-- Completions stay, each with its message. -/
def Ties (s s' : Store) : Prop :=
  ∀ (k : CompletionId) c, s.completions[k]? = some c →
    ∃ c', s'.completions[k]? = some c' ∧ c'.target = c.target

theorem Ties.refl (s : Store) : s.Ties s := fun _ c hk => ⟨c, hk, rfl⟩

theorem Ties.of_eq (h : s'.completions = s.completions) : s.Ties s' :=
  fun _ c hk => ⟨c, h ▸ hk, rfl⟩

theorem Ties.trans (h : s.Ties s₁) (h' : s₁.Ties s') : s.Ties s' := by
  intro k c hk
  obtain ⟨c₁, hk₁, ht₁⟩ := h k c hk
  obtain ⟨c', hk', ht'⟩ := h' k c₁ hk₁
  exact ⟨c', hk', ht'.trans ht₁⟩

theorem Resolves.ties {P : Outcome → Prop} {ids : List MessageId} {own : List CompletionId}
    (r : Resolves P ids own s s') : s.Ties s' := fun _ _ hk =>
  have ⟨d, hd, htarget, _⟩ := r.exists_completion hk
  ⟨d, hd, htarget⟩

end Store

namespace Connection

/-- A batch, made together with its completion. -/
def batched (c : Connection) (ms : List MessageId) : Connection :=
  { c with store := (c.store.batch ms).2.attach c.store.messages.size .unit }

/-- A transaction hands on what it has collected. -/
def handedOn (c : Connection) (t : Nat) : Connection :=
  (c.setCollected t (c.collected t).drain.2).batched (c.collected t).toList

/-- An elementary change of a connection whose callers own the messages `owned`. Transactions
collect the messages of the list, and none fails that is not `lost`, unless the connection is torn
down. -/
inductive Change (owned : List MessageId) (lost : MessageId → Prop) (c : Connection) :
    List MessageId → Connection → Prop where
  /-- neither messages nor completions nor frames -/
  | aside {gain : List MessageId} {c' : Connection} (hstore : c'.store = c.store)
      (hledger : c'.ledger = c.ledger)
      (hgathered : ∀ id, c'.gathered.count id ≤ c.gathered.count id + gain.count id) :
      Change owned lost c gain c'
  | tick (now : Duration) : Change owned lost c [] { c with store := { c.store with now := now } }
  | look (k : CompletionId) (l : Look) :
      Change owned lost c [] { c with store := c.store.modifyCompletion k l.apply }
  | ready (o : Outcome) :
      Change owned lost c [] { c with store := (c.store.addCompletion (.ready o)).2 }
  | attach {id : MessageId} {shape : Shape} (hid : id ∈ owned) (hempty : c.store.sink id = .empty) :
      Change owned lost c [] { c with store := c.store.attach id shape }
  | batch (t : Nat) : Change owned lost c [] (c.handedOn t)
  | fails {id : MessageId} (error : Error) (hlost : ∀ j ∈ c.store.scopeOf id, lost j) :
      Change owned lost c [] { c with store := c.store.fail id error }
  | shutdown (cause : String) (error : Option Error) :
      Change owned lost c [] (c.shutdown cause error)

/-- Elementary changes one after the other, each of which keeps the connection sound. -/
inductive Changes (owned accepted : List MessageId) (lost : MessageId → Prop) (c : Connection) :
    List MessageId → Connection → Prop where
  | refl : Changes owned accepted lost c [] c
  | step {gain gain' : List MessageId} {c₁ c' : Connection}
      (h : Changes owned accepted lost c gain c₁) (hkeeps : Keeps owned accepted c₁ c')
      (hchange : Change owned lost c₁ gain' c') : Changes owned accepted lost c (gain ++ gain') c'

variable {owned accepted gain gain' : List MessageId} {lost : MessageId → Prop}
variable {c c₁ c' : Connection}

/-- What every elementary change keeps, several of them keep. -/
theorem Changes.preserves {Q : Connection → Prop} (h : Changes owned accepted lost c gain c')
    (hQ : ∀ c gain c', c.Sound owned accepted → Change owned lost c gain c' → Q c → Q c')
    (hs : c.Sound owned accepted) (hq : Q c) : c'.Sound owned accepted ∧ Q c' := by
  induction h with
  | refl => exact ⟨hs, hq⟩
  | step _ hkeeps hchange ih =>
      obtain ⟨hs₁, hq₁⟩ := ih
      exact ⟨(hkeeps hs₁).1, hQ _ _ _ hs₁ hchange hq₁⟩

theorem Changes.trans (h : Changes owned accepted lost c gain c₁)
    (h' : Changes owned accepted lost c₁ gain' c') :
    Changes owned accepted lost c (gain ++ gain') c' := by
  induction h' with
  | refl =>
      rw [List.append_nil]
      exact h
  | step _ hkeeps hchange ih =>
      rw [← List.append_assoc]
      exact .step ih hkeeps hchange

theorem Changes.one (hkeeps : Keeps owned accepted c c') (hchange : Change owned lost c gain c') :
    Changes owned accepted lost c gain c' :=
  .step .refl hkeeps hchange

/-! ## The operations -/

theorem changes_shutdown (c : Connection) (cause : String) (error : Option Error) :
    Changes owned accepted lost c [] (c.shutdown cause error) :=
  .one (c.keeps_shutdown cause error) (.shutdown cause error)

theorem changes_fail {id : MessageId} (error : Error) (hlost : ∀ j ∈ c.store.scopeOf id, lost j) :
    Changes owned accepted lost c [] { c with store := c.store.fail id error } :=
  .one (keeps_resolves fun wf => Store.fail_resolves wf id error) (.fails error hlost)

theorem changes_cancel {id : MessageId} (hlost : ∀ j ∈ c.store.scopeOf id, lost j) :
    Changes owned accepted lost c [] { c with store := (c.store.cancel id).2 } := by
  by_cases hp : c.store.phase id = .notSent
  · rw [Store.cancel_of_notSent hp]
    exact changes_fail .cancelled hlost
  · rw [Store.cancel_of_ne hp]
    exact .refl

theorem changes_cancelThrough (k : CompletionId)
    (hlost : ∀ d id, c.store.completions[k]? = some d → d.target = some id →
      ∀ j ∈ c.store.scopeOf id, lost j) :
    Changes owned accepted lost c [] { c with store := (c.store.cancelThrough k).2 } := by
  rcases c.store.cancelThrough_cases k with heq | ⟨d, id, hd, ht, heq⟩
  · rw [heq]
    exact .refl
  · rw [heq]
    exact changes_cancel (hlost d id hd ht)

theorem changes_cancelAll (wf : c.store.WellFormed) (ids : List MessageId)
    (hlost : ∀ id ∈ ids, ∀ j ∈ c.store.scopeOf id, lost j) :
    Changes owned accepted lost c []
      { c with store := ids.foldl (fun s id => (s.cancel id).2) c.store } := by
  induction ids generalizing c with
  | nil => exact .refl
  | cons id ids ih =>
      have hi := Store.cancel_resolves wf id
      refine (changes_cancel (hlost id List.mem_cons_self)).trans
        (ih (c := { c with store := (c.store.cancel id).2 }) (hi.wellFormed wf)
          fun i hmem j hj => ?_)
      rw [Store.scopeOf_congr (hi.draft? i)] at hj
      exact hlost i (List.mem_cons_of_mem id hmem) j hj

theorem changes_aside (hkeeps : Keeps owned accepted c c') (hstore : c'.store = c.store)
    (hledger : c'.ledger = c.ledger)
    (hgathered : ∀ id, c'.gathered.count id ≤ c.gathered.count id + gain.count id) :
    Changes owned accepted lost c gain c' :=
  .one hkeeps (.aside hstore hledger hgathered)

theorem changes_emptied (c : Connection) (t : Nat) :
    Changes owned accepted lost c [] (c.setCollected t (c.collected t).drain.2) :=
  changes_aside (c.keeps_emptied t) rfl rfl fun id =>
    Nat.le_trans (Nat.le_add_right _ _) (c.emptied_gathered t id)

theorem changes_enqueue {id : MessageId} {priority : Priority}
    (h : c.enqueue id priority = some (.ok c')) (hid : id ∈ owned ∨ ∃ ms, c.store.IsBatch id ms) :
    Changes owned accepted lost c [] c' := by
  have hkeeps : Keeps owned accepted c c' := keeps_enqueue h hid
  unfold enqueue at h
  split at h
  · cases h
    exact changes_aside hkeeps rfl rfl fun _ => Nat.le_refl _
  · cases h
  · cases h

theorem changes_collect {t : Nat} {id : MessageId} {priority : Priority}
    (h : (collector t).enqueue c id priority = some (.ok c')) (hid : id ∈ owned) :
    Changes owned accepted lost c [id] c' := by
  have hkeeps : Keeps owned accepted c c' := keeps_collect h hid
  have hgathered := collect_gathered h
  simp only [collector] at h
  split at h
  · cases h
    exact changes_aside hkeeps rfl rfl hgathered
  · cases h
  · cases h

theorem enqueue_store {id : MessageId} {priority : Priority}
    (h : c.enqueue id priority = some (.ok c')) : c'.store = c.store := by
  unfold enqueue at h
  split at h
  · cases h
    rfl
  · cases h
  · cases h

/-- What a target gathers when it takes a message. -/
def Target.gathers : Target → MessageId → List MessageId
  | connection, _ => []
  | transaction _, id => [id]

theorem changes_executor {target : Target} {id : MessageId} {priority : Priority}
    (h : (executor target).enqueue c id priority = some (.ok c')) (hid : id ∈ owned) :
    Changes owned accepted lost c (target.gathers id) c' := by
  cases target with
  | connection => exact changes_enqueue h (Or.inl hid)
  | transaction t => exact changes_collect h hid

/-- A completion is made in any case. -/
theorem submit_completion {target : Target} {id : MessageId} {priority : Priority} {shape : Shape}
    {k : CompletionId} (h : (executor target).submit c id priority shape = some (k, c')) :
    k = c.store.completions.size := by
  have hstore : (executor target).store c = c.store := by
    cases target with
    | connection => rfl
    | transaction t => rfl
  unfold Executor.submit at h
  dsimp only at h
  rw [hstore] at h
  split at h
  · cases h
    rfl
  · split at h
    · cases h
    · cases h
      rfl
    · cases h
      rfl

/-- A message without a completer gets one, and is handed in or fails. -/
theorem submit_of_empty {target : Target} {id : MessageId} {priority : Priority} {shape : Shape}
    {k : CompletionId} (hempty : c.store.sink id = .empty)
    (h : (executor target).submit c id priority shape = some (k, c')) :
    k = c.store.completions.size
      ∧ ((executor target).enqueue { c with store := c.store.attach id shape } id priority
            = some (.ok c')
        ∨ ∃ e, (executor target).enqueue { c with store := c.store.attach id shape } id priority
              = some (.error e)
            ∧ c' = { c with store := (c.store.attach id shape).fail id e }) := by
  refine ⟨submit_completion h, ?_⟩
  rcases submit_cases h with ⟨hne, -⟩ | ⟨-, hcases⟩
  · exact absurd hempty hne
  · exact hcases

/-- A caller submits a message of its own. -/
theorem changes_submit {target : Target} {id : MessageId} {priority : Priority} {shape : Shape}
    {k : CompletionId} (hs : c.Sound owned accepted)
    (h : (executor target).submit c id priority shape = some (k, c')) (hid : id ∈ owned)
    (hlost : lost id) :
    ∃ gain, gain.Sublist (target.gathers id) ∧ Changes owned accepted lost c gain c' := by
  have hsingle := hs.custody.kinds.owned_single id hid
  have hattach : c.store.sink id = .empty →
      Changes owned accepted lost c [] { c with store := c.store.attach id shape } := fun hempty =>
    .one (keeps_attach hempty fun ms hb => absurd hb (hsingle.not_isBatch ms)) (.attach hid hempty)
  rcases submit_cases h with ⟨-, e, rfl⟩ | ⟨hempty, hok | ⟨e, -, rfl⟩⟩
  · exact ⟨[], List.nil_sublist _, .one (keeps_ready c (.error e)) (.ready (.error e))⟩
  · exact ⟨_, List.Sublist.refl _, (hattach hempty).trans (changes_executor hok hid)⟩
  · refine ⟨[], List.nil_sublist _, (hattach hempty).trans (changes_fail
      (c := { c with store := c.store.attach id shape }) e fun j hj => ?_)⟩
    rw [Store.scopeOf_congr (c.store.attach_draft? id id shape),
      hs.custody.wellFormed.scopeOf_single hsingle] at hj
    rw [List.mem_singleton.mp hj]
    exact hlost

theorem changes_discard (hs : c.Sound owned accepted) (t : Nat)
    (hlost : ∀ j ∈ (c.collected t).toList, lost j) :
    Changes owned accepted lost c [] (c.discardTransaction t).2 := by
  have wf := hs.custody.wellFormed
  refine (c.changes_emptied t).trans (changes_cancelAll
    (c := c.setCollected t (c.collected t).drain.2) wf (c.collected t).toList fun id hid j hj => ?_)
  have hsingle := hs.custody.kinds.owned_single id (hs.collected t id hid)
  change j ∈ c.store.scopeOf id at hj
  rw [wf.scopeOf_single hsingle] at hj
  rw [List.mem_singleton.mp hj]
  exact hlost id hid

/-- A batch with its completion is in custody like any other message. -/
theorem keeps_batched {ms : List MessageId} (hms : ∀ j ∈ ms, j ∈ owned) :
    Keeps owned accepted c (c.batched ms) := by
  have hmake : Keeps owned accepted c { c with store := (c.store.batch ms).2 } :=
    keeps_store fun hc => ⟨hc.batch hms, .add c.store _⟩
  exact hmake.trans (keeps_attach (c := { c with store := (c.store.batch ms).2 })
    (c.store.add_sink_self _) fun _ _ => ⟨rfl, c.store.add_phase_self _⟩)

theorem keeps_handedOn (hs : c.Sound owned accepted) (t : Nat) :
    Keeps owned accepted c (c.handedOn t) :=
  (c.keeps_emptied t).trans (keeps_batched (hs.collected t))

theorem handedOn_isBatch (c : Connection) (t : Nat) :
    (c.handedOn t).store.IsBatch c.store.messages.size (c.collected t).toList :=
  (Store.attach_isBatch _ _).mpr ⟨_, c.store.add_draft?_self _, rfl⟩

/-- What a transaction has collected goes as one batch, tied to the completion that the caller gets;
if the queue is closed it fails. -/
theorem execute_cases {t : Nat} {priority : Priority} {k : CompletionId}
    (h : c.executeTransaction t priority = some (k, c')) :
    ((c.collected t).toList = []
        ∧ c' = { c.setCollected t (c.collected t).drain.2 with
            store := (c.store.addCompletion (.ready (.ok .unit))).2 })
      ∨ (k = c.store.completions.size ∧
        ((c.handedOn t).enqueue c.store.messages.size priority = some (.ok c')
          ∨ ∃ e, (c.handedOn t).enqueue c.store.messages.size priority = some (.error e)
            ∧ c' = { c.handedOn t with
                store := (c.handedOn t).store.fail c.store.messages.size e })) := by
  unfold executeTransaction at h
  dsimp only at h
  split at h
  · next hnil =>
    cases h
    exact Or.inl ⟨List.isEmpty_iff.mp hnil, rfl⟩
  · right
    exact @submit_of_empty _ _ .connection _ _ _ _ (c.store.add_sink_self _) h

/-- The completion is tied to the batch. -/
theorem execute_ties {t : Nat} {priority : Priority} {k : CompletionId}
    (hs : c.Sound owned accepted) (h : c.executeTransaction t priority = some (k, c'))
    (hne : (c.collected t).toList ≠ []) :
    (∃ d, c'.store.completions[k]? = some d ∧ d.target = some c.store.messages.size)
      ∧ c'.store.IsBatch c.store.messages.size (c.collected t).toList := by
  have hmade : (c.handedOn t).store.completions[c.store.completions.size]?
      = some { target := some c.store.messages.size } :=
    Store.attach_completion_self _ _ .unit
  have hbatch := c.handedOn_isBatch t
  rcases execute_cases h with ⟨hnil, -⟩ | ⟨rfl, hok | ⟨e, -, rfl⟩⟩
  · exact absurd hnil hne
  · rw [enqueue_store hok]
    exact ⟨⟨_, hmade, rfl⟩, hbatch⟩
  · have wf := (keeps_handedOn hs t hs).1.custody.wellFormed
    have hr := Store.fail_resolves wf c.store.messages.size e
    obtain ⟨d, hd, ht⟩ := hr.ties _ _ hmade
    exact ⟨⟨d, hd, ht⟩, hr.isBatch.mpr hbatch⟩

theorem changes_execute {t : Nat} {priority : Priority} {k : CompletionId}
    (hs : c.Sound owned accepted) (h : c.executeTransaction t priority = some (k, c'))
    (hlost : ∀ j ∈ (c.collected t).toList, lost j) (hnew : lost c.store.messages.size) :
    Changes owned accepted lost c [] c' := by
  have hempty : Changes owned accepted lost c [] (c.setCollected t (c.collected t).drain.2) :=
    c.changes_emptied t
  have hkeeps := keeps_handedOn hs t
  have hmade : Changes owned accepted lost c [] (c.handedOn t) := .one hkeeps (.batch t)
  have hbatch := c.handedOn_isBatch t
  rcases execute_cases h with ⟨-, rfl⟩ | ⟨-, hok | ⟨e, -, rfl⟩⟩
  · exact hempty.trans (.one (keeps_ready (c.setCollected t (c.collected t).drain.2) _) (.ready _))
  · exact hmade.trans (changes_enqueue hok (Or.inr ⟨_, hbatch⟩))
  · refine hmade.trans (changes_fail e fun j hj => ?_)
    -- the batch fails with its members
    rw [(hkeeps hs).1.custody.wellFormed.scopeOf_batch hbatch] at hj
    rcases List.mem_append.mp hj with hj | hj
    · exact hlost j hj
    · rw [List.mem_singleton.mp hj]
      exact hnew

/-! ## The life of a connection -/

theorem changes_transition (c : Connection) (origins : List Lifecycle) (target : Lifecycle) :
    Changes owned accepted lost c [] (c.transition origins target).2 := by
  have hkeeps : Keeps owned accepted c (c.transition origins target).2 :=
    c.keeps_transition origins target
  obtain ⟨state, heq⟩ := c.transition_eq origins target
  rw [heq] at hkeeps ⊢
  exact changes_aside hkeeps rfl rfl fun _ => Nat.le_refl _

theorem changes_finishOpening (c : Connection) (ping : Outcome) :
    Changes owned accepted lost c [] (c.finishOpening ping).2 := by
  have htransition : Changes owned accepted lost c [] (c.transition [.opening] .established).2 :=
    c.changes_transition _ _
  unfold finishOpening
  split
  · split
    · next heq =>
      rw [heq] at htransition
      exact htransition
    · next heq =>
      rw [heq] at htransition
      exact htransition
  · next error => exact c.changes_shutdown "handshake failed" (some error)

theorem changes_timeout (c : Connection) : Changes owned accepted lost c [] c.timeout.2 :=
  changes_aside c.keeps_timeout rfl rfl fun _ => Nat.le_refl _

theorem changes_close (c : Connection) (abort : Bool) :
    Changes owned accepted lost c [] (c.close abort) := by
  have habort : Changes owned accepted lost c [] (if abort then { c with aborting := true } else c) := by
    split
    · exact changes_aside (keeps_of_eq rfl rfl rfl rfl rfl fun _ => rfl) rfl rfl fun _ => Nat.le_refl _
    · exact .refl
  unfold close
  dsimp only
  generalize (if abort then { c with aborting := true } else c) = c₁ at habort
  have hclosed : Changes owned accepted lost c₁ [] { c₁ with queue := c₁.queue.close } :=
    changes_aside c₁.keeps_closeQueue rfl rfl fun _ => Nat.le_refl _
  have hclosing : Changes owned accepted lost { c₁ with queue := c₁.queue.close } []
      { c₁ with queue := c₁.queue.close, state := .closing } :=
    changes_aside (keeps_state { c₁ with queue := c₁.queue.close } .closing) rfl rfl
      fun _ => Nat.le_refl _
  refine habort.trans ?_
  split
  · exact c₁.changes_shutdown _ _
  · exact hclosed.trans hclosing
  · exact hclosed.trans hclosing
  · split
    · exact hclosed
    · exact .refl
  · split
    · exact hclosed
    · exact .refl

/-- Completions stay tied to their messages. -/
theorem Change.ties (h : Change owned lost c gain c') (wf : c.store.WellFormed) :
    c.store.Ties c'.store := by
  cases h with
  | aside hstore =>
      rw [hstore]
      exact .refl _
  | tick => exact .refl _
  | look k l =>
      intro j d hj
      have hget : (c.store.modifyCompletion k l.apply).completions[j]?
          = if k = j then (c.store.completions[j]?).map l.apply else c.store.completions[j]? :=
        Array.getElem?_modify
      rw [hj] at hget
      split at hget
      · exact ⟨_, hget, l.apply_target d⟩
      · exact ⟨d, hget, rfl⟩
  | ready o =>
      intro j d hj
      refine ⟨d, ?_, rfl⟩
      have hget : (c.store.addCompletion (.ready o)).2.completions[j]?
          = if j = c.store.completions.size then some (.ready o) else c.store.completions[j]? :=
        Array.getElem?_push
      rw [if_neg (Nat.ne_of_lt (Array.getElem?_eq_some_iff.mp hj).1)] at hget
      exact hget.trans hj
  | attach => exact fun _ d hj => ⟨d, Store.attach_completion_of_some hj, rfl⟩
  | batch t =>
      intro j d hj
      have hj : (c.store.batch (c.collected t).toList).2.completions[j]? = some d := hj
      exact ⟨d, Store.attach_completion_of_some hj, rfl⟩
  | fails error => exact (Store.fail_resolves wf _ error).ties
  | shutdown cause error =>
      obtain ⟨ids, own, hr⟩ := shutdown_resolves wf cause error
      exact hr.ties

theorem Changes.ties (h : Changes owned accepted lost c gain c') (hs : c.Sound owned accepted) :
    c.store.Ties c'.store :=
  (h.preserves (Q := fun c' => c.store.Ties c'.store)
    (fun _ _ _ hs₁ hchange ht => ht.trans (hchange.ties hs₁.custody.wellFormed)) hs (.refl _)).2

/-! ## Places -/

theorem shutdown_transactions (c : Connection) (cause : String) (error : Option Error) :
    (c.shutdown cause error).transactions = c.transactions := by
  cases h : c.isShutDown with
  | true => rw [shutdown_of_down h]
  | false =>
      obtain ⟨events, heq⟩ := shutdown_eq h cause error
      rw [heq]

/-- How a change affects the places of a message. -/
theorem Change.places (h : Change owned lost c gain c') (wf : c.store.WellFormed)
    (id : MessageId) : c'.places id ≤ c.places id + gain.count id := by
  have hnone : c'.places id ≤ c.places id → c'.places id ≤ c.places id + gain.count id :=
    fun hle => Nat.le_trans hle (Nat.le_add_right _ _)
  cases h with
  | aside hstore _ hgathered =>
      have hgathered := hgathered id
      unfold Connection.places
      rw [hstore]
      omega
  | tick => exact hnone (places_le rfl (fun _ _ hb => hb) id)
  | look => exact hnone (places_le rfl (fun _ _ hb => hb) id)
  | ready => exact hnone (places_le rfl (fun _ _ hb => hb) id)
  | @attach j shape =>
      refine hnone (places_le ?_ (fun _ _ hb => (Store.attach_isBatch j shape).mp hb) id)
      rfl
  | batch t =>
      -- the members go from the transaction into the batch
      have hgathered := c.emptied_gathered t id
      have hbatches := c.store.batchesWith_batch (c.collected t).toList id
      have hattached : ((c.handedOn t).store.batchesWith id).length
          ≤ ((c.store.batch (c.collected t).toList).2.batchesWith id).length :=
        Store.batchesWith_le (fun b ms hb => (Store.attach_isBatch _ _).mp hb) id
      have hsame : (c.handedOn t).gathered
          = (c.setCollected t (c.collected t).drain.2).gathered := rfl
      refine hnone ?_
      unfold Connection.places
      rw [hsame]
      omega
  | @fails j error =>
      have hr := Store.fail_resolves wf j error
      refine hnone (places_le ?_ (fun b ms hb => hr.isBatch.mp hb) id)
      rfl
  | shutdown cause error =>
      obtain ⟨ids, own, hr⟩ := shutdown_resolves wf cause error
      exact hnone (places_le (c.shutdown_transactions cause error)
        (fun b ms hb => hr.isBatch.mp hb) id)

theorem Changes.places (h : Changes owned accepted lost c gain c') (hs : c.Sound owned accepted)
    (id : MessageId) :
    c'.Sound owned accepted ∧ c'.places id ≤ c.places id + gain.count id := by
  induction h with
  | refl => exact ⟨hs, Nat.le_refl _⟩
  | step _ hkeeps hchange ih =>
      obtain ⟨hs₁, hle⟩ := ih
      have hone := hchange.places hs₁.custody.wellFormed id
      rw [List.count_append]
      exact ⟨(hkeeps hs₁).1, by omega⟩

/-! ## Who fails -/

/-- Only what may be lost comes to an end, unless the connection is torn down. -/
theorem Change.phase {id : MessageId} (h : Change owned lost c gain c')
    (wf : c.store.WellFormed) (hid : id < c.store.messages.size) (hlost : ¬ lost id) :
    c'.store.phase id = c.store.phase id ∨ c'.isShutDown = true := by
  cases h with
  | aside hstore =>
      rw [hstore]
      exact Or.inl rfl
  | tick => exact Or.inl rfl
  | look => exact Or.inl rfl
  | ready => exact Or.inl rfl
  | @attach j shape => exact Or.inl (c.store.attach_phase j id shape)
  | batch t => exact Or.inl ((Store.attach_phase _ _ _ _).trans (Store.add_phase_of_lt _ hid))
  | @fails j error hj =>
      have hr := Store.fail_resolves wf j error
      exact Or.inl (Store.phase_congr (hr.messages id fun hmem => hlost (hj id hmem)))
  | shutdown cause error => exact Or.inr (c.shutdown_down cause error)

theorem Changes.phase {id : MessageId} (h : Changes owned accepted lost c gain c')
    (hs : c.Sound owned accepted) (hid : id < c.store.messages.size) (hlost : ¬ lost id) :
    c'.store.phase id = c.store.phase id ∨ c'.isShutDown = true := by
  have hall : c'.Sound owned accepted ∧ id < c'.store.messages.size
      ∧ (c'.store.phase id = c.store.phase id ∨ c'.isShutDown = true) := by
    induction h with
    | refl => exact ⟨hs, hid, Or.inl rfl⟩
    | step _ hkeeps hchange ih =>
        obtain ⟨hs₁, hid₁, hphase⟩ := ih
        obtain ⟨hs', hcont⟩ := hkeeps hs₁
        refine ⟨hs', Nat.lt_of_lt_of_le hid₁ hcont.grows.size_le, ?_⟩
        rcases hphase with hsame | hdown
        · rw [← hsame]
          exact hchange.phase hs₁.custody.wellFormed hid₁ hlost
        · exact Or.inr (hcont.down hdown)
  exact hall.2.2

end Connection

namespace Event

/-- The step gives up or may refuse the message. -/
def strikes : Event → MessageId → Prop
  | submit _ j _ _, id => j = id
  | fail j _, id => j = id
  | cancel j, id => j = id
  | _, _ => False

/-- The step hands the message in or gives it up. -/
def deals : Event → MessageId → Bool
  | put _ j _, id => j = id
  | submit _ j _ _, id => j = id
  | fail j _, id => j = id
  | _, _ => false

/-- What transactions may collect in the step. -/
def gathers : Event → List MessageId
  | put target id _ => target.gathers id
  | submit target id _ _ => target.gathers id
  | _ => []

end Event

namespace Engine

variable {accepted : List MessageId} {e e' : Engine} {ev : Event}

/-- The message may fail in a step that is not one of the pumps: somebody gives it up or cancels it,
through its completion perhaps, or it waits for its block, or it is new. -/
def Struck (e : Engine) (ev : Event) (id : MessageId) : Prop :=
  ev.strikes id
    ∨ (∃ k c, ev = .cancelThrough k ∧ e.store.completions[k]? = some c ∧ c.target = some id)
    ∨ 0 < e.connection.places id ∨ e.store.messages.size ≤ id

/-- In the step the message is given up, cancelled or refused, by itself or with the batch or the
transaction that it is in. -/
def GivesUp (e : Engine) : Event → MessageId → Prop
  | .submit _ j _ _, id => j = id
  | .fail j _, id => j = id
  | .cancel j, id => j = id
  | .cancelThrough k, id =>
      ∃ c x, e.store.completions[k]? = some c ∧ c.target = some x ∧ id ∈ e.store.scopeOf x
  | .execute t _, id => id ∈ (e.connection.collected t).toList
  | .discard t, id => id ∈ (e.connection.collected t).toList
  | _, _ => False

theorem GivesUp.struck {id : MessageId} (h : e.GivesUp ev id) (hs : e.Sound accepted)
    (htarget : ∀ (k : CompletionId) c id, e.store.completions[k]? = some c → c.target = some id →
      id ∈ e.owned ∨ ∃ ms, e.store.IsBatch id ms) : e.Struck ev id := by
  have wf : e.store.WellFormed := hs.custody.wellFormed
  cases ev with
  | submit target j priority shape => exact Or.inl h
  | fail j error => exact Or.inl h
  | cancel j => exact Or.inl h
  | cancelThrough k =>
      obtain ⟨c, x, hk, ht, hid⟩ := h
      rcases htarget k c x hk ht with ho | ⟨ms, hb⟩
      · rw [wf.scopeOf_single (hs.custody.kinds.owned_single x ho), List.mem_singleton] at hid
        exact Or.inr (Or.inl ⟨k, c, rfl, hk, hid ▸ ht⟩)
      · rw [wf.scopeOf_batch hb] at hid
        rcases List.mem_append.mp hid with hm | hm
        · exact Or.inr (Or.inr (Or.inl (Connection.places_pos_of_batch hb hm)))
        · exact Or.inr (Or.inl ⟨k, c, rfl, hk, List.mem_singleton.mp hm ▸ ht⟩)
  | execute t priority => exact Or.inr (Or.inr (Or.inl (Connection.places_pos_of_collected h)))
  | discard t => exact Or.inr (Or.inr (Or.inl (Connection.places_pos_of_collected h)))
  | _ => cases h

theorem changes_settle (e : Engine) {lost : MessageId → Prop} :
    Connection.Changes e.owned accepted lost e.connection [] e.writer.settle.connection := by
  rcases settle_cases e.writer with heq | ⟨error, heq⟩
  · rw [heq]
    exact .refl
  · rw [heq]
    exact e.connection.changes_shutdown "error writing to the connection" (some error)

/-- A step that neither is one of the pumps nor makes a message is a sequence of elementary changes,
in which only those messages fail that the step gives up. -/
theorem step_changes_lost (hs : e.Sound accepted) {lost : MessageId → Prop}
    (hlost : ∀ id, e.GivesUp ev id ∨ e.store.messages.size ≤ id → lost id)
    (hq : ev.isQuiet = true) (hmake : ∀ r, ev ≠ .make r) (h : e.step ev = some e') :
    ∃ gain, gain.Sublist ev.gathers
      ∧ Connection.Changes e.owned accepted lost e.connection gain e'.connection := by
  have wf : e.connection.store.WellFormed := hs.custody.wellFormed
  have hgives : ∀ id, e.GivesUp ev id → lost id := fun id h => hlost id (Or.inl h)
  -- most steps gather nothing
  have hnone : Connection.Changes e.owned accepted lost e.connection [] e'.connection →
      ∃ gain, gain.Sublist ev.gathers
        ∧ Connection.Changes e.owned accepted lost e.connection gain e'.connection :=
    fun hchanges => ⟨[], List.nil_sublist _, hchanges⟩
  have hscope : ∀ id ∈ e.owned, e.GivesUp ev id → ∀ j ∈ e.store.scopeOf id, lost j := by
    intro id ho hgivesUp j hj
    have hone : e.store.scopeOf id = [id] :=
      wf.scopeOf_single (hs.custody.kinds.owned_single id ho)
    rw [hone] at hj
    rw [List.mem_singleton.mp hj]
    exact hgives id hgivesUp
  cases ev with
  | make r => exact absurd rfl (hmake r)
  | attach id shape =>
      obtain ⟨ho, hempty, rfl⟩ := step_attach_inv h
      have hbatch : ∀ ms, e.store.IsBatch id ms → shape = .unit ∧ e.store.phase id = .notSent :=
        fun ms hb => absurd hb ((hs.custody.kinds.owned_single id ho).not_isBatch ms)
      exact hnone (.one (Connection.keeps_attach hempty hbatch) (.attach ho hempty))
  | put target id priority =>
      obtain ⟨ho, ⟨c, henq, rfl⟩ | ⟨-, rfl⟩⟩ := step_put_inv h
      · exact ⟨_, List.Sublist.refl _, Connection.changes_executor henq ho⟩
      · exact hnone .refl
  | submit target id priority shape =>
      obtain ⟨ho, k, c, hsubmit, rfl⟩ := step_submit_inv h
      exact Connection.changes_submit hs hsubmit ho (hgives id rfl)
  | fail id error =>
      obtain ⟨ho, rfl⟩ := step_fail_inv h
      exact hnone (Connection.changes_fail error (hscope id ho rfl))
  | cancel id =>
      obtain ⟨ho, rfl⟩ := step_cancel_inv h
      exact hnone (Connection.changes_cancel (hscope id ho rfl))
  | cancelThrough k =>
      cases h
      exact hnone (Connection.changes_cancelThrough k fun c id hk ht j hj =>
        hgives j ⟨c, id, hk, ht, hj⟩)
  | look k l =>
      cases h
      exact hnone (.one (Connection.keeps_look _ k (Look.apply_target l)
        (fun _ => Look.apply_waits) (Look.apply_abandoned l)) (.look k l))
  | timeOut =>
      cases h
      exact hnone e.connection.changes_timeout
  | newTransaction =>
      cases h
      refine hnone (Connection.changes_aside (Connection.keeps_newTransaction _) rfl rfl fun id => ?_)
      exact Nat.le_of_eq (congrArg (List.count id) e.connection.newTransaction_gathered)
  | execute t priority =>
      obtain ⟨k, c, hexecute, rfl⟩ := step_execute_inv h
      exact hnone (Connection.changes_execute hs hexecute (fun j hj => hgives j hj)
        (hlost _ (Or.inr (Nat.le_refl _))))
  | discard t =>
      cases h
      exact hnone (Connection.changes_discard hs t fun j hj => hgives j hj)
  | beginOpening =>
      cases h
      exact hnone (e.connection.changes_transition _ _)
  | connectFailed error =>
      cases h
      exact hnone (e.connection.changes_shutdown "connect failed" (some error))
  | finishOpening ping =>
      cases h
      exact hnone (e.connection.changes_finishOpening ping)
  | openingTimedOut =>
      cases h
      exact hnone (e.connection.changes_timeout.trans
        (Connection.changes_shutdown e.connection.timeout.2 "handshake timed out"
          (some e.connection.timeout.1)))
  | close abort =>
      cases h
      exact hnone (e.connection.changes_close abort)
  | shutdown cause error =>
      cases h
      exact hnone (e.connection.changes_shutdown cause error)
  | settle =>
      cases h
      exact hnone e.changes_settle
  | breakWrites text =>
      cases h
      exact hnone .refl
  | tick now =>
      cases h
      exact hnone (.one (keeps_tick _ now) (.tick now))
  | round => cases hq
  | finish => cases hq
  | reply r => cases hq

theorem step_changes (hs : e.Sound accepted)
    (htarget : ∀ (k : CompletionId) c id, e.store.completions[k]? = some c → c.target = some id →
      id ∈ e.owned ∨ ∃ ms, e.store.IsBatch id ms)
    (hq : ev.isQuiet = true) (hmake : ∀ r, ev ≠ .make r) (h : e.step ev = some e') :
    ∃ gain, gain.Sublist ev.gathers
      ∧ Connection.Changes e.owned accepted (e.Struck ev) e.connection gain e'.connection := by
  refine step_changes_lost hs (fun id hid => ?_) hq hmake h
  rcases hid with hgives | hnew
  · exact hgives.struck hs htarget
  · exact Or.inr (Or.inr (Or.inr hnew))

end Engine

end RespMux
