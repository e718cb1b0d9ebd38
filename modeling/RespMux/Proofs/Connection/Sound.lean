import RespMux.Connection.Handshake
import RespMux.Proofs.Custody.Moves

/-!
# Sound connections

In a sound connection everything is in custody, transactions collect only messages of callers, and
a connection that has been torn down is empty and takes nothing. `Keeps` says that an operation
keeps a connection sound and does not touch the ledger, unless it tears the connection down; it
holds of everything that callers and the handshake do, and composes (`Keeps.trans`).
-/

set_option autoImplicit false

namespace RespMux

theorem PriorityQueue.enqueue_ok {α : Type} {q q' : PriorityQueue α} {x : α} {p : Priority}
    {wakes : Bool} (h : q.enqueue x p = .done (.ok ()) q' wakes) :
    q.isClosed = false ∧ ∀ y, y ∈ q'.toList ↔ y = x ∨ y ∈ q.toList := by
  obtain ⟨high, standard, isClosed, limit, limit_pos⟩ := q
  unfold enqueue at h
  cases isClosed with
  | true => cases h
  | false =>
      refine ⟨rfl, fun y => ?_⟩
      cases p with
      | high =>
          cases h
          -- the new element is at the end of the first half
          simp only [toList, List.mem_append, List.mem_singleton]
          constructor
          · rintro ((hy | hy) | hy)
            · exact Or.inr (Or.inl hy)
            · exact Or.inl hy
            · exact Or.inr (Or.inr hy)
          · rintro (hy | hy | hy)
            · exact Or.inl (Or.inr hy)
            · exact Or.inl (Or.inl hy)
            · exact Or.inr hy
      | standard =>
          simp only [Bool.false_eq_true, if_false] at h
          split at h
          · cases h
          · cases h
            -- or at the end of the second
            simp only [toList, List.mem_append, List.mem_singleton]
            constructor
            · rintro (hy | hy | hy)
              · exact Or.inr (Or.inl hy)
              · exact Or.inr (Or.inr hy)
              · exact Or.inl hy
            · rintro (hy | hy | hy)
              · exact Or.inr (Or.inr hy)
              · exact Or.inl hy
              · exact Or.inr (Or.inl hy)

namespace Connection

/-- Everything that was handed in is held by somebody who will deal with it. -/
structure Sound (owned accepted : List MessageId) (c : Connection) : Prop where
  custody : Custody owned accepted c.queue.toList c.ledger.entries c.store
  collected : ∀ t, ∀ id ∈ (c.collected t).toList, id ∈ owned
  recording : c.isShutDown = false → c.ledger.isClosed = false
  down : c.isShutDown = true →
    c.queue.isClosed = true ∧ c.queue.toList = [] ∧ c.ledger.entries = [] ∧ c.aborting = true

/-- A connection that does not abort has not been torn down. -/
theorem Sound.open_of_not_aborting {owned accepted : List MessageId} {c : Connection}
    (h : c.Sound owned accepted) (ha : c.aborting = false) : c.isShutDown = false := by
  cases hd : c.isShutDown with
  | false => rfl
  | true =>
      rw [(h.down hd).2.2.2] at ha
      cases ha

/-- What a step of somebody other than the pumps may do: it adds messages, and it leaves the ledger
alone or tears the connection down for good. -/
structure Continues (c c' : Connection) : Prop where
  grows : c.store.Grows c'.store
  down : c.isShutDown = true → c'.isShutDown = true
  ledger : c'.isShutDown = false → c'.ledger = c.ledger

theorem Continues.refl (c : Connection) : Continues c c where
  grows := .refl _
  down h := h
  ledger _ := rfl

/-- A connection that is not torn down has not been before. -/
theorem Continues.open {c c' : Connection} (h : Continues c c') (hd : c'.isShutDown = false) :
    c.isShutDown = false := by
  cases hc : c.isShutDown with
  | false => rfl
  | true =>
      rw [h.down hc] at hd
      cases hd

theorem Continues.trans {c c₁ c' : Connection} (h : Continues c c₁) (h' : Continues c₁ c') :
    Continues c c' where
  grows := h.grows.trans h'.grows
  down hd := h'.down (h.down hd)
  ledger hd := (h'.ledger hd).trans (h.ledger (h'.open hd))

/-- A sound connection stays sound. -/
def Keeps (owned accepted : List MessageId) (c c' : Connection) : Prop :=
  c.Sound owned accepted → c'.Sound owned accepted ∧ Continues c c'

variable {owned accepted : List MessageId} {c c₁ c' : Connection}

theorem Keeps.refl (c : Connection) : Keeps owned accepted c c := fun h => ⟨h, .refl c⟩

theorem Keeps.trans (h : Keeps owned accepted c c₁) (h' : Keeps owned accepted c₁ c') :
    Keeps owned accepted c c' := by
  intro hs
  obtain ⟨hs₁, hc₁⟩ := h hs
  obtain ⟨hs', hc'⟩ := h' hs₁
  exact ⟨hs', hc₁.trans hc'⟩

/-! ## Parts of the state -/

/-- Only the configuration, the counters, the lifecycle, the listeners and the wish to abort have
changed. -/
theorem keeps_of_eq (hstore : c'.store = c.store) (hqueue : c'.queue = c.queue)
    (hledger : c'.ledger = c.ledger) (htransactions : c'.transactions = c.transactions)
    (hdown : c'.isShutDown = c.isShutDown) (haborting : c.aborting = true → c'.aborting = true) :
    Keeps owned accepted c c' := by
  intro h
  refine ⟨⟨?_, ?_, ?_, ?_⟩, ⟨?_, ?_, ?_⟩⟩
  · rw [hstore, hqueue, hledger]
    exact h.custody
  · unfold collected
    rw [htransactions]
    exact h.collected
  · rw [hdown, hledger]
    exact h.recording
  · rw [hdown, hqueue, hledger]
    intro hd
    obtain ⟨hc, hq, hl, ha⟩ := h.down hd
    exact ⟨hc, hq, hl, haborting ha⟩
  · rw [hstore]
    exact .refl _
  · intro hd
    exact hdown.trans hd
  · intro _
    exact hledger

/-- The store changes and stays in custody. -/
theorem Sound.withStore (h : c.Sound owned accepted) {owned' : List MessageId} {s : Store}
    (hc : Custody owned' accepted c.queue.toList c.ledger.entries s)
    (ho : ∀ id ∈ owned, id ∈ owned') :
    ({ c with store := s } : Connection).Sound owned' accepted where
  custody := hc
  collected t id hid := ho id (h.collected t id hid)
  recording := h.recording
  down := h.down

theorem Continues.withStore {s : Store} (hg : c.store.Grows s) :
    Continues c { c with store := s } where
  grows := hg
  down h := h
  ledger _ := rfl

theorem keeps_store {s : Store}
    (h : Custody owned accepted c.queue.toList c.ledger.entries c.store →
      Custody owned accepted c.queue.toList c.ledger.entries s ∧ c.store.Grows s) :
    Keeps owned accepted c { c with store := s } := by
  intro hs
  obtain ⟨hc, hg⟩ := h hs.custody
  exact ⟨hs.withStore hc fun _ hid => hid, .withStore hg⟩

/-- Giving out outcomes. -/
theorem keeps_resolves {P : Outcome → Prop} {ids : List MessageId} {own : List CompletionId}
    {s : Store} (h : c.store.WellFormed → c.store.Resolves P ids own s) :
    Keeps owned accepted c { c with store := s } :=
  keeps_store fun hc => by
    have hr := h hc.wellFormed
    exact ⟨hc.resolve hr, .of_draft? hr.draft?⟩

/-- A transaction collects something else. -/
theorem setCollected_collected (c : Connection) (t t' : Nat) (q : PriorityQueue MessageId) :
    ∀ id ∈ ((c.setCollected t q).collected t').toList,
      id ∈ q.toList ∨ id ∈ (c.collected t').toList := by
  intro id hid
  unfold collected setCollected at hid
  dsimp only at hid
  by_cases ht : t = t'
  · subst ht
    by_cases hlt : t < c.transactions.size
    · rw [Array.getElem?_setIfInBounds_self_of_lt hlt] at hid
      exact Or.inl hid
    · rw [Array.getElem?_setIfInBounds_self, if_neg hlt] at hid
      cases hid
  · rw [Array.getElem?_setIfInBounds_ne ht] at hid
    exact Or.inr hid

theorem keeps_setCollected (t : Nat) {q : PriorityQueue MessageId}
    (hq : ∀ id ∈ q.toList, id ∈ owned) : Keeps owned accepted c (c.setCollected t q) := by
  intro h
  refine ⟨⟨h.custody, fun t' id hid => ?_, h.recording, h.down⟩,
    ⟨.refl _, fun hd => hd, fun _ => rfl⟩⟩
  rcases c.setCollected_collected t t' q id hid with hid | hid
  · exact hq id hid
  · exact h.collected t' id hid

/-! ## Handing in -/

/-- Putting a message into the queue of the connection. -/
theorem keeps_enqueue {id : MessageId} {priority : Priority}
    (h : c.enqueue id priority = some (.ok c'))
    (hid : id ∈ owned ∨ ∃ ms, c.store.IsBatch id ms) : Keeps owned accepted c c' := by
  unfold enqueue at h
  split at h
  · next q w henq =>
    cases h
    obtain ⟨hclosed, hmem⟩ := PriorityQueue.enqueue_ok henq
    intro hs
    refine ⟨⟨?_, hs.collected, hs.recording, fun hd => ?_⟩, ⟨.refl _, fun hd => hd, fun _ => rfl⟩⟩
    · refine hs.custody.enqueue (fun j hj => (hmem j).mpr (Or.inr hj)) fun j hj => ?_
      rcases (hmem j).mp hj with rfl | hj
      · exact hid
      · exact hs.custody.kinds.queued_kind j hj
    · rw [(hs.down hd).1] at hclosed
      cases hclosed
  · cases h
  · cases h

/-- Putting a message into a transaction. -/
theorem keeps_collect {t : Nat} {id : MessageId} {priority : Priority}
    (h : (collector t).enqueue c id priority = some (.ok c')) (hid : id ∈ owned) :
    Keeps owned accepted c c' := by
  simp only [collector] at h
  split at h
  · next q w henq =>
    cases h
    intro hs
    refine keeps_setCollected t (fun j hj => ?_) hs
    rcases ((PriorityQueue.enqueue_ok henq).2 j).mp hj with rfl | hj
    · exact hid
    · exact hs.collected t j hj
  · cases h
  · cases h

theorem keeps_executor {target : Target} {id : MessageId} {priority : Priority}
    (h : (executor target).enqueue c id priority = some (.ok c')) (hid : id ∈ owned) :
    Keeps owned accepted c c' := by
  cases target with
  | connection => exact keeps_enqueue h (Or.inl hid)
  | transaction t => exact keeps_collect h hid

/-! ## Completions -/

/-- A message that has no completer yet takes one. -/
theorem assign_ok {s s' : Store} {id : MessageId} {shape : Shape}
    (h : (s.addCompletion {}).2.assign id ⟨s.completions.size, shape⟩ = .ok s') :
    s.sink id = .empty ∧ s'.link s.completions.size id = s.attach id shape := by
  unfold Store.assign at h
  split at h
  · next hsink =>
    cases h
    exact ⟨hsink, rfl⟩
  · cases h

/-- A completion that has its outcome from the start. -/
theorem keeps_ready (c : Connection) (o : Outcome) :
    Keeps owned accepted c { c with store := (c.store.addCompletion (.ready o)).2 } := by
  refine keeps_store fun hc =>
    ⟨hc.observe (fun _ => rfl) (fun _ => rfl) (fun _ => rfl) ?_ ?_ ?_, ?_⟩
  · -- the new completion does not wait, it has its outcome
    intro k c' hk hw
    change (c.store.completions.push (.ready o))[k]? = some c' at hk
    rw [Array.getElem?_push] at hk
    split at hk
    · cases hk
      cases hw.1
    · exact ⟨c', hk, rfl, hw⟩
  · intro k d hk
    refine ⟨d, ?_, rfl⟩
    change (c.store.completions.push (.ready o))[k]? = some d
    rw [Array.getElem?_push, if_neg (Nat.ne_of_lt (Array.getElem?_eq_some_iff.mp hk).1)]
    exact hk
  · -- and so it has not been abandoned
    intro hkept k d hk
    change (c.store.completions.push (.ready o))[k]? = some d at hk
    rw [Array.getElem?_push] at hk
    split at hk
    · cases hk
      exact Stage.noConfusion
    · exact hkept k d hk
  · exact .of_draft? fun _ => rfl

theorem keeps_attach {id : MessageId} {shape : Shape} (hempty : c.store.sink id = .empty)
    (hbatch : ∀ ms, c.store.IsBatch id ms → shape = .unit ∧ c.store.phase id = .notSent) :
    Keeps owned accepted c { c with store := c.store.attach id shape } :=
  keeps_store fun hc =>
    ⟨hc.attach hempty hbatch, .of_draft? fun j => c.store.attach_draft? id j shape⟩

/-- A look at a completion neither ties it to another message nor lets it wait again. -/
theorem keeps_look (c : Connection) (k : CompletionId) {f : Completion → Completion}
    (ht : ∀ d, (f d).target = d.target) (hw : ∀ d, (f d).Waits → d.Waits)
    (ha : ∀ d, d.stage ≠ .abandoned → (f d).stage ≠ .abandoned) :
    Keeps owned accepted c { c with store := c.store.modifyCompletion k f } := by
  have hget : ∀ j : CompletionId, (c.store.modifyCompletion k f).completions[j]?
      = if k = j then (c.store.completions[j]?).map f else c.store.completions[j]? :=
    fun j => Array.getElem?_modify
  refine keeps_store fun hc =>
    ⟨hc.observe (fun _ => rfl) (fun _ => rfl) (fun _ => rfl) ?_ ?_ ?_, ?_⟩
  · intro j d hj hwaits
    rw [hget] at hj
    split at hj
    · obtain ⟨d₀, hd₀, rfl⟩ := Option.map_eq_some_iff.mp hj
      exact ⟨d₀, hd₀, (ht d₀).symm, hw d₀ hwaits⟩
    · exact ⟨d, hj, rfl, hwaits⟩
  · intro j d hj
    rw [hget, hj]
    split
    · exact ⟨f d, rfl, ht d⟩
    · exact ⟨d, rfl, rfl⟩
  · intro hkept j d hj
    rw [hget] at hj
    split at hj
    · obtain ⟨d₀, hd₀, rfl⟩ := Option.map_eq_some_iff.mp hj
      exact ha d₀ (hkept j d₀ hd₀)
    · exact hkept j d hj
  · exact .of_draft? fun _ => rfl

/-! ## Submitting -/

/-- A message that has a completer is not submitted; one that is refused fails. -/
theorem submit_cases {target : Target} {id : MessageId} {priority : Priority} {shape : Shape}
    {k : CompletionId} (h : (executor target).submit c id priority shape = some (k, c')) :
    (c.store.sink id ≠ .empty
        ∧ ∃ e, c' = { c with store := (c.store.addCompletion (.ready (.error e))).2 })
      ∨ (c.store.sink id = .empty
        ∧ ((executor target).enqueue { c with store := c.store.attach id shape } id priority
              = some (.ok c')
          ∨ ∃ e, (executor target).enqueue { c with store := c.store.attach id shape } id priority
                = some (.error e)
              ∧ c' = { c with store := (c.store.attach id shape).fail id e })) := by
  have hstore : (executor target).store c = c.store := by
    cases target with
    | connection => rfl
    | transaction t => rfl
  have hwith : ∀ s, (executor target).withStore c s = { c with store := s } := by
    intro s
    cases target with
    | connection => rfl
    | transaction t => rfl
  unfold Executor.submit at h
  dsimp only at h
  rw [hstore] at h
  split at h
  · -- the message has a completer: the new completion is given the error at once
    next e hassign =>
    cases h
    refine Or.inl ⟨fun hempty => ?_, e, hwith _⟩
    unfold Store.assign at hassign
    rw [show (c.store.addCompletion {}).2.sink id = .empty from hempty] at hassign
    cases hassign
  · -- otherwise the executor takes the message or makes it fail
    next s' hassign =>
    obtain ⟨hsink, hlink⟩ := assign_ok hassign
    refine Or.inr ⟨hsink, ?_⟩
    rw [show (c.store.addCompletion {}).1 = c.store.completions.size from rfl, hlink, hwith] at h
    split at h
    · cases h
    · next henq =>
      cases h
      exact Or.inl henq
    · next e henq =>
      cases h
      exact Or.inr ⟨e, henq, hwith _⟩

/-- Submitting keeps the connection sound if the executor does so with what it takes. -/
theorem keeps_submit {target : Target} {id : MessageId} {priority : Priority} {shape : Shape}
    {k : CompletionId} (h : (executor target).submit c id priority shape = some (k, c'))
    (hbatch : ∀ ms, c.store.IsBatch id ms → shape = .unit ∧ c.store.phase id = .notSent)
    (henq : ∀ c', (executor target).enqueue { c with store := c.store.attach id shape } id priority
        = some (.ok c') → Keeps owned accepted { c with store := c.store.attach id shape } c') :
    Keeps owned accepted c c' := by
  rcases submit_cases h with ⟨-, e, rfl⟩ | ⟨hempty, hok | ⟨e, -, rfl⟩⟩
  · exact keeps_ready c (.error e)
  · exact (keeps_attach hempty hbatch).trans (henq c' hok)
  · refine (keeps_attach hempty hbatch).trans ?_
    exact keeps_resolves (c := { c with store := c.store.attach id shape }) fun wf =>
      Store.fail_resolves wf id e

/-- A caller submits a message of its own. -/
theorem keeps_submit_owned {target : Target} {id : MessageId} {priority : Priority}
    {shape : Shape} {k : CompletionId}
    (h : (executor target).submit c id priority shape = some (k, c')) (hid : id ∈ owned) :
    Keeps owned accepted c c' := by
  intro hs
  refine keeps_submit h (fun ms hb => ?_) (fun c' hok => keeps_executor hok hid) hs
  exact absurd hb ((hs.custody.kinds.owned_single id hid).not_isBatch ms)

/-! ## The end -/

theorem shutdown_of_down (h : c.isShutDown = true) (cause : String) (error : Option Error) :
    c.shutdown cause error = c := by
  unfold shutdown
  rw [if_pos h]

/-- What a shutdown does to the parts that matter here. -/
theorem shutdown_eq (h : c.isShutDown = false) (cause : String) (error : Option Error) :
    ∃ events, c.shutdown cause error =
      { c with
        isShutDown := true
        aborting := true
        state := .closed
        events := events
        ledger := { entries := [], isClosed := true }
        queue := c.queue.close.drain.2
        store := c.queue.toList.foldl (fun s id => s.fail id (.connectionTerminated cause))
          (c.ledger.entries.foldl (fun s f => s.failInFlight f (.connectionTerminated cause))
            c.store) } := by
  unfold shutdown
  rw [if_neg (by rw [h]; decide)]
  cases error with
  | none => exact ⟨_, rfl⟩
  | some e => exact ⟨_, rfl⟩

theorem shutdown_state (h : c.isShutDown = false) (cause : String) (error : Option Error) :
    (c.shutdown cause error).state = .closed := by
  obtain ⟨events, heq⟩ := shutdown_eq h cause error
  rw [heq]

/-- The listener is told why. -/
theorem shutdown_events (h : c.isShutDown = false) (cause : String) (e : Error) :
    (c.shutdown cause (some e)).events = c.events.publish ⟨e, cause, true⟩ := by
  unfold shutdown
  rw [if_neg (by rw [h]; decide)]
  rfl

/-- Whoever still waits when the connection is torn down gets its cause. -/
theorem shutdown_resolves (wf : c.store.WellFormed) (cause : String) (error : Option Error) :
    ∃ ids own, c.store.Resolves (· = .error (.connectionTerminated cause)) ids own
      (c.shutdown cause error).store := by
  cases h : c.isShutDown with
  | true =>
      rw [shutdown_of_down h]
      exact ⟨[], [], .refl _ _⟩
  | false =>
      obtain ⟨events, heq⟩ := shutdown_eq h cause error
      have hsent := Store.foldl_failInFlight_resolves wf c.ledger.entries
        (.connectionTerminated cause)
      have hunsent := Store.foldl_fail_resolves (hsent.wellFormed wf) c.queue.toList
        (.connectionTerminated cause)
      rw [heq]
      exact ⟨_, _, hsent.trans hunsent⟩

theorem shutdown_down (c : Connection) (cause : String) (error : Option Error) :
    (c.shutdown cause error).isShutDown = true := by
  cases h : c.isShutDown with
  | true =>
      rw [shutdown_of_down h]
      exact h
  | false =>
      obtain ⟨events, heq⟩ := shutdown_eq h cause error
      rw [heq]

/-- A shutdown empties the ledger and the queue, and loses nothing. -/
theorem keeps_shutdown (c : Connection) (cause : String) (error : Option Error) :
    Keeps owned accepted c (c.shutdown cause error) := by
  intro hs
  cases h : c.isShutDown with
  | true =>
      rw [shutdown_of_down h]
      exact ⟨hs, .refl c⟩
  | false =>
      obtain ⟨ids, own, hr⟩ := shutdown_resolves hs.custody.wellFormed cause error
      obtain ⟨events, heq⟩ := shutdown_eq h cause error
      have hframes : Custody owned accepted c.queue.toList (c.ledger.entries ++ []) c.store := by
        rw [List.append_nil]
        exact hs.custody
      -- frames in flight fail first, then what is queued, so nothing is held afterwards
      have hempty := (hframes.failFrames (.connectionTerminated cause)).failAllQueued
        (.connectionTerminated cause)
      refine ⟨⟨?_, ?_, ?_, ?_⟩, ⟨.of_draft? hr.draft?, ?_, ?_⟩⟩
      · rw [heq]
        exact hempty
      · rw [heq]
        exact hs.collected
      · rw [heq]
        intro hd
        cases hd
      · rw [heq]
        intro _
        exact ⟨rfl, rfl, rfl, rfl⟩
      · intro _
        exact c.shutdown_down cause error
      · rw [shutdown_down]
        intro hd
        cases hd

/-- A queue that is closed holds what it held. -/
theorem keeps_closeQueue (c : Connection) :
    Keeps owned accepted c { c with queue := c.queue.close } := by
  intro hs
  refine ⟨⟨hs.custody, hs.collected, hs.recording, fun hd => ?_⟩,
    ⟨.refl _, fun hd => hd, fun _ => rfl⟩⟩
  obtain ⟨-, hq, hl, ha⟩ := hs.down hd
  exact ⟨rfl, hq, hl, ha⟩

theorem keeps_state (c : Connection) (state : Lifecycle) :
    Keeps owned accepted c { c with state := state } :=
  keeps_of_eq rfl rfl rfl rfl rfl fun h => h

theorem transition_eq (c : Connection) (origins : List Lifecycle) (target : Lifecycle) :
    ∃ state, (c.transition origins target).2 = { c with state := state } := by
  unfold transition
  split
  · exact ⟨target, rfl⟩
  · exact ⟨c.state, rfl⟩

theorem keeps_transition (c : Connection) (origins : List Lifecycle) (target : Lifecycle) :
    Keeps owned accepted c (c.transition origins target).2 := by
  obtain ⟨state, heq⟩ := c.transition_eq origins target
  rw [heq]
  exact keeps_state c state

theorem keeps_emit (c : Connection) (error : Error) (cause : String) (fatal : Bool) :
    Keeps owned accepted c (c.emit error cause fatal) :=
  keeps_of_eq rfl rfl rfl rfl rfl fun h => h

theorem keeps_count (c : Connection) (t : Traffic) : Keeps owned accepted c (c.count t) :=
  keeps_of_eq rfl rfl rfl rfl rfl fun h => h

theorem keeps_close (c : Connection) (abort : Bool) : Keeps owned accepted c (c.close abort) := by
  have habort : Keeps owned accepted c (if abort then { c with aborting := true } else c) := by
    split
    · exact keeps_of_eq rfl rfl rfl rfl rfl fun _ => rfl
    · exact .refl c
  unfold close
  dsimp only
  generalize (if abort then { c with aborting := true } else c) = c₁ at habort
  refine habort.trans ?_
  split
  · exact keeps_shutdown c₁ _ _
  · exact (keeps_closeQueue c₁).trans (keeps_state _ .closing)
  · exact (keeps_closeQueue c₁).trans (keeps_state _ .closing)
  · split
    · exact keeps_closeQueue c₁
    · exact .refl c₁
  · split
    · exact keeps_closeQueue c₁
    · exact .refl c₁

end Connection

end RespMux
