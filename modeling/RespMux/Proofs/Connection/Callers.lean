import RespMux.Proofs.Connection.Sound

/-!
# What callers do to a connection

Making and cancelling messages, transactions, and the rest of opening a connection keep it sound.
-/

set_option autoImplicit false

namespace RespMux

namespace Connection

variable {owned accepted : List MessageId} {c c' : Connection}

/-- A message that a caller makes belongs to the caller. -/
theorem Sound.create (h : c.Sound owned accepted) (r : Request) :
    ({ c with store := (c.store.create r).2 } : Connection).Sound
      (c.store.messages.size :: owned) accepted :=
  h.withStore (h.custody.createOwned r) fun _ hid => List.mem_cons_of_mem _ hid

theorem continues_create (c : Connection) (r : Request) :
    Continues c { c with store := (c.store.create r).2 } :=
  .withStore (.add c.store _)

/-! ## Cancelling -/

theorem keeps_cancel (c : Connection) (id : MessageId) :
    Keeps owned accepted c { c with store := (c.store.cancel id).2 } := by
  unfold Store.cancel
  split
  · exact keeps_resolves fun wf => Store.fail_resolves wf id .cancelled
  · exact .refl c

theorem keeps_cancelThrough (c : Connection) (k : CompletionId) :
    Keeps owned accepted c { c with store := (c.store.cancelThrough k).2 } := by
  unfold Store.cancelThrough
  split
  · next id _ =>
    split
    · split
      · exact .refl c
      · exact c.keeps_cancel id
    · exact .refl c
  · exact .refl c

theorem keeps_cancelAll (c : Connection) (ids : List MessageId) :
    Keeps owned accepted c
      { c with store := ids.foldl (fun s id => (s.cancel id).2) c.store } := by
  induction ids generalizing c with
  | nil => exact .refl c
  | cons id ids ih => exact (c.keeps_cancel id).trans (ih { c with store := (c.store.cancel id).2 })

/-! ## Transactions -/

theorem keeps_newTransaction (c : Connection) :
    Keeps owned accepted c c.newTransaction.2 := by
  intro hs
  refine ⟨⟨hs.custody, fun t id hid => ?_, hs.recording, hs.down⟩,
    ⟨.refl _, fun hd => hd, fun _ => rfl⟩⟩
  refine hs.collected t id ?_
  unfold collected newTransaction at hid
  dsimp only at hid
  rw [Array.getElem?_push] at hid
  split at hid
  · cases hid
  · exact hid

theorem keeps_emptied (c : Connection) (t : Nat) :
    Keeps owned accepted c (c.setCollected t (c.collected t).drain.2) := by
  refine keeps_setCollected t fun id hid => ?_
  cases hid

theorem keeps_discard (c : Connection) (t : Nat) :
    Keeps owned accepted c (c.discardTransaction t).2 :=
  (c.keeps_emptied t).trans (keeps_cancelAll _ (c.collected t).toList)

/-- A batch is made of messages that callers own, and is handed in with its completer. -/
theorem keeps_submitBatch {ms : List MessageId} {priority : Priority} {k : CompletionId}
    (hms : ∀ j ∈ ms, j ∈ owned)
    (h : sender.submit { c with store := (c.store.batch ms).2 } c.store.messages.size priority .unit
      = some (k, c')) :
    Keeps owned accepted c c' := by
  have hbatch : (c.store.batch ms).2.IsBatch c.store.messages.size ms :=
    ⟨_, c.store.add_draft?_self _, rfl⟩
  have hmake : Keeps owned accepted c { c with store := (c.store.batch ms).2 } :=
    keeps_store fun hc => ⟨hc.batch hms, .add c.store _⟩
  have hsubmit : (executor .connection).submit { c with store := (c.store.batch ms).2 }
      c.store.messages.size priority .unit = some (k, c') := h
  refine hmake.trans (keeps_submit hsubmit (fun _ _ => ⟨rfl, ?_⟩)
    fun c' hok => keeps_enqueue hok (Or.inr ⟨ms, ?_⟩))
  · exact c.store.add_phase_self _
  · exact (Store.IsBatch.congr (Store.attach_draft? _ _ _ _)).mpr hbatch

theorem keeps_execute {t : Nat} {priority : Priority} {k : CompletionId}
    (h : c.executeTransaction t priority = some (k, c')) : Keeps owned accepted c c' := by
  intro hs
  have hms : ∀ j ∈ (c.collected t).toList, j ∈ owned := hs.collected t
  refine (c.keeps_emptied t).trans ?_ hs
  unfold executeTransaction at h
  dsimp only at h
  split at h
  · cases h
    exact keeps_ready _ _
  · exact keeps_submitBatch hms h

/-! ## Opening -/

theorem keeps_timeout (c : Connection) : Keeps owned accepted c c.timeout.2 :=
  c.keeps_count .timeout

theorem keeps_beginOpening (c : Connection) : Keeps owned accepted c c.beginOpening.2 :=
  c.keeps_transition _ _

theorem keeps_connectFailed (c : Connection) (error : Error) :
    Keeps owned accepted c (c.connectFailed error) :=
  c.keeps_shutdown _ _

theorem keeps_finishOpening (c : Connection) (ping : Outcome) :
    Keeps owned accepted c (c.finishOpening ping).2 := by
  have htransition : Keeps owned accepted c (c.transition [.opening] .established).2 :=
    c.keeps_transition _ _
  unfold finishOpening
  split
  · split
    · next heq =>
      rw [heq] at htransition
      exact htransition
    · next heq =>
      rw [heq] at htransition
      exact htransition
  · next error => exact c.keeps_shutdown "handshake failed" (some error)

theorem keeps_openingTimedOut (c : Connection) :
    Keeps owned accepted c c.openingTimedOut.2 :=
  c.keeps_timeout.trans (keeps_shutdown c.timeout.2 "handshake timed out" (some c.timeout.1))

end Connection

end RespMux
