import RespMux.Proofs.Store.Outcomes

/-!
# Who holds a message

On its way a message is held by somebody who will deal with it: by the queue until it is picked
up, by a frame in flight from then on. `Custody` says that this is so for every message that was
accepted, for every member of a batch, and for every completer. It speaks of lists only: the
messages `owned` by callers, those `accepted`, those `queued`, and the `frames` in flight. What
the pump has in hand while it works counts as in flight, so that the statement holds at every
moment and not only between the steps.

The lemmas of this file say that it does not matter in which order things are held, that what is
held by nobody needs no holder, and that outcomes may be given at any time. The moves by which a
message gets from one holder to the next are in `Custody/Moves`.
-/

set_option autoImplicit false

namespace RespMux

/-- A frame waits for the answer to a message itself, directly or among the results of a block. -/
def Covers (frames : List InFlight) (id : MessageId) : Prop :=
  .message id ∈ frames ∨ ∃ b, .exec b ∈ frames ∧ id ∈ b.members

theorem Covers.mono {frames frames' : List InFlight} {id : MessageId}
    (h : ∀ f ∈ frames, f ∈ frames') (hc : Covers frames id) : Covers frames' id := by
  rcases hc with hm | ⟨b, hb, hid⟩
  · exact Or.inl (h _ hm)
  · exact Or.inr ⟨b, h _ hb, hid⟩

/-- Everything is held in a place that fits its kind: callers own single messages, the queue holds
those and batches of them, and no batch is in flight as such. -/
structure Kinds (owned accepted queued : List MessageId) (frames : List InFlight) (s : Store) :
    Prop where
  wellFormed : s.WellFormed
  owned_single : ∀ id ∈ owned, s.IsSingle id
  accepted_kind : ∀ id ∈ accepted, id ∈ owned ∨ ∃ ms, s.IsBatch id ms
  queued_kind : ∀ id ∈ queued, id ∈ owned ∨ ∃ ms, s.IsBatch id ms
  members_owned : ∀ id ms, s.IsBatch id ms → ∀ j ∈ ms, j ∈ owned
  message_kind : ∀ id, .message id ∈ frames → s.IsSingle id ∨ ∃ inner, s.IsEnvelope id inner
  block_owned : ∀ b, .exec b ∈ frames → ∀ j ∈ b.members, j ∈ owned

/-- The phase of a message fits the place where it is held. -/
structure Phases (owned accepted queued : List MessageId) (frames : List InFlight) (s : Store) :
    Prop where
  /-- what is in flight has been picked up -/
  reached : ∀ f ∈ frames, ∀ j ∈ s.reach f, j ∈ owned → s.phase j ≠ .notSent
  /-- what has been picked up and is not complete is in flight -/
  sent : ∀ id, s.IsSingle id → s.phase id = .sent → Covers frames id
  /-- what was accepted and has not been picked up is queued -/
  accepted_queued : ∀ id ∈ accepted, s.phase id = .notSent → id ∈ queued
  /-- so are the members of a batch that has been taken out of the queue -/
  members_queued : ∀ id ms, s.IsBatch id ms → s.phase id ≠ .notSent →
    ∀ j ∈ ms, s.phase j = .notSent → j ∈ queued

/-- Every completion that waits has a completer, and it is where its outcome will come from. -/
structure Completers (frames : List InFlight) (s : Store) : Prop where
  complete : ∀ id, s.phase id = .complete → s.sink id = .consumed
  /-- a batch that is being written has handed its completer over to the block -/
  batch : ∀ id ms, s.IsBatch id ms → s.phase id = .sent → s.sink id = .consumed
  target : ∀ id c, s.sink id = .assigned c →
    (∃ k, s.completions[c.completion]? = some k ∧ k.target = some id)
      ∧ ∀ ms, s.IsBatch id ms → c.shape = .unit
  done : ∀ b, .exec b ∈ frames → ∀ c, b.done = some c →
    c.shape = .unit ∧ ∃ k id ms, s.completions[c.completion]? = some k ∧ k.target = some id
      ∧ s.IsBatch id ms ∧ s.phase id ≠ .notSent
  /-- no completer has gone away without giving an outcome -/
  kept : ∀ (k : CompletionId) c, s.completions[k]? = some c → c.stage ≠ .abandoned
  waits : ∀ (k : CompletionId) c, s.completions[k]? = some c → c.Waits →
    ∃ id sh, c.target = some id ∧
      (s.sink id = .assigned ⟨k, sh⟩ ∨
        ∃ ms b, s.IsBatch id ms ∧ .exec b ∈ frames ∧ b.done = some ⟨k, sh⟩)

/-- Nothing that was accepted is lost. -/
structure Custody (owned accepted queued : List MessageId) (frames : List InFlight) (s : Store) :
    Prop where
  kinds : Kinds owned accepted queued frames s
  phases : Phases owned accepted queued frames s
  completers : Completers frames s

/-- Kinds never change. -/
theorem Kinds.congr {owned accepted queued : List MessageId} {frames : List InFlight}
    {s s' : Store} (h : Kinds owned accepted queued frames s)
    (hd : ∀ id, s'.draft? id = s.draft? id) : Kinds owned accepted queued frames s' where
  wellFormed := h.wellFormed.congr hd
  owned_single id hid := (Store.IsSingle.congr (hd id)).mpr (h.owned_single id hid)
  accepted_kind id hid := (h.accepted_kind id hid).imp_right fun ⟨ms, hb⟩ =>
    ⟨ms, (Store.IsBatch.congr (hd id)).mpr hb⟩
  queued_kind id hid := (h.queued_kind id hid).imp_right fun ⟨ms, hb⟩ =>
    ⟨ms, (Store.IsBatch.congr (hd id)).mpr hb⟩
  members_owned id ms hb := h.members_owned id ms ((Store.IsBatch.congr (hd id)).mp hb)
  message_kind id hid := (h.message_kind id hid).imp (Store.IsSingle.congr (hd id)).mpr
    fun ⟨inner, he⟩ => ⟨inner, (Store.IsEnvelope.congr (hd id)).mpr he⟩
  block_owned := h.block_owned

theorem Phases.congr {owned accepted queued : List MessageId} {frames : List InFlight}
    {s s' : Store} (h : Phases owned accepted queued frames s)
    (hd : ∀ id, s'.draft? id = s.draft? id) (hp : ∀ id, s'.phase id = s.phase id) :
    Phases owned accepted queued frames s' where
  reached f hf j hj ho := by
    rw [Store.reach_congr hd] at hj
    rw [hp]
    exact h.reached f hf j hj ho
  sent id hs hsent := h.sent id ((Store.IsSingle.congr (hd id)).mp hs) ((hp id).symm.trans hsent)
  accepted_queued id hid hn := h.accepted_queued id hid ((hp id).symm.trans hn)
  members_queued id ms hb hne j hj hn := by
    rw [hp] at hne hn
    exact h.members_queued id ms ((Store.IsBatch.congr (hd id)).mp hb) hne j hj hn

namespace Custody

variable {owned accepted queued queued' : List MessageId} {frames frames' : List InFlight}
variable {s s' : Store} {id : MessageId}

/-! ## What follows for a single message -/

theorem wellFormed (h : Custody owned accepted queued frames s) : s.WellFormed :=
  h.kinds.wellFormed

/-- No batch is in flight as a message. -/
theorem message_not_batch (h : Custody owned accepted queued frames s)
    (hf : .message id ∈ frames) (ms : List MessageId) : ¬ s.IsBatch id ms := by
  rcases h.kinds.message_kind id hf with hs | ⟨inner, he⟩
  · exact hs.not_isBatch ms
  · exact he.not_isBatch ms

/-- The answer to the block of a batch reaches its members and no other message. -/
theorem reach_block (h : Custody owned accepted queued frames s) {b : Block}
    (hb : ∀ j ∈ b.members, j ∈ owned) : s.reach (.exec b) = b.members :=
  h.wellFormed.flatMap_scopeOf fun j hj => h.kinds.owned_single j (hb j hj)

/-- Who waits for a message whose completer has been used up waits for a batch in flight. -/
theorem waits_of_consumed (h : Custody owned accepted queued frames s)
    (hsink : s.sink id = .consumed) {k : CompletionId} {c : Completion}
    (hk : s.completions[k]? = some c) (ht : c.target = some id) (hw : c.Waits) :
    ∃ ms b sh, s.IsBatch id ms ∧ .exec b ∈ frames ∧ b.done = some ⟨k, sh⟩ := by
  obtain ⟨j, sh, hj, hheld⟩ := h.completers.waits k c hk hw
  cases hj.symm.trans ht
  rcases hheld with hassigned | ⟨ms, b, hb, hf, hd⟩
  · rw [hsink] at hassigned
    cases hassigned
  · exact ⟨ms, b, sh, hb, hf, hd⟩

/-! ## Changing the lists -/

/-- The order in which things are held does not matter, only what is held. -/
theorem congr (h : Custody owned accepted queued frames s)
    (hq : ∀ id, id ∈ queued' ↔ id ∈ queued) (hf : ∀ f, f ∈ frames' ↔ f ∈ frames) :
    Custody owned accepted queued' frames' s where
  kinds :=
    { wellFormed := h.wellFormed
      owned_single := h.kinds.owned_single
      accepted_kind := h.kinds.accepted_kind
      queued_kind := fun id hid => h.kinds.queued_kind id ((hq id).mp hid)
      members_owned := h.kinds.members_owned
      message_kind := fun id hid => h.kinds.message_kind id ((hf _).mp hid)
      block_owned := fun b hb => h.kinds.block_owned b ((hf _).mp hb) }
  phases :=
    { reached := fun f hm => h.phases.reached f ((hf f).mp hm)
      sent := fun id hs hp => (h.phases.sent id hs hp).mono fun f hm => (hf f).mpr hm
      accepted_queued := fun id hid hp => (hq id).mpr (h.phases.accepted_queued id hid hp)
      members_queued := fun id ms hb hp j hj hjp =>
        (hq j).mpr (h.phases.members_queued id ms hb hp j hj hjp) }
  completers :=
    { complete := h.completers.complete
      batch := h.completers.batch
      target := h.completers.target
      done := fun b hb => h.completers.done b ((hf _).mp hb)
      kept := h.completers.kept
      waits := by
        intro k c hk hw
        obtain ⟨id, sh, ht, hheld⟩ := h.completers.waits k c hk hw
        refine ⟨id, sh, ht, ?_⟩
        rcases hheld with hs | ⟨ms, b, hb, hf', hd⟩
        · exact Or.inl hs
        · exact Or.inr ⟨ms, b, hb, (hf _).mpr hf', hd⟩ }

/-- More may be queued at any time. -/
theorem enqueue (h : Custody owned accepted queued frames s) (hq : ∀ id ∈ queued, id ∈ queued')
    (hkind : ∀ id ∈ queued', id ∈ owned ∨ ∃ ms, s.IsBatch id ms) :
    Custody owned accepted queued' frames s where
  kinds := { h.kinds with queued_kind := hkind }
  phases :=
    { reached := h.phases.reached
      sent := h.phases.sent
      accepted_queued := fun id hid hp => hq id (h.phases.accepted_queued id hid hp)
      members_queued := fun id ms hb hp j hj hjp =>
        hq j (h.phases.members_queued id ms hb hp j hj hjp) }
  completers := h.completers

/-- What is queued counts as accepted. -/
theorem accept (h : Custody owned accepted queued frames s) {ids : List MessageId}
    (hids : ∀ id ∈ ids, id ∈ queued) : Custody owned (ids ++ accepted) queued frames s where
  kinds :=
    { wellFormed := h.wellFormed
      owned_single := h.kinds.owned_single
      accepted_kind := by
        intro id hid
        rcases List.mem_append.mp hid with hid | hid
        · exact h.kinds.queued_kind id (hids id hid)
        · exact h.kinds.accepted_kind id hid
      queued_kind := h.kinds.queued_kind
      members_owned := h.kinds.members_owned
      message_kind := h.kinds.message_kind
      block_owned := h.kinds.block_owned }
  phases :=
    { reached := h.phases.reached
      sent := h.phases.sent
      accepted_queued := by
        intro id hid hp
        rcases List.mem_append.mp hid with hid | hid
        · exact hids id hid
        · exact h.phases.accepted_queued id hid hp
      members_queued := h.phases.members_queued }
  completers := h.completers

/-- What has been picked up need not be queued any more. -/
theorem dequeue (h : Custody owned accepted (id :: queued) frames s)
    (hid : s.phase id ≠ .notSent) : Custody owned accepted queued frames s where
  kinds :=
    { wellFormed := h.wellFormed
      owned_single := h.kinds.owned_single
      accepted_kind := h.kinds.accepted_kind
      queued_kind := fun j hj => h.kinds.queued_kind j (List.mem_cons_of_mem id hj)
      members_owned := h.kinds.members_owned
      message_kind := h.kinds.message_kind
      block_owned := h.kinds.block_owned }
  phases :=
    { reached := h.phases.reached
      sent := h.phases.sent
      accepted_queued := by
        intro j hj hp
        -- only what has not been picked up must be queued, and `id` has been
        rcases List.mem_cons.mp (h.phases.accepted_queued j hj hp) with rfl | hq
        · exact absurd hp hid
        · exact hq
      members_queued := by
        intro b ms hb hbp j hj hp
        rcases List.mem_cons.mp (h.phases.members_queued b ms hb hbp j hj hp) with rfl | hq
        · exact absurd hp hid
        · exact hq }
  completers := h.completers

/-- A frame may go when nothing depends on it any more. -/
theorem dropFrame {f : InFlight} (h : Custody owned accepted queued (f :: frames) s)
    (hcover : ∀ j, s.IsSingle j → s.phase j = .sent → Covers [f] j → Covers frames j)
    (hown : ∀ k ∈ f.own, ¬ s.Waits k) : Custody owned accepted queued frames s where
  kinds :=
    { wellFormed := h.wellFormed
      owned_single := h.kinds.owned_single
      accepted_kind := h.kinds.accepted_kind
      queued_kind := h.kinds.queued_kind
      members_owned := h.kinds.members_owned
      message_kind := fun id hid => h.kinds.message_kind id (List.mem_cons_of_mem f hid)
      block_owned := fun b hb => h.kinds.block_owned b (List.mem_cons_of_mem f hb) }
  phases :=
    { reached := fun g hg => h.phases.reached g (List.mem_cons_of_mem f hg)
      sent := by
        intro j hj hp
        rcases h.phases.sent j hj hp with hm | ⟨b, hb, hjb⟩
        · -- what the frame covered is covered by another one
          rcases List.mem_cons.mp hm with heq | hm
          · exact hcover j hj hp (Or.inl (heq ▸ List.mem_singleton_self _))
          · exact Or.inl hm
        · rcases List.mem_cons.mp hb with heq | hb
          · exact hcover j hj hp (Or.inr ⟨b, heq ▸ List.mem_singleton_self _, hjb⟩)
          · exact Or.inr ⟨b, hb, hjb⟩
      accepted_queued := h.phases.accepted_queued
      members_queued := h.phases.members_queued }
  completers :=
    { complete := h.completers.complete
      batch := h.completers.batch
      target := h.completers.target
      done := fun b hb => h.completers.done b (List.mem_cons_of_mem f hb)
      kept := h.completers.kept
      waits := by
        intro k c hk hw
        obtain ⟨id, sh, ht, hheld⟩ := h.completers.waits k c hk hw
        refine ⟨id, sh, ht, ?_⟩
        rcases hheld with hs | ⟨ms, b, hb, hf, hd⟩
        · exact Or.inl hs
        · rcases List.mem_cons.mp hf with heq | hf
          · -- nobody waits for the completer in the frame
            refine absurd ⟨c, hk, hw⟩ (hown k ?_)
            rw [← heq, InFlight.own_exec, hd]
            exact List.mem_singleton_self k
          · exact Or.inr ⟨ms, b, hb, hf, hd⟩ }

/-! ## Outcomes -/

theorem phases_resolve {P : Outcome → Prop} {ids : List MessageId} {own : List CompletionId}
    (h : Custody owned accepted queued frames s) (r : s.Resolves P ids own s') :
    Phases owned accepted queued frames s' where
  reached f hf j hj ho := by
    rw [Store.reach_congr r.draft?] at hj
    exact r.ne_notSent (h.phases.reached f hf j hj ho)
  sent id hs hp := by
    have heq : s'.phase id = s.phase id := r.phase_of_ne (by rw [hp]; decide)
    exact h.phases.sent id ((Store.IsSingle.congr (r.draft? id)).mp hs) (heq.symm.trans hp)
  accepted_queued id hid hp := by
    have heq : s'.phase id = s.phase id := r.phase_of_ne (by rw [hp]; decide)
    exact h.phases.accepted_queued id hid (heq.symm.trans hp)
  members_queued id ms hb hp j hj hjp := by
    have heq : s'.phase j = s.phase j := r.phase_of_ne (by rw [hjp]; decide)
    rcases r.batch id ms (r.isBatch.mp hb) with hsame | hall
    · rw [hsame] at hp
      exact h.phases.members_queued id ms (r.isBatch.mp hb) hp j hj (heq.symm.trans hjp)
    · -- a batch that has become complete has no member that is not
      rw [hall j hj] at hjp
      cases hjp

theorem completers_resolve {P : Outcome → Prop} {ids : List MessageId} {own : List CompletionId}
    (h : Custody owned accepted queued frames s) (r : s.Resolves P ids own s') :
    Completers frames s' where
  complete id hp := by
    rcases r.settled id hp with hq | hq
    · exact r.sink_of_consumed (h.completers.complete id hq)
    · exact hq
  batch id ms hb hp := by
    have heq : s'.phase id = s.phase id := r.phase_of_ne (by rw [hp]; decide)
    exact r.sink_of_consumed (h.completers.batch id ms (r.isBatch.mp hb) (heq.symm.trans hp))
  target id c hc := by
    obtain ⟨⟨k, hk, ht⟩, hshape⟩ := h.completers.target id c (r.sink_of_assigned hc)
    obtain ⟨k', hk', ht', -⟩ := r.exists_completion hk
    exact ⟨⟨k', hk', ht'.trans ht⟩, fun ms hb => hshape ms (r.isBatch.mp hb)⟩
  done b hb c hc := by
    obtain ⟨hshape, k, id, ms, hk, ht, hid, hp⟩ := h.completers.done b hb c hc
    obtain ⟨k', hk', ht', -⟩ := r.exists_completion hk
    exact ⟨hshape, k', id, ms, hk', ht'.trans ht, r.isBatch.mpr hid, r.ne_notSent hp⟩
  kept := r.kept h.completers.kept
  waits k c hk hw := by
    obtain ⟨id, sh, ht, hheld⟩ := h.completers.waits k c (r.waits hk hw) hw
    refine ⟨id, sh, ht, ?_⟩
    rcases hheld with hs | ⟨ms, b, hb, hf, hd⟩
    · rcases r.lost id ⟨k, sh⟩ hs with hs' | hgone
      · exact Or.inl hs'
      · -- a completer that has gone has given its outcome
        exact absurd ⟨c, hk, hw⟩ hgone
    · exact Or.inr ⟨ms, b, r.isBatch.mpr hb, hf, hd⟩

/-- Outcomes may be given at any time. -/
theorem resolve {P : Outcome → Prop} {ids : List MessageId} {own : List CompletionId}
    (h : Custody owned accepted queued frames s) (r : s.Resolves P ids own s') :
    Custody owned accepted queued frames s' :=
  ⟨h.kinds.congr r.draft?, h.phases_resolve r, h.completers_resolve r⟩

/-- A message that is complete needs no frame. -/
theorem dropMessage (h : Custody owned accepted queued (.message id :: frames) s)
    (hp : s.phase id = .complete) : Custody owned accepted queued frames s := by
  refine h.dropFrame ?_ fun k hk => by cases hk
  intro j _ hsent hcover
  rcases hcover with hm | ⟨b, hb, -⟩
  · cases List.mem_singleton.mp hm
    rw [hp] at hsent
    cases hsent
  · cases List.mem_singleton.mp hb

/-- A block whose messages are complete and that has given its own outcome is not needed. -/
theorem dropBlock {b : Block} (h : Custody owned accepted queued (.exec b :: frames) s)
    (hp : ∀ j ∈ b.members, s.phase j = .complete)
    (hown : ∀ k ∈ InFlight.own (.exec b), ¬ s.Waits k) :
    Custody owned accepted queued frames s := by
  refine h.dropFrame ?_ hown
  intro j _ hsent hcover
  rcases hcover with hm | ⟨c, hc, hj⟩
  · cases List.mem_singleton.mp hm
  · cases List.mem_singleton.mp hc
    rw [hp j hj] at hsent
    cases hsent

/-- A frame that fails needs no answer any more. -/
theorem failFrame {f : InFlight} (h : Custody owned accepted queued (f :: frames) s) (e : Error) :
    Custody owned accepted queued frames (s.failInFlight f e) := by
  have hfailed := h.resolve (Store.failInFlight_resolves h.wellFormed f e)
  have hphase := Store.failInFlight_phase h.wellFormed f e
  cases f with
  | message id =>
      refine hfailed.dropMessage (hphase id ?_)
      rcases h.kinds.message_kind id List.mem_cons_self with hs | ⟨inner, he⟩
      · rw [show s.reach (.message id) = [id] from h.wellFormed.scopeOf_single hs]
        exact List.mem_singleton_self id
      · rw [show s.reach (.message id) = [inner, id] from h.wellFormed.scopeOf_envelope he]
        exact List.mem_cons_of_mem inner (List.mem_singleton_self id)
  | exec b =>
      refine hfailed.dropBlock (fun j hj => hphase j ?_) (Store.failInFlight_given (.exec b) e)
      rw [h.reach_block (h.kinds.block_owned b List.mem_cons_self)]
      exact hj

theorem failFrames {fs : List InFlight} (h : Custody owned accepted queued (fs ++ frames) s)
    (e : Error) :
    Custody owned accepted queued frames (fs.foldl (fun s f => s.failInFlight f e) s) := by
  induction fs generalizing s with
  | nil => exact h
  | cons f fs ih => exact ih (h.failFrame e)

/-- A message that fails need not be queued any more. -/
theorem failQueued (h : Custody owned accepted (id :: queued) frames s) (e : Error) :
    Custody owned accepted queued frames (s.fail id e) := by
  refine (h.resolve (Store.fail_resolves h.wellFormed id e)).dequeue ?_
  rw [Store.fail_phase _ _ _ id ?_]
  · decide
  · rcases h.kinds.queued_kind id List.mem_cons_self with ho | ⟨ms, hb⟩
    · rw [h.wellFormed.scopeOf_single (h.kinds.owned_single id ho)]
      exact List.mem_singleton_self id
    · rw [h.wellFormed.scopeOf_batch hb]
      exact List.mem_append_right _ (List.mem_singleton_self id)

theorem failAllQueued (h : Custody owned accepted queued frames s) (e : Error) :
    Custody owned accepted [] frames (queued.foldl (fun s id => s.fail id e) s) := by
  induction queued generalizing s with
  | nil => exact h
  | cons id queued ih => exact ih (h.failQueued e)

/-! ## Where completers are -/

/-- Who waits for a message that is no batch waits for its completer. -/
theorem sink_of_waits (h : Custody owned accepted queued frames s) {j : MessageId}
    {k : CompletionId} {d : Completion} (hbatch : ∀ ms, ¬ s.IsBatch j ms)
    (hk : s.completions[k]? = some d) (ht : d.target = some j) (hw : d.Waits) :
    ∃ sh, s.sink j = .assigned ⟨k, sh⟩ := by
  obtain ⟨i, sh, hi, hheld⟩ := h.completers.waits k d hk hw
  cases hi.symm.trans ht
  rcases hheld with hsink | ⟨ms, b, hb, -⟩
  · exact ⟨sh, hsink⟩
  · exact absurd hb (hbatch ms)

/-- A completer is in the message that its completion is tied to. -/
theorem target_of_sink (h : Custody owned accepted queued frames s) {i j : MessageId}
    {k : CompletionId} {d : Completion} {sh : Shape} (hk : s.completions[k]? = some d)
    (ht : d.target = some j) (hsink : s.sink i = .assigned ⟨k, sh⟩) : i = j := by
  obtain ⟨⟨d', hd', hi⟩, -⟩ := h.completers.target i _ hsink
  cases hd'.symm.trans hk
  exact Option.some.inj (hi.symm.trans ht)

end Custody

end RespMux
