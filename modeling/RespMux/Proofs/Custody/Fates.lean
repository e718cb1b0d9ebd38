import RespMux.Proofs.Custody.Moves

/-!
# What can become of a message

A message that waits to be picked up can be picked up, fail or be cancelled. Many things make it
fail, but hardly any of them can reach a message that waits in a transaction or in a batch: what
fails on its own is a message that its caller has given up or has put into the queue by itself.
Call these messages stray. Then a message that does not wait any more is stray, or it has been
called off, or a batch with it has departed (`Fates.cause`).

What has been called off stays so. To tell this from other ends of a message one has to look at the
completions: as long as the message waits nothing has come to them (`Fates.waiting`), and
afterwards nothing but the cancellation.
-/

set_option autoImplicit false

namespace RespMux

namespace Completion

variable {c : Completion}

/-- Nothing but a cancellation has come, and nothing else will. -/
def CalledOff (c : Completion) : Prop :=
  match c.stage with
  | .waiting => c.isOpen = false
  | .delivered o => o = .error .cancelled
  | .abandoned => False
  | .fetched o => o = .error .cancelled
  | .spent => True

theorem CalledOff.not_waits (h : c.CalledOff) : ¬ c.Waits := by
  rintro ⟨hstage, hopen⟩
  unfold CalledOff at h
  rw [hstage, hopen] at h
  cases h

/-- Whoever still holds the completion has the cancellation. -/
theorem CalledOff.isComplete (h : c.CalledOff) (hopen : c.isOpen = true) :
    c.isComplete = true := by
  obtain ⟨stage, waker, isOpen, target⟩ := c
  cases hopen
  cases stage with
  | waiting => cases h
  | abandoned => cases h
  | delivered o => rfl
  | fetched o => rfl
  | spent => rfl

/-- And is handed out nothing else. -/
theorem CalledOff.take? (h : c.CalledOff) {o : Outcome} (ho : c.take?.1 = some o) :
    o = .error .cancelled := by
  obtain ⟨stage, waker, isOpen, target⟩ := c
  cases stage with
  | waiting => cases ho
  | abandoned => cases h
  | delivered o' =>
      cases ho
      exact h
  | fetched o' =>
      cases ho
      exact h
  | spent => cases ho

theorem take?_of_waiting (h : c.stage = .waiting) : c.take?.1 = none := by
  unfold Completion.take?
  rw [h]

/-- A completion that waits is called off when it is given the cancellation. -/
theorem calledOff_deliver (h : c.stage = .waiting) :
    (c.deliver (.error .cancelled)).CalledOff := by
  by_cases hw : c.Waits
  · unfold CalledOff
    rw [deliver_stage hw]
  · rw [deliver_of_not_waits hw]
    unfold CalledOff
    rw [h]
    exact Bool.eq_false_iff.mpr fun hopen => hw ⟨h, hopen⟩

end Completion

namespace Store

variable {s s' : Store} {id : MessageId}

/-- The message is over, and nothing but a cancellation comes to its completions. -/
def CalledOff (s : Store) (id : MessageId) : Prop :=
  s.phase id = .complete ∧ ∀ (k : CompletionId) c, s.completions[k]? = some c →
    c.target = some id → c.CalledOff

/-- A batch with the message has been picked up or is over. -/
def Departed (s : Store) (id : MessageId) : Prop :=
  ∃ b ms, s.IsBatch b ms ∧ id ∈ ms ∧ s.phase b ≠ .notSent

/-- What has been called off stays so. -/
def StaysOff (s s' : Store) : Prop := ∀ id, s.IsSingle id → s.CalledOff id → s'.CalledOff id

/-- No message goes back to waiting. -/
def Advances (s s' : Store) : Prop :=
  ∀ id < s.messages.size, s'.phase id = .notSent → s.phase id = .notSent

theorem Departed.advance (h : s.Departed id) (hg : s.Grows s') (ha : s.Advances s') :
    s'.Departed id := by
  obtain ⟨b, ms, hb, hid, hp⟩ := h
  exact ⟨b, ms, hg.isBatch hb, hid, fun hn => hp (ha b hb.lt_size hn)⟩

/-- Outcomes that are given come too late for what has been called off. -/
theorem Resolves.calledOff {P : Outcome → Prop} {ids : List MessageId} {own : List CompletionId}
    (r : Resolves P ids own s s') (h : s.CalledOff id) : s'.CalledOff id := by
  refine ⟨r.complete h.1, fun k c hc ht => ?_⟩
  cases hk : s.completions[k]? with
  | none =>
      rw [r.absent k hk] at hc
      cases hc
  | some d =>
      rcases r.completion k d hk with hsame | ⟨⟨o, -, hgiven⟩, -⟩
      · cases hsame.symm.trans hc
        exact h.2 k c hk ht
      · cases hgiven.symm.trans hc
        rw [d.deliver_target] at ht
        have hoff := h.2 k d hk ht
        rw [Completion.deliver_of_not_waits hoff.not_waits]
        exact hoff

theorem Resolves.advances {P : Outcome → Prop} {ids : List MessageId} {own : List CompletionId}
    (r : Resolves P ids own s s') : s.Advances s' :=
  fun _ _ hn => Classical.byContradiction fun hp => r.ne_notSent hp hn

end Store

/-- What has become of the messages of callers, apart from those that are stray. -/
structure Fates (stray : MessageId → Prop) (owned queued : List MessageId) (s : Store) : Prop where
  /-- by itself only a stray message is queued -/
  queued : ∀ id ∈ queued, stray id ∨ ∃ ms, s.IsBatch id ms
  target : ∀ (k : CompletionId) c id, s.completions[k]? = some c → c.target = some id →
    id ∈ owned ∨ ∃ ms, s.IsBatch id ms
  /-- nothing has come to the completions of a message that waits -/
  waiting : ∀ (k : CompletionId) c id, s.completions[k]? = some c → c.target = some id →
    s.phase id = .notSent → c.stage = .waiting
  /-- a message that does not wait is stray, or is called off, or belongs to a batch that does
  not wait either -/
  cause : ∀ id ∈ owned, s.phase id ≠ .notSent → stray id ∨ s.CalledOff id ∨ s.Departed id

namespace Fates

variable {stray : MessageId → Prop} {owned accepted queued queued' : List MessageId}
variable {frames : List InFlight} {s s' : Store} {id : MessageId}

/-- Messages that have completions exist. -/
theorem target_lt (h : Fates stray owned queued s)
    (hc : Custody owned accepted queued frames s) {k : CompletionId} {c : Completion}
    (hk : s.completions[k]? = some c) (ht : c.target = some id) : id < s.messages.size := by
  rcases h.target k c id hk ht with ho | ⟨ms, hb⟩
  · exact (hc.kinds.owned_single id ho).lt_size
  · exact hb.lt_size

/-- From one store to the next: messages advance, completions stay tied to their messages, and
nothing comes to those that wait. -/
theorem move (h : Fates stray owned queued s) (hc : Custody owned accepted queued frames s)
    (hg : s.Grows s') (ha : s.Advances s')
    (hoff : s.StaysOff s')
    (htied : ∀ (k : CompletionId) c id, s'.completions[k]? = some c → c.target = some id →
      (id ∈ owned ∨ ∃ ms, s.IsBatch id ms) ∧ (s'.phase id = .notSent → c.stage = .waiting))
    (hcause : ∀ id ∈ owned, s.phase id = .notSent → s'.phase id ≠ .notSent →
      stray id ∨ s'.CalledOff id ∨ s'.Departed id) : Fates stray owned queued s' where
  queued id hid := (h.queued id hid).imp_right fun ⟨ms, hb⟩ => ⟨ms, hg.isBatch hb⟩
  target k c id hk ht := (htied k c id hk ht).1.imp_right fun ⟨ms, hb⟩ => ⟨ms, hg.isBatch hb⟩
  waiting k c id hk ht := (htied k c id hk ht).2
  cause id hid hp := by
    by_cases hn : s.phase id = .notSent
    · exact hcause id hid hn hp
    · rcases h.cause id hid hn with hs | hs | hs
      · exact Or.inl hs
      · exact Or.inr (Or.inl (hoff id (hc.kinds.owned_single id hid) hs))
      · exact Or.inr (Or.inr (hs.advance hg ha))

/-- Only stray messages and batches may be queued. -/
theorem enqueue (h : Fates stray owned queued s)
    (hq : ∀ id ∈ queued', stray id ∨ ∃ ms, s.IsBatch id ms) : Fates stray owned queued' s :=
  { h with queued := hq }

/-- A message that waits belongs to a caller from now on. -/
theorem own (h : Fates stray owned queued s) (hid : s.phase id = .notSent) :
    Fates stray (id :: owned) queued s where
  queued := h.queued
  target k c j hk ht := (h.target k c j hk ht).imp_left (List.mem_cons_of_mem id)
  waiting := h.waiting
  cause j hj hp := by
    rcases List.mem_cons.mp hj with rfl | hj
    · exact absurd hid hp
    · exact h.cause j hj hp

/-! ## Outcomes -/

/-- Outcomes are given to messages that do not wait afterwards, each for one of the three reasons,
and by frames whose messages do not wait. -/
theorem resolve {P : Outcome → Prop} {ids : List MessageId} {own : List CompletionId}
    (h : Fates stray owned queued s) (hc : Custody owned accepted queued frames s)
    (r : s.Resolves P ids own s')
    (hids : ∀ j ∈ ids, (j ∈ owned ∨ ∃ ms, s.IsBatch j ms) → s'.phase j ≠ .notSent)
    (hown : ∀ k ∈ own, ∀ c j, s.completions[k]? = some c → c.target = some j →
      s.phase j ≠ .notSent)
    (hcause : ∀ j ∈ ids, j ∈ owned → s.phase j = .notSent →
      stray j ∨ s'.CalledOff j ∨ s'.Departed j) : Fates stray owned queued s' := by
  refine h.move hc (.of_draft? r.draft?) r.advances (fun _ _ => r.calledOff) ?_ ?_
  · intro k c' j hk ht
    cases hold : s.completions[k]? with
    | none =>
        rw [r.absent k hold] at hk
        cases hk
    | some c =>
        rcases r.completion k c hold with hsame | ⟨⟨o, -, hgiven⟩, hwhere⟩
        · cases hsame.symm.trans hk
          refine ⟨h.target k c' j hold ht, fun hn => h.waiting k c' j hold ht ?_⟩
          exact r.advances j (h.target_lt hc hold ht) hn
        · cases hgiven.symm.trans hk
          rw [c.deliver_target] at ht
          have hkind := h.target k c j hold ht
          refine ⟨hkind, fun hn => ?_⟩
          -- an outcome has been given, so the message does not wait
          rcases hwhere with ⟨i, hi, sh, hsink⟩ | hk'
          · obtain ⟨⟨c₁, hc₁, ht₁⟩, -⟩ := hc.completers.target i _ hsink
            cases hold.symm.trans hc₁
            cases ht.symm.trans ht₁
            exact absurd hn (hids j hi hkind)
          · exact absurd hn (r.ne_notSent (hown k hk' c j hold ht))
  · intro j hj hn hp
    by_cases hmem : j ∈ ids
    · exact hcause j hmem hj hn
    · rw [Store.phase_congr (r.messages j hmem)] at hp
      exact absurd hn hp

/-- A message that is complete because of a cancellation is called off. -/
theorem calledOff {ids : List MessageId} {own : List CompletionId}
    (h : Fates stray owned queued s) (hc : Custody owned accepted queued frames s)
    (r : s.Resolves (· = .error .cancelled) ids own s') (hn : s.phase id = .notSent)
    (hp : s'.phase id = .complete) : s'.CalledOff id := by
  refine ⟨hp, fun k c' hk ht => ?_⟩
  cases hold : s.completions[k]? with
  | none =>
      rw [r.absent k hold] at hk
      cases hk
  | some c =>
      rcases r.completion k c hold with hsame | ⟨⟨o, rfl, hgiven⟩, -⟩
      · cases hsame.symm.trans hk
        have hstage := h.waiting k c' id hold ht hn
        by_cases hw : c'.Waits
        · -- the completer was in the message, which has not got it any more
          obtain ⟨j, sh, hj, hheld⟩ := hc.completers.waits k c' hold hw
          cases hj.symm.trans ht
          rcases hheld with hsink | ⟨ms, b, hb, hf, hd⟩
          · rcases r.lost id _ hsink with hleft | hgone
            · rw [(hc.resolve r).completers.complete id hp] at hleft
              cases hleft
            · exact absurd ⟨c', hk, hw⟩ hgone
          · obtain ⟨-, c₁, i, -, hc₁, hi, -, hne⟩ := hc.completers.done b hf _ hd
            cases hold.symm.trans hc₁
            cases hi.symm.trans ht
            exact absurd hn hne
        · unfold Completion.CalledOff
          rw [hstage]
          exact Bool.eq_false_iff.mpr fun hopen => hw ⟨hstage, hopen⟩
      · cases hgiven.symm.trans hk
        rw [c.deliver_target] at ht
        exact Completion.calledOff_deliver (h.waiting k c id hold ht hn)

/-- A cancel call that answers true calls off the message and what it contains, as far as it
waits. -/
theorem cancelled (h : Fates stray owned queued s) (hc : Custody owned accepted queued frames s)
    (hid : (s.cancel id).1 = true) :
    s.phase id = .notSent ∧ ∀ j ∈ s.scopeOf id, (s.cancel id).2.phase j ≠ .notSent
      ∧ (s.phase j = .notSent → (s.cancel id).2.CalledOff j) := by
  have hp := Store.cancel_fst.mp hid
  have r := Store.cancel_resolves hc.wellFormed id
  refine ⟨hp, fun j hj => ?_⟩
  have hover : (s.cancel id).2.phase j = .complete := by
    rw [Store.cancel_of_notSent hp]
    exact s.fail_phase id .cancelled j hj
  refine ⟨fun hn => ?_, fun hn => h.calledOff hc r hn hover⟩
  cases hover.symm.trans hn

/-- Cancelling a message or a batch. -/
theorem cancel (h : Fates stray owned queued s) (hc : Custody owned accepted queued frames s)
    (id : MessageId) : Fates stray owned queued (s.cancel id).2 := by
  by_cases hp : s.phase id = .notSent
  · obtain ⟨-, hoff⟩ := h.cancelled hc (Store.cancel_fst.mpr hp)
    exact h.resolve hc (Store.cancel_resolves hc.wellFormed id) (fun j hj _ => (hoff j hj).1)
      (fun k hk => by cases hk) fun j hj _ hn => Or.inr (Or.inl ((hoff j hj).2 hn))
  · rw [Store.cancel_of_ne hp]
    exact h

/-- What is stray may fail, and a batch may fail with its members. -/
theorem failAll {l : List MessageId} (h : Fates stray owned queued s)
    (hc : Custody owned accepted queued frames s) (e : Error)
    (hl : ∀ id ∈ l, id ∈ owned ∧ stray id ∨ ∃ ms, s.IsBatch id ms) :
    Fates stray owned queued (l.foldl (fun s id => s.fail id e) s) := by
  have wf := hc.wellFormed
  have r := Store.foldl_fail_resolves wf l e
  have hover := Store.foldl_fail_phase wf l e
  refine h.resolve hc r (fun j hj _ hn => ?_) (fun k hk => by cases hk) fun j hj ho _ => ?_
  · obtain ⟨i, hi, hji⟩ := List.mem_flatMap.mp hj
    rw [hover i hi j hji] at hn
    cases hn
  · obtain ⟨i, hi, hji⟩ := List.mem_flatMap.mp hj
    rcases hl i hi with ⟨hio, hs⟩ | ⟨ms, hb⟩
    · rw [wf.scopeOf_single (hc.kinds.owned_single i hio)] at hji
      rw [List.mem_singleton.mp hji]
      exact Or.inl hs
    · rw [wf.scopeOf_batch hb] at hji
      rcases List.mem_append.mp hji with hm | hm
      · refine Or.inr (Or.inr ⟨i, ms, r.isBatch.mpr hb, hm, fun hn => ?_⟩)
        rw [hover i hi i] at hn
        · cases hn
        · rw [wf.scopeOf_batch hb]
          exact List.mem_append_right _ (List.mem_singleton_self i)
      · rw [List.mem_singleton.mp hm] at ho
        exact absurd hb ((hc.kinds.owned_single i ho).not_isBatch ms)

/-- What is in the queue may fail. -/
theorem failQueued {l : List MessageId} (h : Fates stray owned queued s)
    (hc : Custody owned accepted queued frames s) (e : Error) (hl : ∀ id ∈ l, id ∈ queued) :
    Fates stray owned queued (l.foldl (fun s id => s.fail id e) s) := by
  refine h.failAll hc e fun id hid => ?_
  rcases hc.kinds.queued_kind id (hl id hid) with ho | hb
  · refine (h.queued id (hl id hid)).imp_left fun hs => ⟨ho, hs⟩
  · exact Or.inr hb

end Fates

/-- No answer to a frame is one to a batch. -/
theorem Custody.reach_not_isBatch {owned accepted queued : List MessageId}
    {frames : List InFlight} {s : Store} (h : Custody owned accepted queued frames s)
    {f : InFlight} (hf : f ∈ frames) {j : MessageId} (hj : j ∈ s.reach f) (ms : List MessageId) :
    ¬ s.IsBatch j ms := by
  have wf := h.wellFormed
  cases f with
  | message id =>
      rcases h.kinds.message_kind id hf with hs | ⟨inner, he⟩
      · rw [show s.reach (.message id) = [id] from wf.scopeOf_single hs] at hj
        rw [List.mem_singleton.mp hj]
        exact hs.not_isBatch ms
      · rw [show s.reach (.message id) = [inner, id] from wf.scopeOf_envelope he] at hj
        rcases List.mem_cons.mp hj with rfl | hj
        · exact (wf.inner_single he).not_isBatch ms
        · rw [List.mem_singleton.mp hj]
          exact he.not_isBatch ms
  | exec b =>
      have hb := h.kinds.block_owned b hf
      rw [h.reach_block hb] at hj
      exact (h.kinds.owned_single j (hb j hj)).not_isBatch ms

namespace Fates

variable {stray : MessageId → Prop} {owned accepted queued : List MessageId}
variable {frames : List InFlight} {s s' : Store}

/-- Whatever the frames in flight are answered, no message that waits hears of it. -/
theorem answer {P : Outcome → Prop} {ids : List MessageId} {own : List CompletionId}
    (h : Fates stray owned queued s) (hc : Custody owned accepted queued frames s)
    (r : s.Resolves P ids own s') (hids : ∀ j ∈ ids, ∃ f ∈ frames, j ∈ s.reach f)
    (hown : ∀ k ∈ own, ∃ f ∈ frames, k ∈ f.own) : Fates stray owned queued s' := by
  refine h.resolve hc r (fun j hj hkind => ?_) (fun k hk c j hkc ht => ?_) fun j hj ho hn => ?_
  · obtain ⟨f, hf, hjf⟩ := hids j hj
    rcases hkind with ho | ⟨ms, hb⟩
    · exact r.ne_notSent (hc.phases.reached f hf j hjf ho)
    · exact absurd hb (hc.reach_not_isBatch hf hjf ms)
  · obtain ⟨f, hf, hkf⟩ := hown k hk
    cases f with
    | message id => cases hkf
    | exec b =>
        obtain ⟨d, hd, rfl⟩ := List.mem_map.mp hkf
        obtain ⟨-, c₁, i, -, hc₁, hi, -, hne⟩ :=
          hc.completers.done b hf d (Option.mem_toList.mp hd)
        cases hkc.symm.trans hc₁
        cases ht.symm.trans hi
        exact hne
  · obtain ⟨f, hf, hjf⟩ := hids j hj
    exact absurd hn (hc.phases.reached f hf j hjf ho)

/-! ## Picking up and adding -/

/-- Messages are added, and some are picked up that are stray or the members of a batch. -/
theorem pick (h : Fates stray owned queued s) (hc : Custody owned accepted queued frames s)
    (hg : s.Grows s') (hk : s'.completions = s.completions)
    (hp : ∀ j < s.messages.size,
      s'.phase j = s.phase j ∨ (s.phase j = .notSent ∧ s'.phase j = .sent))
    (hcause : ∀ j ∈ owned, s.phase j = .notSent → s'.phase j ≠ .notSent →
      stray j ∨ s'.Departed j) : Fates stray owned queued s' ∧ s.StaysOff s' := by
  have ha : s.Advances s' := by
    intro j hj hn
    rcases hp j hj with hsame | ⟨-, hsent⟩
    · exact hsame.symm.trans hn
    · cases hsent.symm.trans hn
  have hoff : s.StaysOff s' := by
    refine fun j hj hoff => ⟨?_, fun k c hkc => ?_⟩
    · rcases hp j hj.lt_size with hsame | ⟨hn, -⟩
      · exact hsame.trans hoff.1
      · cases hoff.1.symm.trans hn
    · rw [hk] at hkc
      exact hoff.2 k c hkc
  refine ⟨h.move hc hg ha hoff (fun k c j hkc ht => ?_)
    fun j hj hn hne => (hcause j hj hn hne).imp_right Or.inr, hoff⟩
  rw [hk] at hkc
  refine ⟨h.target k c j hkc ht, fun hn => h.waiting k c j hkc ht ?_⟩
  exact ha j (h.target_lt hc hkc ht) hn

/-- A new message. -/
theorem add (h : Fates stray owned queued s) (hc : Custody owned accepted queued frames s)
    (m : Message) : Fates stray owned queued (s.add m).2 ∧ s.StaysOff (s.add m).2 := by
  refine h.pick hc (.add s m) rfl (fun j hj => Or.inl (Store.add_phase_of_lt m hj)) ?_
  intro j hj hn hne
  rw [Store.add_phase_of_lt m (hc.kinds.owned_single j hj).lt_size] at hne
  exact absurd hn hne

/-! ## Completions -/

/-- Only completions have changed: those that are tied to a message are looked at, or they are new
and their message has had none. -/
theorem observe (h : Fates stray owned queued s) (hc : Custody owned accepted queued frames s)
    (hd : ∀ j, s'.draft? j = s.draft? j) (hp : ∀ j, s'.phase j = s.phase j)
    (hk : ∀ (k : CompletionId) c j, s'.completions[k]? = some c → c.target = some j →
      (∃ c₀, s.completions[k]? = some c₀ ∧ c₀.target = some j
          ∧ (c₀.stage = .waiting → c.stage = .waiting) ∧ (c₀.CalledOff → c.CalledOff))
        ∨ c.stage = .waiting ∧ (j ∈ owned ∨ ∃ ms, s.IsBatch j ms) ∧ s.sink j = .empty) :
    Fates stray owned queued s' ∧ s.StaysOff s' := by
  have hoff : s.StaysOff s' := by
    intro j _ hj
    refine ⟨(hp j).trans hj.1, fun k c hkc ht => ?_⟩
    rcases hk k c j hkc ht with ⟨c₀, hc₀, ht₀, -, hkeeps⟩ | ⟨-, -, hsink⟩
    · exact hkeeps (hj.2 k c₀ hc₀ ht₀)
    · -- a message that is over has had a completer
      rw [hc.completers.complete j hj.1] at hsink
      cases hsink
  refine ⟨h.move hc (.of_draft? hd) (fun j _ hn => (hp j).symm.trans hn) hoff
    (fun k c j hkc ht => ?_) fun j _ hn hne => absurd ((hp j).trans hn) hne, hoff⟩
  rcases hk k c j hkc ht with ⟨c₀, hc₀, ht₀, hkeeps, -⟩ | ⟨hw, hkind, -⟩
  · refine ⟨h.target k c₀ j hc₀ ht₀, fun hn => hkeeps (h.waiting k c₀ j hc₀ ht₀ ?_)⟩
    exact (hp j).symm.trans hn
  · exact ⟨hkind, fun _ => hw⟩

end Fates

end RespMux
