import RespMux.Proofs.Connection.Places
import RespMux.Proofs.Custody.Fates
import RespMux.Proofs.Outgoing.Once

/-!
# Blocks in flight

While a block is in flight it holds the completer of the batch that it was written for, and nothing
has come to the completion of the batch. `Pledges` says so, together with what makes it last: no two
blocks hold completers of the same completion, and a batch has only one. So an outcome that comes to
the completion of a batch comes from its block, when that is answered or fails, and from nobody
else.

Besides, a message that is not stray is never in flight by itself, but only in a block.
-/

set_option autoImplicit false

namespace RespMux

/-- The block has members of a batch, and its completer is that of the batch, whose completion
waits. -/
def Store.Pledged (s : Store) (blk : Block) : Prop :=
  ∃ d c b ms, blk.done = some d ∧ s.completions[d.completion]? = some c ∧ c.target = some b
    ∧ c.stage = .waiting ∧ s.IsBatch b ms ∧ ∀ j ∈ blk.members, j ∈ ms

/-- The blocks in flight hold the completers of their batches. -/
structure Pledges (stray : MessageId → Prop) (owned : List MessageId) (frames : List InFlight)
    (s : Store) : Prop where
  direct : ∀ j ∈ owned, .message j ∈ frames → stray j
  /-- messages that have completions exist -/
  target : ∀ (k : CompletionId) c b, s.completions[k]? = some c → c.target = some b →
    ∃ m, s.draft? b = some m
  /-- a batch that waits has its completer -/
  armed : ∀ b ms, s.IsBatch b ms → s.phase b = .notSent → ∃ c, s.sink b = .assigned c
  /-- a batch has one completion -/
  sole : ∀ b ms, s.IsBatch b ms → ∀ (k k' : CompletionId) c c', s.completions[k]? = some c →
    c.target = some b → s.completions[k']? = some c' → c'.target = some b → k = k'
  pledged : ∀ blk, .exec blk ∈ frames → s.Pledged blk
  keys : (frames.flatMap InFlight.own).Nodup

namespace Pledges

variable {stray : MessageId → Prop} {owned accepted queued : List MessageId}
variable {gone frames fs : List InFlight} {s s' : Store} {id : MessageId}

/-- What has been answered is not in flight any more. -/
theorem drop (h : Pledges stray owned (gone ++ frames) s) : Pledges stray owned frames s where
  direct j hj hf := h.direct j hj (List.mem_append_right gone hf)
  target := h.target
  armed := h.armed
  sole := h.sole
  pledged blk hf := h.pledged blk (List.mem_append_right gone hf)
  keys := by
    have hkeys := h.keys
    rw [List.flatMap_append, List.nodup_append] at hkeys
    exact hkeys.2.1

/-- From one store to the next: batches that wait are left alone, they get no new completions, and
nothing comes to those that blocks have pledged. -/
theorem move (h : Pledges stray owned frames s) (hg : s.Grows s')
    (hbatch : ∀ b ms, s'.IsBatch b ms → s.IsBatch b ms)
    (harmed : ∀ b ms, s.IsBatch b ms → s'.phase b = .notSent →
      s.phase b = .notSent ∧ s'.sink b = s.sink b)
    (hold : ∀ (k : CompletionId) c' b, s'.completions[k]? = some c' → c'.target = some b →
      (∃ c, s.completions[k]? = some c ∧ c.target = some b)
        ∨ (∃ m, s'.draft? b = some m) ∧ ∀ ms, ¬ s.IsBatch b ms)
    (hkept : ∀ blk d, .exec blk ∈ frames → blk.done = some d → ∀ c b ms, s.IsBatch b ms →
      s.completions[d.completion]? = some c → c.target = some b → c.stage = .waiting →
        ∃ c', s'.completions[d.completion]? = some c' ∧ c'.target = some b
          ∧ c'.stage = .waiting) : Pledges stray owned frames s' where
  direct := h.direct
  target k c' b hk ht := by
    rcases hold k c' b hk ht with ⟨c, hc, hct⟩ | ⟨hm, -⟩
    · obtain ⟨m, hm⟩ := h.target k c b hc hct
      exact ⟨m, hg b m hm⟩
    · exact hm
  armed b ms hb hn := by
    obtain ⟨hp, hsink⟩ := harmed b ms (hbatch b ms hb) hn
    rw [hsink]
    exact h.armed b ms (hbatch b ms hb) hp
  sole b ms hb k k' c c' hk ht hk' ht' := by
    have hb := hbatch b ms hb
    obtain ⟨d, hd, hdt⟩ := (hold k c b hk ht).resolve_right fun ⟨_, hnot⟩ => hnot ms hb
    obtain ⟨d', hd', hdt'⟩ := (hold k' c' b hk' ht').resolve_right fun ⟨_, hnot⟩ => hnot ms hb
    exact h.sole b ms hb k k' d d' hd hdt hd' hdt'
  pledged blk hf := by
    obtain ⟨d, c, b, ms, hd, hc, ht, hw, hb, hms⟩ := h.pledged blk hf
    obtain ⟨c', hc', ht', hw'⟩ := hkept blk d hf hd c b ms hb hc ht hw
    exact ⟨d, c', b, ms, hd, hc', ht', hw', hg.isBatch hb, hms⟩
  keys := h.keys

/-! ## Outcomes -/

/-- Frames that are gone give outcomes, and what they reach is over. Completions that other blocks
have pledged hear nothing of it. -/
theorem resolve {P : Outcome → Prop} {ids : List MessageId} {own : List CompletionId}
    (h : Pledges stray owned (gone ++ frames) s)
    (hc : Custody owned accepted queued (gone ++ frames) s) (r : s.Resolves P ids own s')
    (hids : ∀ j ∈ ids, ∀ ms, s.IsBatch j ms → s'.phase j ≠ .notSent)
    (hown : ∀ k ∈ own, k ∈ gone.flatMap InFlight.own) : Pledges stray owned frames s' := by
  refine h.drop.move (.of_draft? r.draft?) (fun b ms => r.isBatch.mp) (fun b ms hb hn => ?_)
    (fun k c' b hk ht => Or.inl ?_) fun blk d hf hd c b ms hb hk ht hw => ?_
  · have hmessage := r.messages b fun hmem => hids b hmem ms hb hn
    exact ⟨(Store.phase_congr hmessage).symm.trans hn, Store.sink_congr hmessage⟩
  · cases hs : s.completions[k]? with
    | none =>
        rw [r.absent k hs] at hk
        cases hk
    | some c =>
        obtain ⟨d, hd, htarget, -⟩ := r.exists_completion hs
        cases hd.symm.trans hk
        exact ⟨c, rfl, htarget.symm.trans ht⟩
  · rcases r.completion _ c hk with hsame | ⟨-, ⟨j, -, sh, hsink⟩ | hmem⟩
    · exact ⟨c, hsame, ht, hw⟩
    · -- the batch has been picked up, so its completer is in the block and not in the message
      have hf' : .exec blk ∈ gone ++ frames := List.mem_append_right gone hf
      obtain ⟨⟨c₁, hc₁, hj⟩, -⟩ := hc.completers.target j _ hsink
      obtain ⟨-, c₂, i, ms', hc₂, hi, -, hne⟩ := hc.completers.done blk hf' d hd
      cases hk.symm.trans hc₁
      cases hk.symm.trans hc₂
      cases ht.symm.trans hj
      cases ht.symm.trans hi
      have hconsumed : s.sink b = .consumed := by
        cases hp : s.phase b with
        | notSent => exact absurd hp hne
        | sent => exact hc.completers.batch b ms hb hp
        | complete => exact hc.completers.complete b hp
      cases hsink.symm.trans hconsumed
    · -- no two frames hold completers of one completion
      have hkeys := h.keys
      rw [List.flatMap_append, List.nodup_append] at hkeys
      have hkey : d.completion ∈ frames.flatMap InFlight.own := by
        refine List.mem_flatMap.mpr ⟨_, hf, ?_⟩
        rw [InFlight.own_exec, hd]
        exact List.mem_singleton_self _
      exact absurd rfl (hkeys.2.2 _ (hown _ hmem) _ hkey)

/-- What fails is over. -/
theorem fail (h : Pledges stray owned frames s) (hc : Custody owned accepted queued frames s)
    (id : MessageId) (error : Error) : Pledges stray owned frames (s.fail id error) := by
  have h : Pledges stray owned ([] ++ frames) s := h
  refine h.resolve hc (Store.fail_resolves hc.wellFormed id error)
    (fun j hj ms _ hn => ?_) fun k hk => by cases hk
  cases (s.fail_phase id error j hj).symm.trans hn

/-! ## Adding and looking -/

/-- Only completions have changed, and no batch has got another one. -/
theorem observe (h : Pledges stray owned frames s) (hd : ∀ j, s'.draft? j = s.draft? j)
    (hp : ∀ j, s'.phase j = s.phase j)
    (hsink : ∀ b ms, s.IsBatch b ms → s'.sink b = s.sink b)
    (hold : ∀ (k : CompletionId) c' b, s'.completions[k]? = some c' → c'.target = some b →
      (∃ c, s.completions[k]? = some c ∧ c.target = some b) ∨ s.IsSingle b)
    (hkept : ∀ (k : CompletionId) c, s.completions[k]? = some c → c.stage = .waiting →
      ∃ c', s'.completions[k]? = some c' ∧ c'.target = c.target ∧ c'.stage = .waiting) :
    Pledges stray owned frames s' := by
  refine h.move (.of_draft? hd) (fun b ms => (Store.IsBatch.congr (hd b)).mp)
    (fun b ms hb hn => ⟨(hp b).symm.trans hn, hsink b ms hb⟩) (fun k c' b hk ht => ?_)
    fun blk d hf hdone c b ms hb hk ht hw => ?_
  · refine (hold k c' b hk ht).imp_right fun hs => ⟨?_, hs.not_isBatch⟩
    obtain ⟨m, hm, -⟩ := hs
    exact ⟨m, (hd b).trans hm⟩
  obtain ⟨c', hc', ht', hw'⟩ := hkept _ c hk hw
  exact ⟨c', hc', ht'.trans ht, hw'⟩

/-- A message that is no batch is made. -/
theorem add (h : Pledges stray owned frames s) {m : Message}
    (hbody : ∀ ms, m.body ≠ .batch ms) : Pledges stray owned frames (s.add m).2 := by
  refine h.move (.add s m) (fun b ms hb => hb.of_add.resolve_left fun ⟨_, hm⟩ => hbody ms hm)
    (fun b ms hb hn => ?_) (fun k c' b hk ht => Or.inl ⟨c', hk, ht⟩)
    fun blk d hf hd c b ms hb hk ht hw => ⟨c, hk, ht, hw⟩
  have hmessage := Store.add_messages_of_lt m hb.lt_size
  exact ⟨(Store.phase_congr hmessage).symm.trans hn, Store.sink_congr hmessage⟩

/-- A caller owns a message that is not in flight. -/
theorem own (h : Pledges stray owned frames s) (hid : .message id ∉ frames) :
    Pledges stray (id :: owned) frames s :=
  { h with
    direct := fun j hj hf => by
      rcases List.mem_cons.mp hj with rfl | hj
      · exact absurd hf hid
      · exact h.direct j hj hf }

/-- A batch is made together with its completion. -/
theorem batched (h : Pledges stray owned frames s) (ms : List MessageId) :
    Pledges stray owned frames ((s.batch ms).2.attach s.messages.size .unit) := by
  have hadded : ∀ b, s.messages.size ≠ b → ∀ ms',
      ((s.batch ms).2.attach s.messages.size .unit).IsBatch b ms' → s.IsBatch b ms' := by
    intro b hne ms' hb
    exact (Store.IsBatch.of_add ((Store.attach_isBatch _ _).mp hb)).resolve_left
      fun ⟨heq, _⟩ => hne heq.symm
  have hmessage : ∀ b, s.messages.size ≠ b →
      ((s.batch ms).2.attach s.messages.size .unit).messages[b]? = s.messages[b]? := fun b hne =>
    (Store.attach_messages_ne hne .unit).trans (Store.add_messages_of_ne _ (Ne.symm hne))
  have hnew : ∀ (k : CompletionId) c b,
      ((s.batch ms).2.attach s.messages.size .unit).completions[k]? = some c →
        c.target = some b → (k = s.completions.size ∧ b = s.messages.size)
          ∨ s.completions[k]? = some c := by
    intro k c b hk ht
    rw [Store.attach_completions] at hk
    split at hk
    · next heq =>
      cases hk
      cases ht
      exact Or.inl ⟨heq, rfl⟩
    · exact Or.inr hk
  -- the completions of the other batches were there before, and the new one has had none
  have hlt : ∀ (k : CompletionId) c b, s.completions[k]? = some c → c.target = some b →
      b < s.messages.size := fun k c b hk ht => by
    obtain ⟨m, hm⟩ := h.target k c b hk ht
    exact Store.lt_size_of_draft? hm
  have hdraft : ∀ b, ((s.batch ms).2.attach s.messages.size .unit).draft? b
      = (s.batch ms).2.draft? b := fun b => Store.attach_draft? _ _ b .unit
  constructor
  case direct => exact h.direct
  case target =>
    intro k c b hk ht
    rw [hdraft]
    rcases hnew k c b hk ht with ⟨-, rfl⟩ | hold
    · exact ⟨_, s.add_draft?_self _⟩
    · obtain ⟨m, hm⟩ := h.target k c b hold ht
      exact ⟨m, Store.Grows.add s _ b m hm⟩
  case armed =>
    intro b ms' hb hn
    by_cases hne : s.messages.size = b
    · subst hne
      exact ⟨_, Store.attach_sink_self (by rw [Store.batch, Store.add_size]; exact Nat.lt_succ_self _)
        .unit⟩
    · rw [Store.sink_congr (hmessage b hne)]
      exact h.armed b ms' (hadded b hne ms' hb) ((Store.phase_congr (hmessage b hne)).symm.trans hn)
  case sole =>
    intro b ms' hb k k' c c' hk ht hk' ht'
    rcases hnew k c b hk ht with ⟨rfl, rfl⟩ | hold
    · rcases hnew k' c' _ hk' ht' with ⟨rfl, -⟩ | hold'
      · rfl
      · exact absurd (hlt k' c' _ hold' ht') (Nat.lt_irrefl _)
    · have hb := hadded b (Nat.ne_of_gt (hlt k c b hold ht)) ms' hb
      rcases hnew k' c' b hk' ht' with ⟨-, rfl⟩ | hold'
      · exact absurd hb.lt_size (Nat.lt_irrefl _)
      · exact h.sole b ms' hb k k' c c' hold ht hold' ht'
  case pledged =>
    intro blk hblk
    obtain ⟨d, c, b, ms', hd, hk, ht, hw, hb, hms⟩ := h.pledged blk hblk
    exact ⟨d, c, b, ms', hd, Store.attach_completion_of_some hk, ht, hw,
      (Store.attach_isBatch _ _).mpr ((Store.Grows.add s _).isBatch hb), hms⟩
  case keys => exact h.keys

end Pledges

/-! ## Picking up -/

/-- The members of a block are members of its batch. -/
theorem Expands.mem_of_slot {s s' : Store} {db db' : Option Database} {ids : List MessageId}
    {fs : List InFlight} {slots : List (Option MessageId)} {j : MessageId}
    (h : Expands s db ids s' fs slots db') (hj : some j ∈ slots) : j ∈ ids := by
  induction h with
  | nil => cases hj
  | skipped hp rest ih => exact List.mem_cons_of_mem _ (ih hj)
  | stays hp hm hstay rest ih =>
      rcases List.mem_cons.mp hj with heq | hj
      · cases heq
        exact List.mem_cons_self
      · exact List.mem_cons_of_mem _ (ih hj)
  | moves hp hm hd hne hs rest ih =>
      rcases List.mem_cons.mp ((List.mem_cons.mp hj).resolve_left fun heq => by cases heq)
        with heq | hj
      · cases heq
        exact List.mem_cons_self
      · exact List.mem_cons_of_mem _ (ih hj)

/-- What a message leads to holds at most the completer of the message, in the block of a batch. -/
theorem Dispatches.block {s s' : Store} {db sel : Option Database} {id : MessageId}
    {fs : List InFlight} (h : Dispatches s db id s' fs sel) :
    ((∀ blk, .exec blk ∉ fs) ∧ fs.flatMap InFlight.own = [])
      ∨ ∃ blk ms, (∀ blk', .exec blk' ∈ fs → blk' = blk)
        ∧ fs.flatMap InFlight.own = InFlight.own (.exec blk)
        ∧ blk.done = (s.takeCompleter id).1 ∧ s.IsBatch id ms ∧ ∀ j ∈ blk.members, j ∈ ms := by
  cases h with
  | plain => exact Or.inl ⟨fun blk hb => (by cases List.mem_singleton.mp hb), rfl⟩
  | choice => exact Or.inl ⟨fun blk hb => (by cases List.mem_singleton.mp hb), rfl⟩
  | preceded =>
      refine Or.inl ⟨fun blk hb => ?_, rfl⟩
      cases List.mem_singleton.mp ((List.mem_cons.mp hb).resolve_left InFlight.noConfusion)
  | @batch m ms _ inside slots _ _ hm hb hexp hsel =>
      have hmessages : ∀ f ∈ inside, ∃ i, f = .message i := fun f hf => by
        obtain ⟨i, _, rfl, -⟩ := hexp.frames_fresh f hf
        exact ⟨i, rfl⟩
      have hnone : inside.flatMap InFlight.own = [] := List.flatMap_eq_nil_iff.mpr fun f hf => by
        obtain ⟨i, rfl⟩ := hmessages f hf
        rfl
      refine Or.inr ⟨⟨slots, (s.takeCompleter id).1⟩, ms, fun blk' hb' => ?_, ?_, rfl,
        ⟨m.draft, Store.draft?_of_get hm, hb⟩, fun j hj => ?_⟩
      · rcases List.mem_append.mp hb' with hb' | hb'
        · obtain ⟨i, hi⟩ := hmessages _
            ((List.mem_cons.mp hb').resolve_left InFlight.noConfusion)
          cases hi
        · cases List.mem_singleton.mp hb'
          rfl
      · rw [List.flatMap_append, List.flatMap_cons, hnone]
        exact List.append_nil _
      · obtain ⟨slot, hslot, heq⟩ := List.mem_filterMap.mp hj
        exact hexp.mem_of_slot (heq ▸ hslot)

/-- A round leaves the completers of the other messages alone. -/
theorem Dispatches.sink {s s' : Store} {db sel : Option Database} {id j : MessageId}
    {fs : List InFlight} (h : Dispatches s db id s' fs sel) (hj : j < s.messages.size)
    (hne : id ≠ j) : s'.sink j = s.sink j := by
  cases h with
  | plain => rfl
  | choice => rfl
  | preceded => exact (s.issue_sends _).sink j hj
  | batch hm hb hexp hsel =>
      have hlt : j < (s.takeCompleter id).2.messages.size := by
        rw [Store.takeCompleter_size]
        exact hj
      have hsends := (Store.issue_sends _ .multi).trans hexp.sends
      exact (hsends.sink j hlt).trans (Store.sink_congr (Store.takeCompleter_messages_ne hne))

namespace Pledges

variable {stray : MessageId → Prop} {owned accepted queued : List MessageId}
variable {frames fs : List InFlight} {s s' : Store} {id : MessageId}

/-- A frame of the pump itself. -/
theorem issue (h : Pledges stray owned frames s) (hc : Custody owned accepted queued frames s)
    (r : Request) :
    Pledges stray owned (frames ++ [.message s.messages.size]) (s.issue r) := by
  have hmade := h.add (m :=
    { request := r, frame := some r.frame, scope := [s.messages.size], created := s.now })
    fun ms hb => by cases hb
  have hissued : Pledges stray owned frames (s.issue r) := by
    refine hmade.move (.of_draft? fun b => Store.markSent_draft? _ _ b)
      (fun b ms => Store.markSent_batches.mp) (fun b ms hb hn => ?_)
      (fun k c' b hk ht => Or.inl ?_) fun blk d hf hd c b ms hb hk ht hw => ?_
    · exact ⟨Store.markSent_notSent _ _ hn, Store.markSent_sink _ _ b⟩
    · rw [Store.issue, Store.markSent_completions] at hk
      exact ⟨c', hk, ht⟩
    · refine ⟨c, ?_, ht, hw⟩
      rw [Store.issue, Store.markSent_completions]
      exact hk
  constructor
  case direct =>
    intro j hj hf
    rcases List.mem_append.mp hf with hf | hf
    · exact h.direct j hj hf
    · cases List.mem_singleton.mp hf
      exact absurd (hc.kinds.owned_single _ hj).lt_size (Nat.lt_irrefl _)
  case pledged =>
    intro blk hf
    refine hissued.pledged blk ((List.mem_append.mp hf).resolve_right fun hf => ?_)
    cases List.mem_singleton.mp hf
  case keys =>
    rw [List.flatMap_append]
    exact (List.append_nil _).symm ▸ h.keys
  case target => exact hissued.target
  case armed => exact hissued.armed
  case sole => exact hissued.sole

/-- A message is picked up, and what it leads to is in flight. A block gets the completer of its
batch. -/
theorem pickUp (h : Pledges stray owned frames s)
    (hc : Custody owned accepted (id :: queued) frames s)
    (hf : Fates stray owned (id :: queued) s) (hp : s.phase id = .notSent)
    {db sel : Option Database} (hd : Dispatches (s.markSent id).2 db id s' fs sel) :
    Pledges stray owned (frames ++ fs) s' := by
  have hgrows : s.Grows s' := (s.markSent_sends id).grows.trans hd.grows
  have hcompletions : s'.completions = s.completions :=
    hd.completions.trans (s.markSent_completions id)
  have hleft : Pledges stray owned frames s' := by
    refine h.move hgrows (fun b ms hb => Store.markSent_batches.mp (hd.batches hb))
      (fun b ms hb hn => ?_) (fun k c' b hk ht => Or.inl ?_)
      fun blk d _ _ c b ms hb hk ht hw => ?_
    · have hne : id ≠ b := by
        rintro rfl
        cases (hd.picked_self hp hb.lt_size).symm.trans hn
      refine ⟨?_, ?_⟩
      · rcases hd.picked_phase hb.lt_size with hsame | ⟨-, hsent⟩
        · exact hsame.symm.trans hn
        · cases hsent.symm.trans hn
      · refine (hd.sink ?_ hne).trans (s.markSent_sink id b)
        rw [Store.markSent_size]
        exact hb.lt_size
    · rw [hcompletions] at hk
      exact ⟨c', hk, ht⟩
    · rw [hcompletions]
      exact ⟨c, hk, ht, hw⟩
  -- the completion of the batch waits, so no block in flight has its completer
  have hfresh : ∀ (k : CompletionId) c, s.completions[k]? = some c → c.target = some id →
      k ∉ frames.flatMap InFlight.own := by
    intro k c hk ht hmem
    obtain ⟨f, hframe, hkf⟩ := List.mem_flatMap.mp hmem
    cases f with
    | message j => cases hkf
    | exec blk =>
        obtain ⟨d, hdone, rfl⟩ := List.mem_map.mp hkf
        obtain ⟨-, c₁, i, -, hc₁, hi, -, hne⟩ :=
          hc.completers.done blk hframe d (Option.mem_toList.mp hdone)
        cases hk.symm.trans hc₁
        cases ht.symm.trans hi
        exact hne hp
  constructor
  case direct =>
    intro j hj hframe
    rcases List.mem_append.mp hframe with hframe | hframe
    · exact h.direct j hj hframe
    · have hs := hc.kinds.owned_single j hj
      rcases hd.frames hframe with rfl | hle
      · exact (hf.queued j List.mem_cons_self).resolve_right fun ⟨ms, hb⟩ => hs.not_isBatch ms hb
      · rw [Store.markSent_size] at hle
        exact absurd hs.lt_size (Nat.not_lt.mpr hle)
  case pledged =>
    intro blk hframe
    rcases List.mem_append.mp hframe with hframe | hframe
    · exact hleft.pledged blk hframe
    · rcases hd.block with ⟨hnone, -⟩ | ⟨blk', ms, honly, -, hdone, hb, hms⟩
      · exact absurd hframe (hnone blk)
      · obtain rfl := honly blk hframe
        have hb := Store.markSent_batches.mp hb
        obtain ⟨d, hsink⟩ := h.armed id ms hb hp
        obtain ⟨⟨c, hk, ht⟩, -⟩ := hc.completers.target id d hsink
        have htaken : ((s.markSent id).2.takeCompleter id).1 = some d := by
          rw [Store.takeCompleter_fst, Store.markSent_sink]
          exact hsink
        refine ⟨d, c, id, ms, hdone.trans htaken, ?_, ht, hf.waiting _ c id hk ht hp,
          hgrows.isBatch hb, hms⟩
        rw [hcompletions]
        exact hk
  case keys =>
    rw [List.flatMap_append]
    rcases hd.block with ⟨-, hnone⟩ | ⟨blk, ms, -, hown, hdone, hb, -⟩
    · rw [hnone, List.append_nil]
      exact h.keys
    · rw [hown, InFlight.own_exec, hdone]
      refine List.nodup_append.mpr ⟨h.keys, ?_, fun k hmem k' hk => ?_⟩
      · cases ((s.markSent id).2.takeCompleter id).1 with
        | none => exact List.nodup_nil
        | some d => exact List.pairwise_singleton _ _
      · obtain ⟨d, hmem', rfl⟩ := List.mem_map.mp hk
        have hsink := (Store.takeCompleter_fst _ id d).mp (Option.mem_toList.mp hmem')
        rw [Store.markSent_sink] at hsink
        obtain ⟨⟨c, hk, ht⟩, -⟩ := hc.completers.target id d hsink
        rintro rfl
        exact hfresh _ c hk ht hmem
  case target => exact hleft.target
  case armed => exact hleft.armed
  case sole => exact hleft.sole

end Pledges

end RespMux
