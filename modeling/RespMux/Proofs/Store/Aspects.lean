import RespMux.Ledger

/-!
# Aspects of a message

What the store says of a message falls into a part that never changes, the draft, and the two
parts that do, the phase and the sink. Here stand the small facts on how the operations of the
store act on each of them, and on the completions that wait for an outcome. No later proof opens
one of these operations.
-/

set_option autoImplicit false

namespace RespMux

/-! ## Completions -/

namespace Completion

/-- Somebody waits for the outcome, and it has not been given. -/
def Waits (c : Completion) : Prop := c.stage = .waiting ∧ c.isOpen = true

@[simp] theorem wake_stage (c : Completion) : c.wake.stage = c.stage := by
  unfold wake
  split
  · rfl
  · rfl

@[simp] theorem wake_target (c : Completion) : c.wake.target = c.target := by
  unfold wake
  split
  · rfl
  · rfl

@[simp] theorem wake_isOpen (c : Completion) : c.wake.isOpen = c.isOpen := by
  unfold wake
  split
  · rfl
  · rfl

theorem deliver_of_waits {c : Completion} (h : c.Waits) (o : Outcome) :
    c.deliver o = { c with stage := .delivered o }.wake := by
  obtain ⟨hs, ho⟩ := h
  unfold deliver
  rw [hs, ho]

theorem deliver_of_not_waits {c : Completion} (h : ¬ c.Waits) (o : Outcome) :
    c.deliver o = c := by
  unfold deliver
  split
  · next hs ho => exact absurd ⟨hs, ho⟩ h
  · rfl

theorem deliver_stage {c : Completion} (h : c.Waits) (o : Outcome) :
    (c.deliver o).stage = .delivered o := by
  rw [deliver_of_waits h, wake_stage]

@[simp] theorem deliver_target (c : Completion) (o : Outcome) :
    (c.deliver o).target = c.target := by
  by_cases h : c.Waits
  · rw [deliver_of_waits h, wake_target]
  · rw [deliver_of_not_waits h]

@[simp] theorem deliver_isOpen (c : Completion) (o : Outcome) :
    (c.deliver o).isOpen = c.isOpen := by
  by_cases h : c.Waits
  · rw [deliver_of_waits h, wake_isOpen]
  · rw [deliver_of_not_waits h]

theorem not_waits_deliver (c : Completion) (o : Outcome) : ¬ (c.deliver o).Waits := by
  intro hw
  by_cases h : c.Waits
  · have hs : (c.deliver o).stage = .waiting := hw.1
    rw [deliver_stage h] at hs
    exact Stage.noConfusion hs
  · rw [deliver_of_not_waits h] at hw
    exact h hw

/-- A completer that gives an outcome has not gone away without one. -/
theorem deliver_stage_ne (c : Completion) (o : Outcome) (h : c.stage ≠ .abandoned) :
    (c.deliver o).stage ≠ .abandoned := by
  by_cases hw : c.Waits
  · rw [deliver_stage hw]
    exact Stage.noConfusion
  · rw [deliver_of_not_waits hw]
    exact h

/-- An outcome is given once: a second one changes nothing. -/
theorem deliver_deliver (c : Completion) (o o' : Outcome) :
    (c.deliver o).deliver o' = c.deliver o :=
  deliver_of_not_waits (not_waits_deliver c o) o'

end Completion

/-! ## The three aspects -/

/-- The message as it was created: everything about it that never changes. -/
def Message.draft (m : Message) : Message :=
  { m with phase := .notSent, sink := .empty, sentAt := none, released := false }

/-- The message when it has been answered, has failed or has been cancelled. -/
def Message.settled (m : Message) : Message :=
  { m with phase := .complete, sink := .consumed }

namespace Store

/-- The draft of a message. -/
def draft? (s : Store) (id : MessageId) : Option Message :=
  (s.messages[id]?).map Message.draft

/-- The message is neither an envelope nor a batch. -/
def IsSingle (s : Store) (id : MessageId) : Prop :=
  ∃ m, s.draft? id = some m ∧ m.body = .single

/-- The message is an envelope around `inner`. -/
def IsEnvelope (s : Store) (id inner : MessageId) : Prop :=
  ∃ m, s.draft? id = some m ∧ m.body = .envelope inner

/-- The message is a batch of `members`. -/
def IsBatch (s : Store) (id : MessageId) (members : List MessageId) : Prop :=
  ∃ m, s.draft? id = some m ∧ m.body = .batch members

/-- The outcome of the completion is still to come. -/
def Waits (s : Store) (k : CompletionId) : Prop :=
  ∃ c, s.completions[k]? = some c ∧ c.Waits

variable {s s' : Store} {id j : MessageId}

theorem phase_congr (h : s'.messages[id]? = s.messages[id]?) : s'.phase id = s.phase id := by
  unfold phase
  rw [h]

theorem sink_congr (h : s'.messages[id]? = s.messages[id]?) : s'.sink id = s.sink id := by
  unfold sink
  rw [h]

theorem draft?_congr (h : s'.messages[id]? = s.messages[id]?) : s'.draft? id = s.draft? id := by
  unfold draft?
  rw [h]

theorem phase_of_get {m : Message} (h : s.messages[id]? = some m) : s.phase id = m.phase := by
  unfold phase
  rw [h]

theorem sink_of_get {m : Message} (h : s.messages[id]? = some m) : s.sink id = m.sink := by
  unfold sink
  rw [h]

theorem draft?_of_get {m : Message} (h : s.messages[id]? = some m) :
    s.draft? id = some m.draft := by
  unfold draft?
  rw [h]
  rfl

theorem phase_of_none (h : s.messages[id]? = none) : s.phase id = .complete := by
  unfold phase
  rw [h]

theorem sink_of_size_le (h : s.messages.size ≤ id) : s.sink id = .consumed := by
  unfold sink
  rw [Array.getElem?_eq_none h]

theorem lt_size_of_sink (h : s.sink id = .empty) : id < s.messages.size := by
  refine Nat.lt_of_not_le fun hge => ?_
  rw [sink_of_size_le hge] at h
  cases h

theorem exists_get_of_phase_ne (h : s.phase id ≠ .complete) :
    ∃ m, s.messages[id]? = some m := by
  cases hm : s.messages[id]? with
  | none => exact absurd (phase_of_none hm) h
  | some m => exact ⟨m, rfl⟩

/-- Only a message that exists waits. -/
theorem lt_size_of_notSent (h : s.phase id = .notSent) : id < s.messages.size := by
  have hne : s.phase id ≠ .complete := by
    rw [h]
    decide
  obtain ⟨m, hm⟩ := exists_get_of_phase_ne hne
  exact (Array.getElem?_eq_some_iff.mp hm).1

theorem exists_get_of_draft? {m : Message} (h : s.draft? id = some m) :
    ∃ n, s.messages[id]? = some n ∧ n.draft = m :=
  Option.map_eq_some_iff.mp h

theorem lt_size_of_draft? {m : Message} (h : s.draft? id = some m) : id < s.messages.size := by
  obtain ⟨n, hn, -⟩ := exists_get_of_draft? h
  exact (Array.getElem?_eq_some_iff.mp hn).1

theorem draft?_of_size_le (h : s.messages.size ≤ id) : s.draft? id = none := by
  unfold draft?
  rw [Array.getElem?_eq_none h]
  rfl

theorem scopeOf_eq (s : Store) (id : MessageId) :
    s.scopeOf id = ((s.draft? id).map Message.scope).getD [] := by
  unfold scopeOf draft?
  cases s.messages[id]? with
  | none => rfl
  | some m => rfl

theorem requestOf_eq (s : Store) (id : MessageId) :
    s.requestOf id = ((s.draft? id).map Message.request).getD default := by
  unfold requestOf draft?
  cases s.messages[id]? with
  | none => rfl
  | some m => rfl

theorem scopeOf_congr (h : s'.draft? id = s.draft? id) : s'.scopeOf id = s.scopeOf id := by
  rw [scopeOf_eq, scopeOf_eq, h]

theorem scopeOf_of_draft? {m : Message} (h : s.draft? id = some m) : s.scopeOf id = m.scope := by
  rw [scopeOf_eq, h]
  rfl

theorem requestOf_congr (h : s'.draft? id = s.draft? id) : s'.requestOf id = s.requestOf id := by
  rw [requestOf_eq, requestOf_eq, h]

theorem requestOf_of_draft? {m : Message} (h : s.draft? id = some m) :
    s.requestOf id = m.request := by
  rw [requestOf_eq, h]
  rfl

/-! ### Kinds exclude each other -/

theorem IsSingle.congr (h : s'.draft? id = s.draft? id) : s'.IsSingle id ↔ s.IsSingle id := by
  unfold IsSingle
  rw [h]

theorem IsEnvelope.congr {inner : MessageId} (h : s'.draft? id = s.draft? id) :
    s'.IsEnvelope id inner ↔ s.IsEnvelope id inner := by
  unfold IsEnvelope
  rw [h]

theorem IsBatch.congr {ms : List MessageId} (h : s'.draft? id = s.draft? id) :
    s'.IsBatch id ms ↔ s.IsBatch id ms := by
  unfold IsBatch
  rw [h]

theorem IsSingle.not_isBatch (h : s.IsSingle id) (ms : List MessageId) : ¬ s.IsBatch id ms := by
  rintro ⟨m, hm, hb⟩
  obtain ⟨n, hn, hs⟩ := h
  rw [hm] at hn
  cases hn
  rw [hb] at hs
  exact Body.noConfusion hs

theorem IsEnvelope.not_isBatch {inner : MessageId} (h : s.IsEnvelope id inner)
    (ms : List MessageId) : ¬ s.IsBatch id ms := by
  rintro ⟨m, hm, hb⟩
  obtain ⟨n, hn, he⟩ := h
  rw [hm] at hn
  cases hn
  rw [hb] at he
  exact Body.noConfusion he

theorem IsSingle.not_isEnvelope (h : s.IsSingle id) (inner : MessageId) :
    ¬ s.IsEnvelope id inner := by
  rintro ⟨m, hm, he⟩
  obtain ⟨n, hn, hs⟩ := h
  rw [hm] at hn
  cases hn
  rw [he] at hs
  exact Body.noConfusion hs

theorem IsBatch.unique {ms ms' : List MessageId} (h : s.IsBatch id ms) (h' : s.IsBatch id ms') :
    ms = ms' := by
  obtain ⟨m, hm, hb⟩ := h
  obtain ⟨n, hn, hb'⟩ := h'
  rw [hm] at hn
  cases hn
  rw [hb] at hb'
  exact Body.batch.inj hb'

theorem IsSingle.lt_size (h : s.IsSingle id) : id < s.messages.size := by
  obtain ⟨m, hm, -⟩ := h
  exact lt_size_of_draft? hm

theorem IsEnvelope.lt_size {inner : MessageId} (h : s.IsEnvelope id inner) :
    id < s.messages.size := by
  obtain ⟨m, hm, -⟩ := h
  exact lt_size_of_draft? hm

theorem IsBatch.lt_size {ms : List MessageId} (h : s.IsBatch id ms) : id < s.messages.size := by
  obtain ⟨m, hm, -⟩ := h
  exact lt_size_of_draft? hm

/-! ## Changing one message -/

theorem modify_messages (s : Store) (id j : MessageId) (f : Message → Message) :
    (s.modify id f).messages[j]? = if id = j then (s.messages[j]?).map f else s.messages[j]? := by
  unfold modify
  rw [Array.getElem?_modify]

theorem modify_draft? {f : Message → Message} (hf : ∀ m, (f m).draft = m.draft)
    (s : Store) (id j : MessageId) : (s.modify id f).draft? j = s.draft? j := by
  unfold draft?
  rw [modify_messages]
  split
  · cases s.messages[j]? with
    | none => rfl
    | some m => exact congrArg some (hf m)
  · rfl

/-! ### Picking a message up -/

theorem markSent_of_notSent (h : s.phase id = .notSent) :
    s.markSent id
      = (true, s.modify id fun m => { m with phase := .sent, sentAt := some s.now }) := by
  unfold markSent
  rw [h]

theorem markSent_of_ne (h : s.phase id ≠ .notSent) : s.markSent id = (false, s) := by
  unfold markSent
  split
  · next hp => exact absurd hp h
  · rfl

theorem markSent_fst (s : Store) (id : MessageId) :
    (s.markSent id).1 = true ↔ s.phase id = .notSent := by
  by_cases h : s.phase id = .notSent
  · rw [markSent_of_notSent h]
    exact ⟨fun _ => h, fun _ => rfl⟩
  · rw [markSent_of_ne h]
    exact ⟨fun hf => Bool.noConfusion hf, fun hp => absurd hp h⟩

theorem markSent_messages (h : s.phase id = .notSent) (j : MessageId) :
    (s.markSent id).2.messages[j]?
      = if id = j then (s.messages[j]?).map fun m => { m with phase := .sent, sentAt := some s.now }
        else s.messages[j]? := by
  rw [markSent_of_notSent h]
  exact modify_messages _ _ _ _

@[simp] theorem markSent_draft? (s : Store) (id j : MessageId) :
    (s.markSent id).2.draft? j = s.draft? j := by
  by_cases h : s.phase id = .notSent
  · rw [markSent_of_notSent h]
    exact modify_draft? (f := fun m => { m with phase := .sent, sentAt := some s.now })
      (fun _ => rfl) s id j
  · rw [markSent_of_ne h]

@[simp] theorem markSent_completions (s : Store) (id : MessageId) :
    (s.markSent id).2.completions = s.completions := by
  by_cases h : s.phase id = .notSent
  · rw [markSent_of_notSent h]
    rfl
  · rw [markSent_of_ne h]

@[simp] theorem markSent_now (s : Store) (id : MessageId) : (s.markSent id).2.now = s.now := by
  by_cases h : s.phase id = .notSent
  · rw [markSent_of_notSent h]
    rfl
  · rw [markSent_of_ne h]

theorem markSent_phase_self (h : s.phase id = .notSent) : (s.markSent id).2.phase id = .sent := by
  have hne : s.phase id ≠ .complete := by
    rw [h]
    decide
  obtain ⟨m, hm⟩ := exists_get_of_phase_ne hne
  have hget := markSent_messages h id
  rw [if_pos rfl, hm] at hget
  exact phase_of_get hget

theorem markSent_messages_ne (h : id ≠ j) :
    (s.markSent id).2.messages[j]? = s.messages[j]? := by
  by_cases hp : s.phase id = .notSent
  · rw [markSent_messages hp, if_neg h]
  · rw [markSent_of_ne hp]

@[simp] theorem markSent_sink (s : Store) (id j : MessageId) :
    (s.markSent id).2.sink j = s.sink j := by
  by_cases hp : s.phase id = .notSent
  · have hget := markSent_messages hp j
    by_cases hj : id = j
    · rw [if_pos hj] at hget
      unfold sink
      rw [hget]
      cases s.messages[j]? with
      | none => rfl
      | some m => rfl
    · rw [if_neg hj] at hget
      exact sink_congr hget
  · rw [markSent_of_ne hp]

/-- Picking a message up makes it sent, if it was not sent, and leaves all others alone. -/
theorem markSent_phase (s : Store) (id j : MessageId) :
    (s.markSent id).2.phase j = s.phase j
      ∨ (j = id ∧ s.phase j = .notSent ∧ (s.markSent id).2.phase j = .sent) := by
  by_cases hj : id = j
  · subst hj
    by_cases hp : s.phase id = .notSent
    · exact Or.inr ⟨rfl, hp, markSent_phase_self hp⟩
    · rw [markSent_of_ne hp]
      exact Or.inl rfl
  · exact Or.inl (phase_congr (markSent_messages_ne hj))

theorem markSent_notSent (s : Store) (id : MessageId)
    (h : (s.markSent id).2.phase j = .notSent) : s.phase j = .notSent := by
  rcases s.markSent_phase id j with hp | ⟨-, hp, -⟩
  · exact hp.symm.trans h
  · exact hp

/-! ### Taking the completer away -/

theorem takeCompleter_fst (s : Store) (id : MessageId) (c : Completer) :
    (s.takeCompleter id).1 = some c ↔ s.sink id = .assigned c := by
  unfold takeCompleter
  cases hs : s.sink id with
  | empty => exact ⟨fun h => (by cases h), fun h => (by cases h)⟩
  | consumed => exact ⟨fun h => (by cases h), fun h => (by cases h)⟩
  | assigned d =>
      constructor
      · intro h
        cases h
        rfl
      · intro h
        cases h
        rfl

theorem takeCompleter_snd (s : Store) (id : MessageId) :
    (s.takeCompleter id).2 = s.modify id fun m => { m with sink := .consumed } := by
  unfold takeCompleter
  dsimp only
  split
  · rfl
  · rfl

@[simp] theorem takeCompleter_draft? (s : Store) (id j : MessageId) :
    (s.takeCompleter id).2.draft? j = s.draft? j := by
  rw [takeCompleter_snd]
  exact modify_draft? (f := fun m => { m with sink := .consumed }) (fun _ => rfl) s id j

@[simp] theorem takeCompleter_phase (s : Store) (id j : MessageId) :
    (s.takeCompleter id).2.phase j = s.phase j := by
  rw [takeCompleter_snd]
  unfold phase
  rw [modify_messages]
  by_cases hj : id = j
  · rw [if_pos hj]
    cases s.messages[j]? with
    | none => rfl
    | some m => rfl
  · rw [if_neg hj]

@[simp] theorem takeCompleter_sink_self (s : Store) (id : MessageId) :
    (s.takeCompleter id).2.sink id = .consumed := by
  rw [takeCompleter_snd]
  unfold sink
  rw [modify_messages, if_pos rfl]
  cases s.messages[id]? with
  | none => rfl
  | some m => rfl

theorem takeCompleter_messages_ne (h : id ≠ j) :
    (s.takeCompleter id).2.messages[j]? = s.messages[j]? := by
  rw [takeCompleter_snd, modify_messages, if_neg h]

@[simp] theorem takeCompleter_size (s : Store) (id : MessageId) :
    (s.takeCompleter id).2.messages.size = s.messages.size := by
  rw [takeCompleter_snd]
  exact Array.size_modify

@[simp] theorem takeCompleter_now (s : Store) (id : MessageId) :
    (s.takeCompleter id).2.now = s.now := by
  rw [takeCompleter_snd]
  rfl

@[simp] theorem takeCompleter_completions (s : Store) (id : MessageId) :
    (s.takeCompleter id).2.completions = s.completions := by
  rw [takeCompleter_snd]
  rfl

/-! ### Finishing a message -/

theorem finish_messages (s : Store) (id j : MessageId) (o : Shape → Outcome) :
    (s.finish id o).messages[j]?
      = if id = j then (s.messages[j]?).map Message.settled else s.messages[j]? := by
  have hmod : ((s.modify id fun m => { m with phase := .complete }).modify id
      fun m => { m with sink := .consumed }).messages[j]?
        = if id = j then (s.messages[j]?).map Message.settled else s.messages[j]? := by
    rw [modify_messages, modify_messages]
    split
    · rw [Option.map_map]
      rfl
    · rfl
  unfold finish takeCompleter
  dsimp only
  split
  · next c s'' heq =>
    split at heq
    · cases heq
      exact hmod
    · cases heq
  · next s'' heq =>
    split at heq
    · cases heq
    · cases heq
      exact hmod

theorem finish_completions (s : Store) (id : MessageId) (o : Shape → Outcome) :
    (s.finish id o).completions
      = match s.sink id with
        | .assigned c => s.completions.modify c.completion fun k => k.deliver (o c.shape)
        | _ => s.completions := by
  have hsink : (s.modify id fun m => { m with phase := .complete }).sink id = s.sink id := by
    unfold sink
    rw [modify_messages, if_pos rfl]
    cases s.messages[id]? with
    | none => rfl
    | some m => rfl
  unfold finish takeCompleter
  dsimp only
  rw [hsink]
  cases s.sink id with
  | empty => rfl
  | consumed => rfl
  | assigned c => rfl

@[simp] theorem finish_now (s : Store) (id : MessageId) (o : Shape → Outcome) :
    (s.finish id o).now = s.now := by
  unfold finish takeCompleter
  dsimp only
  split
  · next heq =>
    split at heq
    · cases heq
      rfl
    · cases heq
  · next heq =>
    split at heq
    · cases heq
    · cases heq
      rfl

/-! ### Creating a message -/

theorem add_messages (s : Store) (m : Message) (j : MessageId) :
    (s.add m).2.messages[j]? = if j = s.messages.size then some m else s.messages[j]? :=
  Array.getElem?_push

theorem add_messages_of_ne (m : Message) (h : j ≠ s.messages.size) :
    (s.add m).2.messages[j]? = s.messages[j]? := by
  rw [add_messages, if_neg h]

theorem add_messages_of_lt (m : Message) (h : j < s.messages.size) :
    (s.add m).2.messages[j]? = s.messages[j]? :=
  add_messages_of_ne m (Nat.ne_of_lt h)

@[simp] theorem add_draft?_self (s : Store) (m : Message) :
    (s.add m).2.draft? s.messages.size = some m.draft := by
  refine draft?_of_get ?_
  rw [add_messages, if_pos rfl]

@[simp] theorem add_phase_self (s : Store) (m : Message) :
    (s.add m).2.phase s.messages.size = m.phase := by
  refine phase_of_get ?_
  rw [add_messages, if_pos rfl]

@[simp] theorem add_sink_self (s : Store) (m : Message) :
    (s.add m).2.sink s.messages.size = m.sink := by
  refine sink_of_get ?_
  rw [add_messages, if_pos rfl]

theorem add_phase_of_lt (m : Message) (h : j < s.messages.size) :
    (s.add m).2.phase j = s.phase j :=
  phase_congr (add_messages_of_lt m h)

/-- What has been picked up is not the new message, as long as that has not been picked up. -/
theorem add_phase_of_ne {m : Message} (hm : m.phase = .notSent)
    (h : (s.add m).2.phase j ≠ .notSent) :
    j ≠ s.messages.size ∧ (s.add m).2.phase j = s.phase j := by
  have hj : j ≠ s.messages.size := by
    rintro rfl
    rw [add_phase_self] at h
    exact h hm
  exact ⟨hj, phase_congr (add_messages_of_ne m hj)⟩

/-- Whoever has a completer is not the new message, as long as that has none. -/
theorem add_sink_of_assigned {m : Message} (hm : m.sink = .empty) {c : Completer}
    (h : (s.add m).2.sink j = .assigned c) : s.sink j = .assigned c := by
  have hj : j ≠ s.messages.size := by
    rintro rfl
    rw [add_sink_self, hm] at h
    cases h
  rw [← sink_congr (add_messages_of_ne m hj)]
  exact h

/-- A batch of the new store is the new message or one of the old batches. -/
theorem IsBatch.of_add {m : Message} {ms : List MessageId} (h : (s.add m).2.IsBatch j ms) :
    (j = s.messages.size ∧ m.body = .batch ms) ∨ s.IsBatch j ms := by
  obtain ⟨n, hn, hb⟩ := h
  by_cases hj : j = s.messages.size
  · subst hj
    rw [add_draft?_self] at hn
    cases hn
    exact Or.inl ⟨rfl, hb⟩
  · rw [draft?_congr (add_messages_of_ne m hj)] at hn
    exact Or.inr ⟨n, hn, hb⟩

/-! ### Attaching a completion -/

/-- A new completion for a message, whose completer goes into the message. -/
def attach (s : Store) (id : MessageId) (shape : Shape) : Store :=
  ((s.addCompletion {}).2.modify id fun m =>
    { m with sink := .assigned ⟨s.completions.size, shape⟩ }).link s.completions.size id

@[simp] theorem attach_draft? (s : Store) (id j : MessageId) (shape : Shape) :
    (s.attach id shape).draft? j = s.draft? j :=
  modify_draft? (f := fun m => { m with sink := .assigned ⟨s.completions.size, shape⟩ })
    (fun _ => rfl) (s.addCompletion {}).2 id j

theorem attach_messages (s : Store) (id j : MessageId) (shape : Shape) :
    (s.attach id shape).messages[j]?
      = if id = j then (s.messages[j]?).map fun m =>
          { m with sink := .assigned ⟨s.completions.size, shape⟩ }
        else s.messages[j]? :=
  modify_messages (s.addCompletion {}).2 id j _

@[simp] theorem attach_phase (s : Store) (id j : MessageId) (shape : Shape) :
    (s.attach id shape).phase j = s.phase j := by
  unfold phase
  rw [attach_messages]
  by_cases hj : id = j
  · rw [if_pos hj]
    cases s.messages[j]? with
    | none => rfl
    | some m => rfl
  · rw [if_neg hj]

theorem attach_sink_self (h : id < s.messages.size) (shape : Shape) :
    (s.attach id shape).sink id = .assigned ⟨s.completions.size, shape⟩ := by
  unfold sink
  rw [attach_messages, if_pos rfl, Array.getElem?_eq_getElem h]
  rfl

theorem attach_completions (s : Store) (id : MessageId) (shape : Shape) (k : CompletionId) :
    (s.attach id shape).completions[k]?
      = if k = s.completions.size then some { target := some id } else s.completions[k]? := by
  show ((s.completions.push {}).modify s.completions.size _)[k]? = _
  rw [Array.getElem?_modify, Array.getElem?_push]
  by_cases hk : k = s.completions.size
  · rw [if_pos hk.symm, if_pos hk, if_pos hk]
    rfl
  · rw [if_neg (Ne.symm hk), if_neg hk, if_neg hk]

theorem attach_messages_ne (h : id ≠ j) (shape : Shape) :
    (s.attach id shape).messages[j]? = s.messages[j]? := by
  rw [attach_messages, if_neg h]

@[simp] theorem attach_isBatch (id : MessageId) (shape : Shape) {ms : List MessageId} :
    (s.attach id shape).IsBatch j ms ↔ s.IsBatch j ms :=
  IsBatch.congr (s.attach_draft? id j shape)

/-- The other messages have their completers still. -/
theorem attach_sink_of_ne (hempty : s.sink id = .empty) {shape : Shape}
    (h : s.sink j ≠ .empty) : (s.attach id shape).sink j = s.sink j := by
  have hj : id ≠ j := by
    rintro rfl
    exact h hempty
  exact sink_congr (attach_messages_ne hj shape)

@[simp] theorem attach_completion_self (s : Store) (id : MessageId) (shape : Shape) :
    (s.attach id shape).completions[s.completions.size]? = some { target := some id } := by
  rw [attach_completions, if_pos rfl]

theorem attach_completion_of_some {shape : Shape} {k : CompletionId} {c : Completion}
    (h : s.completions[k]? = some c) : (s.attach id shape).completions[k]? = some c := by
  have hlt : k < s.completions.size := (Array.getElem?_eq_some_iff.mp h).1
  rw [attach_completions, if_neg (Nat.ne_of_lt hlt)]
  exact h

/-! ## Stores that only grow -/

/-- All messages of `s` are in `s'`, as they were created. -/
def Grows (s s' : Store) : Prop := ∀ id m, s.draft? id = some m → s'.draft? id = some m

theorem Grows.refl (s : Store) : s.Grows s := fun _ _ h => h

theorem Grows.trans {s₁ s₂ s₃ : Store} (h : s₁.Grows s₂) (h' : s₂.Grows s₃) : s₁.Grows s₃ :=
  fun id m hm => h' id m (h id m hm)

theorem Grows.size_le (h : s.Grows s') : s.messages.size ≤ s'.messages.size := by
  refine Nat.le_of_not_lt fun hlt => ?_
  -- the first message that `s'` lacks is one of `s`, and has not been lost
  obtain ⟨m, hm⟩ : ∃ m, s.messages[s'.messages.size]? = some m :=
    ⟨_, Array.getElem?_eq_getElem hlt⟩
  have hkept := lt_size_of_draft? (h _ _ (draft?_of_get hm))
  exact absurd hkept (Nat.lt_irrefl _)

theorem Grows.of_draft? (h : ∀ id, s'.draft? id = s.draft? id) : s.Grows s' :=
  fun id _ hm => (h id).trans hm

theorem Grows.add (s : Store) (m : Message) : s.Grows (s.add m).2 := by
  intro id n hn
  rw [draft?_congr (add_messages_of_lt m (lt_size_of_draft? hn))]
  exact hn

theorem Grows.isSingle (h : s.Grows s') (hs : s.IsSingle id) : s'.IsSingle id := by
  obtain ⟨m, hm, hb⟩ := hs
  exact ⟨m, h id m hm, hb⟩

theorem Grows.isEnvelope {inner : MessageId} (h : s.Grows s') (hs : s.IsEnvelope id inner) :
    s'.IsEnvelope id inner := by
  obtain ⟨m, hm, hb⟩ := hs
  exact ⟨m, h id m hm, hb⟩

theorem Grows.isBatch {ms : List MessageId} (h : s.Grows s') (hs : s.IsBatch id ms) :
    s'.IsBatch id ms := by
  obtain ⟨m, hm, hb⟩ := hs
  exact ⟨m, h id m hm, hb⟩

/-- A batch has been one ever since it exists. -/
theorem Grows.isBatch_of_lt {ms : List MessageId} (h : s.Grows s') (hlt : id < s.messages.size)
    (hs : s'.IsBatch id ms) : s.IsBatch id ms := by
  obtain ⟨m, hm, hb⟩ := hs
  have hold := draft?_of_get (Array.getElem?_eq_getElem hlt)
  cases hm.symm.trans (h id _ hold)
  exact ⟨_, hold, hb⟩

/-! ## Well-formed stores -/

/-- Messages contain each other only one level deep: envelopes and batches are made of single
messages, and frame and scope are what the body says. -/
structure WellFormed (s : Store) : Prop where
  single : ∀ id m, s.draft? id = some m → m.body = .single →
    m.frame = some m.request.frame ∧ m.scope = [id]
  envelope : ∀ id m inner, s.draft? id = some m → m.body = .envelope inner →
    ∃ i, s.draft? inner = some i ∧ i.body = .single ∧ m.request = i.request.queued
      ∧ m.frame = i.frame ∧ m.scope = [inner, id]
  batch : ∀ id m ms, s.draft? id = some m → m.body = .batch ms →
    m.frame = none ∧ m.scope = ms ++ [id] ∧ ∀ j ∈ ms, s.IsSingle j

theorem WellFormed.congr (wf : s.WellFormed) (h : ∀ id, s'.draft? id = s.draft? id) :
    s'.WellFormed where
  single id m hm hb := wf.single id m ((h id).symm.trans hm) hb
  envelope id m inner hm hb := by
    obtain ⟨i, hi, hrest⟩ := wf.envelope id m inner ((h id).symm.trans hm) hb
    exact ⟨i, (h inner).trans hi, hrest⟩
  batch id m ms hm hb := by
    obtain ⟨hf, hs, hms⟩ := wf.batch id m ms ((h id).symm.trans hm) hb
    exact ⟨hf, hs, fun j hj => (IsSingle.congr (h j)).mpr (hms j hj)⟩

theorem WellFormed.scopeOf_single (wf : s.WellFormed) (h : s.IsSingle id) :
    s.scopeOf id = [id] := by
  obtain ⟨m, hm, hb⟩ := h
  rw [scopeOf_of_draft? hm]
  exact (wf.single id m hm hb).2

theorem WellFormed.scopeOf_envelope (wf : s.WellFormed) {inner : MessageId}
    (h : s.IsEnvelope id inner) : s.scopeOf id = [inner, id] := by
  obtain ⟨m, hm, hb⟩ := h
  obtain ⟨i, -, -, -, -, hscope⟩ := wf.envelope id m inner hm hb
  rw [scopeOf_of_draft? hm]
  exact hscope

theorem WellFormed.scopeOf_batch (wf : s.WellFormed) {ms : List MessageId}
    (h : s.IsBatch id ms) : s.scopeOf id = ms ++ [id] := by
  obtain ⟨m, hm, hb⟩ := h
  rw [scopeOf_of_draft? hm]
  exact (wf.batch id m ms hm hb).2.1

theorem WellFormed.inner_single (wf : s.WellFormed) {inner : MessageId}
    (h : s.IsEnvelope id inner) : s.IsSingle inner := by
  obtain ⟨m, hm, hb⟩ := h
  obtain ⟨i, hi, hs, -⟩ := wf.envelope id m inner hm hb
  exact ⟨i, hi, hs⟩

theorem WellFormed.member_single (wf : s.WellFormed) {ms : List MessageId}
    (h : s.IsBatch id ms) : ∀ j ∈ ms, s.IsSingle j := by
  obtain ⟨m, hm, hb⟩ := h
  exact (wf.batch id m ms hm hb).2.2

/-- No member of a batch is the batch itself. -/
theorem WellFormed.member_ne (wf : s.WellFormed) {ms : List MessageId} (h : s.IsBatch id ms) :
    ∀ j ∈ ms, j ≠ id ∧ j < s.messages.size := by
  intro j hj
  have hsingle := wf.member_single h j hj
  exact ⟨fun heq => hsingle.not_isBatch ms (heq ▸ h), hsingle.lt_size⟩

/-- Every message fails with itself. -/
theorem WellFormed.mem_scopeOf (wf : s.WellFormed) (h : id < s.messages.size) :
    id ∈ s.scopeOf id := by
  have hm := draft?_of_get (Array.getElem?_eq_getElem h)
  cases hb : (s.messages[id]).draft.body with
  | single =>
      rw [wf.scopeOf_single ⟨_, hm, hb⟩]
      exact List.mem_singleton_self id
  | envelope inner =>
      rw [wf.scopeOf_envelope ⟨_, hm, hb⟩]
      exact List.mem_cons_of_mem inner (List.mem_singleton_self id)
  | batch ms =>
      rw [wf.scopeOf_batch ⟨_, hm, hb⟩]
      exact List.mem_append_right ms (List.mem_singleton_self id)

/-- Single messages fail alone. -/
theorem WellFormed.flatMap_scopeOf (wf : s.WellFormed) {ids : List MessageId}
    (h : ∀ j ∈ ids, s.IsSingle j) : ids.flatMap s.scopeOf = ids := by
  induction ids with
  | nil => rfl
  | cons j ids ih =>
      rw [List.flatMap_cons, wf.scopeOf_single (h j List.mem_cons_self),
        ih fun i hi => h i (List.mem_cons_of_mem j hi)]
      rfl

/-- A new message keeps the store well-formed if it fits what is there already. -/
theorem WellFormed.add (wf : s.WellFormed) {m : Message}
    (hsingle : m.body = .single → m.frame = some m.request.frame ∧ m.scope = [s.messages.size])
    (henvelope : ∀ inner, m.body = .envelope inner →
      ∃ i, s.draft? inner = some i ∧ i.body = .single ∧ m.request = i.request.queued
        ∧ m.frame = i.frame ∧ m.scope = [inner, s.messages.size])
    (hbatch : ∀ ms, m.body = .batch ms →
      m.frame = none ∧ m.scope = ms ++ [s.messages.size] ∧ ∀ j ∈ ms, s.IsSingle j) :
    (s.add m).2.WellFormed := by
  have hgrow : s.Grows (s.add m).2 := .add s m
  -- a message of the new store is the new one or one of the old ones
  have hcases : ∀ id n, (s.add m).2.draft? id = some n →
      (id = s.messages.size ∧ n = m.draft) ∨ s.draft? id = some n := by
    intro id n hn
    by_cases hid : id = s.messages.size
    · subst hid
      rw [add_draft?_self] at hn
      exact Or.inl ⟨rfl, (Option.some.inj hn).symm⟩
    · refine Or.inr ?_
      rw [← hn]
      refine (draft?_congr ?_).symm
      rw [add_messages, if_neg hid]
  constructor
  · intro id n hn hb
    rcases hcases id n hn with ⟨rfl, rfl⟩ | hold
    · exact hsingle hb
    · exact wf.single id n hold hb
  · intro id n inner hn hb
    rcases hcases id n hn with ⟨rfl, rfl⟩ | hold
    · obtain ⟨i, hi, hrest⟩ := henvelope inner hb
      exact ⟨i, hgrow inner i hi, hrest⟩
    · obtain ⟨i, hi, hrest⟩ := wf.envelope id n inner hold hb
      exact ⟨i, hgrow inner i hi, hrest⟩
  · intro id n ms hn hb
    rcases hcases id n hn with ⟨rfl, rfl⟩ | hold
    · obtain ⟨hf, hs, hms⟩ := hbatch ms hb
      exact ⟨hf, hs, fun j hj => hgrow.isSingle (hms j hj)⟩
    · obtain ⟨hf, hs, hms⟩ := wf.batch id n ms hold hb
      exact ⟨hf, hs, fun j hj => hgrow.isSingle (hms j hj)⟩

end Store

end RespMux
