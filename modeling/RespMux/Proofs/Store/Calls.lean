import RespMux.Proofs.Store.Gifts

/-!
# Calls on messages

Whoever holds a message can call it at any time: set its completion, pick it up, cancel it,
complete it with a reply, fail it or take its completer away. Here stands what a single call does,
and to whom: it reaches messages with an outcome (`Reaches`), and leaves the completers of all
others where they are, unless it takes one away.
-/

set_option autoImplicit false

namespace RespMux

/-- A call on the messages of a store, or the making of one. -/
inductive Call where
  | create (r : Request)
  | envelope (inner : MessageId)
  | batch (members : List MessageId)
  /-- sets a new completion, for a result of the given shape -/
  | assign (id : MessageId) (shape : Shape)
  | markSent (id : MessageId)
  | takeCompleter (id : MessageId)
  | cancel (id : MessageId)
  | complete (id : MessageId) (r : Reply)
  | fail (id : MessageId) (error : Error)
  /-- time passes -/
  | tick (now : Duration)

namespace Call

/-- The messages that a call is about, all of which have to be there. -/
def subjects : Call → List MessageId
  | create _ | tick _ => []
  | batch members => members
  | envelope id | assign id _ | markSent id | takeCompleter id | cancel id | complete id _
  | fail id _ => [id]

/-- The message whose completion a call sets, if the message takes it. -/
def assigned (s : Store) : Call → List MessageId
  | assign id shape =>
      match s.assign id ⟨s.completions.size, shape⟩ with
      | .ok _ => [id]
      | .error _ => []
  | _ => []

/-- The gifts of a call. -/
def gifts (s : Store) : Call → List Gift
  | cancel id => s.cancelGifts id
  | complete id r => s.completeGifts id r
  | fail id e => s.failGifts id e
  | _ => []

end Call

namespace Store

/-- Sets a new completion; a completer that is refused goes away at once. -/
def setCompletion (s : Store) (id : MessageId) (shape : Shape) : Store :=
  let (k, s) := s.addCompletion {}
  match s.assign id ⟨k, shape⟩ with
  | .ok s => s
  | .error _ => s.modifyCompletion k Completion.abandon

/-- The store after a call. -/
def perform (s : Store) : Call → Store
  | .create r => (s.create r).2
  | .envelope inner => (s.envelope inner).2
  | .batch members => (s.batch members).2
  | .assign id shape => s.setCompletion id shape
  | .markSent id => (s.markSent id).2
  | .takeCompleter id => (s.takeCompleter id).2
  | .cancel id => (s.cancel id).2
  | .complete id r => s.complete id r
  | .fail id e => s.fail id e
  | .tick now => { s with now := now }

/-- A call reaches a message with an outcome: directly, through the failure of an envelope around
it, or through the failure or the cancellation of a batch it is in. -/
inductive Reaches (s : Store) : Call → MessageId → (Shape → Outcome) → Prop where
  | failed {id j : MessageId} {e : Error} (h : s.Contains id j) :
      Reaches s (.fail id e) j fun _ => .error e
  | cancelled {id j : MessageId} (hp : s.phase id = .notSent) (h : s.Contains id j) :
      Reaches s (.cancel id) j fun _ => .error .cancelled
  | answered {id : MessageId} {r : Reply} {m : Message} (hm : s.messages[id]? = some m) :
      Reaches s (.complete id r) id fun shape => shape.extract (m.timedReply s.now r)
  /-- an envelope that is not queued fails what is in it -/
  | unqueued {id inner j : MessageId} {t : String} (he : s.IsEnvelope id inner)
      (h : s.Contains inner j) :
      Reaches s (.complete id (.error t)) j fun _ => .error (.server t)

variable {s s' : Store} {id j : MessageId}

/-! ## Setting a completion -/

theorem assign_of_empty (h : s.sink id = .empty) (c : Completer) :
    s.assign id c = .ok (s.modify id fun m => { m with sink := .assigned c }) := by
  unfold assign
  rw [h]

theorem assign_of_ne (h : s.sink id ≠ .empty) (c : Completer) :
    s.assign id c = .error .completionAssigned := by
  unfold assign
  split
  · next he => exact absurd he h
  · rfl

/-- The last completion is the one that has been added. -/
theorem modifyCompletion_addCompletion (s : Store) (c : Completion) (f : Completion → Completion) :
    (s.addCompletion c).2.modifyCompletion s.completions.size f = (s.addCompletion (f c)).2 := by
  have harray : (s.completions.push c).modify s.completions.size f = s.completions.push (f c) := by
    refine Array.ext_getElem? fun k => ?_
    rw [Array.getElem?_modify, Array.getElem?_push, Array.getElem?_push]
    by_cases hk : k = s.completions.size
    · rw [if_pos hk.symm, if_pos hk, if_pos hk]
      rfl
    · rw [if_neg (Ne.symm hk), if_neg hk, if_neg hk]
  unfold modifyCompletion addCompletion
  rw [harray]

/-- The store in which the message has the completer. -/
def assigning (s : Store) (id : MessageId) (c : Completer) : Store :=
  s.modify id fun m => { m with sink := .assigned c }

@[simp] theorem assigning_draft? (s : Store) (id : MessageId) (c : Completer) (j : MessageId) :
    (s.assigning id c).draft? j = s.draft? j :=
  modify_draft? (f := fun m => { m with sink := .assigned c }) (fun _ => rfl) s id j

theorem assigning_messages_ne (c : Completer) (h : id ≠ j) :
    (s.assigning id c).messages[j]? = s.messages[j]? := by
  unfold assigning
  rw [modify_messages, if_neg h]

theorem assigning_sink_self (c : Completer) (h : id < s.messages.size) :
    (s.assigning id c).sink id = .assigned c := by
  unfold sink assigning
  rw [modify_messages, if_pos rfl, Array.getElem?_eq_getElem h]
  rfl

@[simp] theorem assigning_phase (s : Store) (id : MessageId) (c : Completer) (j : MessageId) :
    (s.assigning id c).phase j = s.phase j := by
  by_cases hj : id = j
  · unfold phase assigning
    rw [modify_messages, if_pos hj]
    cases s.messages[j]? with
    | none => rfl
    | some m => rfl
  · exact phase_congr (assigning_messages_ne c hj)

theorem setCompletion_of_empty (h : s.sink id = .empty) (shape : Shape) :
    s.setCompletion id shape
      = (s.addCompletion {}).2.assigning id ⟨s.completions.size, shape⟩ := by
  unfold setCompletion
  dsimp only
  rw [assign_of_empty (s := (s.addCompletion {}).2) h]
  rfl

theorem setCompletion_of_ne (h : s.sink id ≠ .empty) (shape : Shape) :
    s.setCompletion id shape = (s.addCompletion (Completion.abandon {})).2 := by
  unfold setCompletion
  dsimp only
  rw [assign_of_ne (s := (s.addCompletion {}).2) h]
  exact modifyCompletion_addCompletion s {} Completion.abandon

/-! ## Whom a call reaches -/

theorem perform_cancel (s : Store) (id : MessageId) :
    s.perform (.cancel id) = ((Call.cancel id).gifts s).foldl give s :=
  cancel_eq_give s id

theorem perform_complete (s : Store) (id : MessageId) (r : Reply) :
    s.perform (.complete id r) = ((Call.complete id r).gifts s).foldl give s :=
  complete_eq_give s id r

theorem perform_fail (s : Store) (id : MessageId) (e : Error) :
    s.perform (.fail id e) = ((Call.fail id e).gifts s).foldl give s :=
  fail_eq_give s id e

/-- The gifts of a call go to the messages that it reaches. -/
theorem mem_gifts (hs : s.Nested) {c : Call} {f : Shape → Outcome} :
    ⟨j, f⟩ ∈ c.gifts s ↔ s.Reaches c j f := by
  constructor
  · intro h
    cases c with
    | cancel id =>
        replace h : ⟨j, f⟩ ∈ s.cancelGifts id := h
        unfold cancelGifts at h
        split at h
        · next hp =>
          obtain ⟨hc, rfl⟩ := (mem_failGifts hs).mp h
          exact .cancelled hp hc
        · cases h
    | complete id r =>
        replace h : ⟨j, f⟩ ∈ s.completeGifts id r := h
        cases hm : s.messages[id]? with
        | none =>
            unfold completeGifts at h
            rw [hm] at h
            cases h
        | some m =>
            rw [completeGifts_of_get hm, List.mem_append, List.mem_singleton] at h
            rcases h with h | h
            · rcases envelope_error_or m r with ⟨inner, t, hb, rfl⟩ | hr
              · rw [innerGifts_of_envelope hb] at h
                obtain ⟨hc, rfl⟩ := (mem_failGifts hs).mp h
                exact .unqueued ⟨m.draft, draft?_of_get hm, hb⟩ hc
              · rw [innerGifts_of_ne hr] at h
                cases h
            · cases h
              exact .answered hm
    | fail id e =>
        obtain ⟨hc, rfl⟩ := (mem_failGifts hs).mp h
        exact .failed hc
    | create r => cases h
    | envelope inner => cases h
    | batch members => cases h
    | assign id shape => cases h
    | markSent id => cases h
    | takeCompleter id => cases h
    | tick now => cases h
  · intro h
    cases h with
    | failed hc => exact (mem_failGifts hs).mpr ⟨hc, rfl⟩
    | @cancelled id _ hp hc =>
        show _ ∈ s.cancelGifts id
        unfold cancelGifts
        rw [hp]
        exact (mem_failGifts hs).mpr ⟨hc, rfl⟩
    | @answered _ r m hm =>
        show _ ∈ s.completeGifts j r
        rw [completeGifts_of_get hm]
        exact List.mem_append_right _ (List.mem_singleton_self _)
    | @unqueued id inner _ t he hc =>
        obtain ⟨m, hm, hb⟩ := he
        obtain ⟨n, hn, rfl⟩ := exists_get_of_draft? hm
        show _ ∈ s.completeGifts id (.error t)
        rw [completeGifts_of_get hn, innerGifts_of_envelope (m := n) hb]
        exact List.mem_append_left _ ((mem_failGifts hs).mpr ⟨hc, rfl⟩)

/-- What is in a message is older than the message, so no envelope is undone by itself. -/
theorem Nested.not_contains_of_isEnvelope (hs : s.Nested) {inner : MessageId}
    (he : s.IsEnvelope id inner) : ¬ s.Contains inner id := by
  obtain ⟨m, hm, hb⟩ := he
  exact fun hc => Nat.not_le_of_lt (hs.envelope id m inner hm hb).1 (hs.le_of_contains hc)

/-- A call has one outcome for a message. -/
theorem Reaches.unique (hs : s.Nested) {c : Call} {f f' : Shape → Outcome}
    (h : s.Reaches c j f) (h' : s.Reaches c j f') : f = f' := by
  cases h with
  | failed _ =>
      cases h'
      rfl
  | cancelled _ _ =>
      cases h'
      rfl
  | answered hm =>
      cases h' with
      | answered hm' =>
          cases hm.symm.trans hm'
          rfl
      | unqueued he hc => exact absurd hc (hs.not_contains_of_isEnvelope he)
  | unqueued he hc =>
      cases h' with
      | answered _ => exact absurd hc (hs.not_contains_of_isEnvelope he)
      | unqueued _ _ => rfl

/-! ## What a call does to a completer -/

/-- A completer comes into a message only when it is new. -/
theorem holds_of_perform {k : CompletionId} (c : Call) (hk : k < s.completions.size)
    (h : (s.perform c).Holds j k) : s.Holds j k := by
  have hgifts : ∀ gs : List Gift, (gs.foldl give s).Holds j k → s.Holds j k := by
    rintro gs ⟨sh, hj⟩
    rcases foldl_give_sink gs j with he | he
    · exact ⟨sh, he.symm.trans hj⟩
    · exact Sink.noConfusion (he.symm.trans hj)
  cases c with
  | create r => exact h.imp fun _ hj => add_sink_of_assigned rfl hj
  | envelope inner => exact h.imp fun _ hj => add_sink_of_assigned rfl hj
  | batch members => exact h.imp fun _ hj => add_sink_of_assigned rfl hj
  | assign id shape =>
      by_cases hempty : s.sink id = .empty
      · obtain ⟨sh, hj⟩ := h
        replace hj : (s.setCompletion id shape).sink j = _ := hj
        rw [setCompletion_of_empty hempty] at hj
        by_cases hid : id = j
        · subst hid
          have hself := assigning_sink_self (s := (s.addCompletion {}).2)
            ⟨s.completions.size, shape⟩ (lt_size_of_sink hempty)
          cases hself.symm.trans hj
          exact absurd hk (Nat.lt_irrefl _)
        · exact ⟨sh, (sink_congr (assigning_messages_ne _ hid)).symm.trans hj⟩
      · replace h : (s.setCompletion id shape).Holds j k := h
        rw [setCompletion_of_ne hempty] at h
        exact h
  | markSent id => exact h.imp fun _ hj => (s.markSent_sink id j).symm.trans hj
  | takeCompleter id =>
      obtain ⟨sh, hj⟩ := h
      by_cases hid : id = j
      · subst hid
        exact Sink.noConfusion ((s.takeCompleter_sink_self id).symm.trans hj)
      · exact ⟨sh, (sink_congr (takeCompleter_messages_ne hid)).symm.trans hj⟩
  | cancel id =>
      rw [perform_cancel] at h
      exact hgifts _ h
  | complete id r =>
      rw [perform_complete] at h
      exact hgifts _ h
  | fail id e =>
      rw [perform_fail] at h
      exact hgifts _ h
  | tick now => exact h

/-- Whoever is not reached keeps the completer, unless it is taken away. -/
theorem perform_sink_of_not_reaches (hs : s.Nested) {call : Call} {c : Completer}
    (hsink : s.sink j = .assigned c) (hother : ∀ f, ¬ s.Reaches call j f)
    (htake : call ≠ .takeCompleter j) : (s.perform call).sink j = s.sink j := by
  have hne : s.sink j ≠ .empty := fun he => Sink.noConfusion (hsink.symm.trans he)
  have hnew : j ≠ s.messages.size := by
    rintro rfl
    exact Sink.noConfusion (hsink.symm.trans (sink_of_size_le (Nat.le_refl _)))
  have hgifts : ∀ g ∈ call.gifts s, g.id ≠ j := by
    rintro g hg rfl
    exact hother g.outcome ((mem_gifts hs).mp hg)
  cases call with
  | create r => exact sink_congr (add_messages_of_ne _ hnew)
  | envelope inner => exact sink_congr (add_messages_of_ne _ hnew)
  | batch members => exact sink_congr (add_messages_of_ne _ hnew)
  | assign id shape =>
      show (s.setCompletion id shape).sink j = _
      by_cases hempty : s.sink id = .empty
      · have hid : id ≠ j := by
          rintro rfl
          exact hne hempty
        rw [setCompletion_of_empty hempty]
        exact sink_congr (assigning_messages_ne _ hid)
      · rw [setCompletion_of_ne hempty]
        rfl
  | markSent id => exact s.markSent_sink id j
  | takeCompleter id =>
      have hid : id ≠ j := by
        rintro rfl
        exact htake rfl
      exact sink_congr (takeCompleter_messages_ne hid)
  | cancel id =>
      rw [perform_cancel]
      exact foldl_give_sink_of_ne hgifts
  | complete id r =>
      rw [perform_complete]
      exact foldl_give_sink_of_ne hgifts
  | fail id e =>
      rw [perform_fail]
      exact foldl_give_sink_of_ne hgifts
  | tick now => rfl

/-! ## Nothing disappears -/

theorem lt_size_congr (hd : ∀ id, s'.draft? id = s.draft? id) (h : id < s.messages.size) :
    id < s'.messages.size :=
  lt_size_of_draft? ((hd id).trans (draft?_of_get (Array.getElem?_eq_getElem h)))

theorem setCompletion_draft? (s : Store) (id : MessageId) (shape : Shape) (j : MessageId) :
    (s.setCompletion id shape).draft? j = s.draft? j := by
  by_cases hempty : s.sink id = .empty
  · rw [setCompletion_of_empty hempty]
    exact (s.addCompletion {}).2.assigning_draft? id _ j
  · rw [setCompletion_of_ne hempty]
    rfl

theorem perform_grows (s : Store) (c : Call) : s.Grows (s.perform c) := by
  cases c with
  | create r => exact .add s _
  | envelope inner => exact .add s _
  | batch members => exact .add s _
  | assign id shape => exact .of_draft? (s.setCompletion_draft? id shape)
  | markSent id => exact .of_draft? (s.markSent_draft? id)
  | takeCompleter id => exact .of_draft? (s.takeCompleter_draft? id)
  | cancel id =>
      rw [perform_cancel]
      exact .of_draft? (foldl_give_draft? _)
  | complete id r =>
      rw [perform_complete]
      exact .of_draft? (foldl_give_draft? _)
  | fail id e =>
      rw [perform_fail]
      exact .of_draft? (foldl_give_draft? _)
  | tick now => exact .refl s

theorem perform_lt_size (c : Call) (h : j < s.messages.size) : j < (s.perform c).messages.size :=
  lt_size_of_draft? (s.perform_grows c j _ (draft?_of_get (Array.getElem?_eq_getElem h)))

theorem perform_completions_size (s : Store) (c : Call) :
    s.completions.size ≤ (s.perform c).completions.size := by
  cases c with
  | create r => exact Nat.le_refl _
  | envelope inner => exact Nat.le_refl _
  | batch members => exact Nat.le_refl _
  | assign id shape =>
      show _ ≤ (s.setCompletion id shape).completions.size
      have hpush : ∀ c, s.completions.size ≤ (s.addCompletion c).2.completions.size := fun c =>
        (Array.size_push c).symm ▸ Nat.le_succ s.completions.size
      by_cases hempty : s.sink id = .empty
      · rw [setCompletion_of_empty hempty]
        exact hpush {}
      · rw [setCompletion_of_ne hempty]
        exact hpush _
  | markSent id => exact Nat.le_of_eq (congrArg Array.size (s.markSent_completions id).symm)
  | takeCompleter id => exact Nat.le_of_eq (congrArg Array.size (s.takeCompleter_completions id).symm)
  | cancel id =>
      rw [perform_cancel]
      exact Nat.le_of_eq (foldl_give_completions_size _).symm
  | complete id r =>
      rw [perform_complete]
      exact Nat.le_of_eq (foldl_give_completions_size _).symm
  | fail id e =>
      rw [perform_fail]
      exact Nat.le_of_eq (foldl_give_completions_size _).symm
  | tick now => exact Nat.le_refl _

/-! ## Phases only advance -/

theorem setCompletion_phase (s : Store) (id : MessageId) (shape : Shape) (j : MessageId) :
    (s.setCompletion id shape).phase j = s.phase j := by
  by_cases hempty : s.sink id = .empty
  · rw [setCompletion_of_empty hempty]
    exact (s.addCompletion {}).2.assigning_phase id _ j
  · rw [setCompletion_of_ne hempty]
    rfl

theorem perform_rank (c : Call) (h : j < s.messages.size) :
    (s.phase j).rank ≤ ((s.perform c).phase j).rank := by
  have heq : ∀ {s' : Store}, s'.phase j = s.phase j → (s.phase j).rank ≤ (s'.phase j).rank :=
    fun hp => Nat.le_of_eq (congrArg Phase.rank hp.symm)
  cases c with
  | create r => exact heq (add_phase_of_lt _ h)
  | envelope inner => exact heq (add_phase_of_lt _ h)
  | batch members => exact heq (add_phase_of_lt _ h)
  | assign id shape => exact heq (s.setCompletion_phase id shape j)
  | markSent id =>
      rcases s.markSent_phase id j with hp | ⟨-, hp, -⟩
      · exact heq hp
      · rw [hp]
        exact Nat.zero_le _
  | takeCompleter id => exact heq (s.takeCompleter_phase id j)
  | cancel id =>
      rw [perform_cancel]
      exact foldl_give_rank _
  | complete id r =>
      rw [perform_complete]
      exact foldl_give_rank _
  | fail id e =>
      rw [perform_fail]
      exact foldl_give_rank _
  | tick now => exact Nat.le_refl _

end Store

end RespMux
