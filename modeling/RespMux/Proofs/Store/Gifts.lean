import RespMux.Proofs.Store.Nesting

/-!
# Gifts

Cancelling, answering and failing come down to one thing: a list of messages each of which is
completed and gives its completer, if it still has one, an outcome. Such a list of gifts says more
than the store afterwards, because a completion keeps quiet about an outcome that comes too late:
it says who is given something, and in which order.
-/

set_option autoImplicit false

namespace RespMux

/-- The place of a phase in the order of a message's life. -/
def Phase.rank : Phase → Nat
  | notSent => 0
  | sent => 1
  | complete => 2

theorem Phase.rank_le_complete (p : Phase) : p.rank ≤ Phase.complete.rank := by
  cases p with
  | notSent => decide
  | sent => decide
  | complete => decide

/-- An outcome for a message, in the shape that its completer asks for. -/
structure Gift where
  id : MessageId
  outcome : Shape → Outcome

namespace Store

/-- The store after a gift. -/
def give (s : Store) (g : Gift) : Store := s.finish g.id g.outcome

/-- What a gift delivers: the outcome, to the completer of the message if it has one. -/
def handed (s : Store) (g : Gift) : List (CompletionId × Outcome) :=
  match s.sink g.id with
  | .assigned c => [(c.completion, g.outcome c.shape)]
  | _ => []

/-- What gifts deliver one after the other. -/
def handedAll (s : Store) : List Gift → List (CompletionId × Outcome)
  | [] => []
  | g :: gs => s.handed g ++ (s.give g).handedAll gs

/-- The gifts of a failure: one for each message that it reaches. -/
def failGifts (s : Store) (id : MessageId) (e : Error) : List Gift :=
  (s.scopeOf id).map fun j => ⟨j, fun _ => .error e⟩

/-- The gifts of a cancellation, if it is not too late. -/
def cancelGifts (s : Store) (id : MessageId) : List Gift :=
  match s.phase id with
  | .notSent => s.failGifts id .cancelled
  | _ => []

/-- The gifts of a reply to what is inside the message: an envelope that is not queued fails. -/
def innerGifts (s : Store) (m : Message) (r : Reply) : List Gift :=
  match m.body, r with
  | .envelope inner, .error t => s.failGifts inner (.server t)
  | _, _ => []

/-- The gifts of a reply. -/
def completeGifts (s : Store) (id : MessageId) (r : Reply) : List Gift :=
  match s.messages[id]? with
  | some m => s.innerGifts m r ++ [⟨id, fun shape => shape.extract (m.timedReply s.now r)⟩]
  | none => []

variable {s s' : Store} {id j : MessageId}

/-- The message has the completer of this completion. -/
def Holds (s : Store) (j : MessageId) (k : CompletionId) : Prop :=
  ∃ sh, s.sink j = .assigned ⟨k, sh⟩

/-! ## One gift -/

@[simp] theorem give_draft? (s : Store) (g : Gift) (j : MessageId) :
    (s.give g).draft? j = s.draft? j :=
  finish_draft? s g.id j g.outcome

theorem give_messages (s : Store) (g : Gift) (hne : g.id ≠ j) :
    (s.give g).messages[j]? = s.messages[j]? :=
  finish_messages_ne hne g.outcome

/-- A gift uses the completer of its message up, and no other. -/
theorem give_sink (s : Store) (g : Gift) (j : MessageId) :
    (s.give g).sink j = if g.id = j then .consumed else s.sink j := by
  by_cases hj : g.id = j
  · subst hj
    rw [if_pos rfl]
    exact finish_sink_self g.outcome
  · rw [if_neg hj]
    exact sink_congr (give_messages s g hj)

theorem give_phase (s : Store) (g : Gift) (j : MessageId) :
    (s.give g).phase j = if g.id = j then .complete else s.phase j := by
  by_cases hj : g.id = j
  · subst hj
    rw [if_pos rfl]
    exact finish_phase_self s g.id g.outcome
  · rw [if_neg hj]
    exact phase_congr (give_messages s g hj)

theorem handed_of_assigned {g : Gift} {c : Completer} (h : s.sink g.id = .assigned c) :
    s.handed g = [(c.completion, g.outcome c.shape)] := by
  unfold handed
  rw [h]

theorem handed_of_not_assigned {g : Gift} (h : ∀ c, s.sink g.id ≠ .assigned c) :
    s.handed g = [] := by
  unfold handed
  split
  · next c hc => exact absurd hc (h c)
  · rfl

/-- A message as a gift leaves it, whether it had a completer or not. -/
def settle (s : Store) (id : MessageId) : Store :=
  ((s.modify id fun m => { m with phase := .complete }).takeCompleter id).2

/-- A gift settles the message and makes the deliveries that it is said to make. -/
theorem give_eq (s : Store) (g : Gift) :
    s.give g = (s.handed g).foldl
      (fun s d => s.modifyCompletion d.1 fun c => c.deliver d.2) (s.settle g.id) := by
  have hsink : (s.modify g.id fun m => { m with phase := .complete }).sink g.id = s.sink g.id := by
    unfold sink
    rw [modify_messages, if_pos rfl]
    cases s.messages[g.id]? with
    | none => rfl
    | some m => rfl
  unfold give finish settle handed takeCompleter
  dsimp only
  rw [hsink]
  cases s.sink g.id with
  | empty => rfl
  | consumed => rfl
  | assigned c => rfl

theorem settle_messages (s : Store) (g : Gift) :
    (s.settle g.id).messages = (s.give g).messages := by
  rw [give_eq]
  unfold handed
  cases s.sink g.id with
  | empty => rfl
  | consumed => rfl
  | assigned c => rfl

@[simp] theorem settle_completions (s : Store) (id : MessageId) :
    (s.settle id).completions = s.completions := by
  unfold settle
  rw [takeCompleter_completions]
  rfl

/-! ## Several gifts -/

/-- The completer of a message that a list of gifts reaches gives the outcome meant for it. -/
theorem mem_handedAll {gs : List Gift} {sh : Shape} {k : CompletionId} {f : Shape → Outcome}
    (hsink : s.sink j = .assigned ⟨k, sh⟩) (hmem : ⟨j, f⟩ ∈ gs)
    (hunique : ∀ f', ⟨j, f'⟩ ∈ gs → f' = f) : (k, f sh) ∈ s.handedAll gs := by
  induction gs generalizing s with
  | nil => cases hmem
  | cons g gs ih =>
      unfold handedAll
      by_cases hg : g.id = j
      · subst hg
        have hf : g.outcome = f := hunique g.outcome List.mem_cons_self
        rw [handed_of_assigned hsink, hf]
        exact List.mem_append_left _ (List.mem_singleton_self _)
      · refine List.mem_append_right _ (ih ?_ ?_ fun f' hf' => hunique f' (.tail g hf'))
        · rw [give_sink, if_neg hg]
          exact hsink
        · rcases List.mem_cons.mp hmem with rfl | hmem
          · exact absurd rfl hg
          · exact hmem

/-- A completer that no message holds gives nothing. -/
theorem not_mem_handedAll {gs : List Gift} {k : CompletionId} (h : ∀ j, ¬ s.Holds j k)
    (o : Outcome) : (k, o) ∉ s.handedAll gs := by
  induction gs generalizing s with
  | nil => exact List.not_mem_nil
  | cons g gs ih =>
      unfold handedAll
      rw [List.mem_append, not_or]
      constructor
      · unfold handed
        split
        · next c hc =>
          intro hmem
          cases List.mem_singleton.mp hmem
          exact h g.id ⟨c.shape, hc⟩
        · exact List.not_mem_nil
      · refine ih fun j ⟨sh, hj⟩ => ?_
        rw [give_sink] at hj
        split at hj
        · cases hj
        · exact h j ⟨sh, hj⟩

theorem foldl_give_sink_of_ne {gs : List Gift} (h : ∀ g ∈ gs, g.id ≠ j) :
    (gs.foldl give s).sink j = s.sink j := by
  induction gs generalizing s with
  | nil => rfl
  | cons g gs ih =>
      refine (ih fun g' hg' => h g' (.tail g hg')).trans ?_
      rw [give_sink, if_neg (h g List.mem_cons_self)]

theorem foldl_give_sink (gs : List Gift) (j : MessageId) :
    (gs.foldl give s).sink j = s.sink j ∨ (gs.foldl give s).sink j = .consumed := by
  induction gs generalizing s with
  | nil => exact Or.inl rfl
  | cons g gs ih =>
      rcases ih (s := s.give g) with h | h
      · rw [List.foldl_cons, h, give_sink]
        split
        · exact Or.inr rfl
        · exact Or.inl rfl
      · exact Or.inr h

theorem foldl_give_draft? (gs : List Gift) (j : MessageId) :
    (gs.foldl give s).draft? j = s.draft? j := by
  induction gs generalizing s with
  | nil => rfl
  | cons g gs ih => exact ih.trans (s.give_draft? g j)

theorem foldl_give_completions_size (gs : List Gift) :
    (gs.foldl give s).completions.size = s.completions.size := by
  induction gs generalizing s with
  | nil => rfl
  | cons g gs ih =>
      refine ih.trans ?_
      rw [give_eq]
      unfold handed
      cases s.sink g.id with
      | empty => exact congrArg Array.size (s.settle_completions g.id)
      | consumed => exact congrArg Array.size (s.settle_completions g.id)
      | assigned c =>
          exact Array.size_modify.trans (congrArg Array.size (s.settle_completions g.id))

theorem foldl_give_rank (gs : List Gift) :
    (s.phase j).rank ≤ ((gs.foldl give s).phase j).rank := by
  induction gs generalizing s with
  | nil => exact Nat.le_refl _
  | cons g gs ih =>
      refine Nat.le_trans ?_ (ih (s := s.give g))
      rw [give_phase]
      split
      · exact Phase.rank_le_complete _
      · exact Nat.le_refl _

theorem foldl_give_now (gs : List Gift) : (gs.foldl give s).now = s.now := by
  induction gs generalizing s with
  | nil => rfl
  | cons g gs ih => exact ih.trans (finish_now s g.id g.outcome)

/-! ## The operations as gifts -/

theorem fail_eq_give (s : Store) (id : MessageId) (e : Error) :
    s.fail id e = (s.failGifts id e).foldl give s := by
  unfold fail failGifts
  rw [List.foldl_map]
  rfl

theorem cancel_eq_give (s : Store) (id : MessageId) :
    (s.cancel id).2 = (s.cancelGifts id).foldl give s := by
  unfold cancelGifts
  by_cases h : s.phase id = .notSent
  · rw [cancel_of_notSent h, h]
    exact fail_eq_give s id .cancelled
  · rw [cancel_of_ne h]
    split
    · next hn => exact absurd hn h
    · rfl

theorem innerGifts_of_envelope {m : Message} {inner : MessageId} (hb : m.body = .envelope inner)
    (t : String) : s.innerGifts m (.error t) = s.failGifts inner (.server t) := by
  unfold innerGifts
  rw [hb]

theorem innerGifts_of_ne {m : Message} {r : Reply}
    (h : (∀ inner, m.body ≠ .envelope inner) ∨ ∀ t, r ≠ .error t) : s.innerGifts m r = [] := by
  unfold innerGifts
  split
  · next inner t hb =>
    rcases h with h | h
    · exact absurd hb (h inner)
    · exact absurd rfl (h t)
  · rfl

theorem completeGifts_of_get {m : Message} (hm : s.messages[id]? = some m) (r : Reply) :
    s.completeGifts id r
      = s.innerGifts m r ++ [⟨id, fun shape => shape.extract (m.timedReply s.now r)⟩] := by
  unfold completeGifts
  rw [hm]

/-- Either the reply is a matter of the message alone, or it undoes an envelope. -/
theorem envelope_error_or (m : Message) (r : Reply) :
    (∃ inner t, m.body = .envelope inner ∧ r = .error t)
      ∨ (∀ inner, m.body ≠ .envelope inner) ∨ ∀ t, r ≠ .error t := by
  by_cases h : ∃ inner t, m.body = .envelope inner ∧ r = .error t
  · exact Or.inl h
  · refine Or.inr (Classical.or_iff_not_imp_left.mpr fun hb t hr => hb fun inner hi => ?_)
    exact h ⟨inner, t, hi, hr⟩

theorem complete_eq_give (s : Store) (id : MessageId) (r : Reply) :
    s.complete id r = (s.completeGifts id r).foldl give s := by
  cases hm : s.messages[id]? with
  | none =>
      unfold completeGifts complete
      rw [hm]
      rfl
  | some m =>
      rw [completeGifts_of_get hm]
      rcases envelope_error_or m r with ⟨inner, t, hb, rfl⟩ | h
      · rw [innerGifts_of_envelope hb, List.foldl_append, ← fail_eq_give]
        have hnow : (s.fail inner (.server t)).now = s.now := by
          rw [fail_eq_give, foldl_give_now]
        unfold complete
        rw [hm]
        dsimp only
        rw [hb]
        dsimp only
        rw [hnow]
        rfl
      · rw [innerGifts_of_ne h, complete_eq_finish hm h]
        rfl

theorem mem_failGifts (hs : s.Nested) {e : Error} {g : Gift} :
    g ∈ s.failGifts id e ↔ s.Contains id g.id ∧ g.outcome = fun _ => .error e := by
  unfold failGifts
  rw [List.mem_map]
  constructor
  · rintro ⟨j, hj, rfl⟩
    exact ⟨hs.mem_scopeOf.mp hj, rfl⟩
  · rintro ⟨hc, ho⟩
    refine ⟨g.id, hs.mem_scopeOf.mpr hc, ?_⟩
    rw [← ho]

end Store

end RespMux
