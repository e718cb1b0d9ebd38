import RespMux.Proofs.Store.Aspects

/-!
# Giving out outcomes

Answering, failing and cancelling all do the same kind of thing to the store: they complete
messages, use up completers and give outcomes. `Resolves` says once what can happen then, and to
which messages and completions it happens; it holds of every one of these operations
(`fail_resolves`, `complete_resolves`, `failInFlight_resolves`) and composes
(`Resolves.trans`).
-/

set_option autoImplicit false

namespace RespMux

namespace Store

/-- `s'` is `s` after outcomes that satisfy `P` have been given to some of the messages `ids` and
of the completions `own`. -/
structure Resolves (P : Outcome → Prop) (ids : List MessageId) (own : List CompletionId)
    (s s' : Store) : Prop where
  draft? : ∀ id, s'.draft? id = s.draft? id
  now : s'.now = s.now
  messages : ∀ id, id ∉ ids → s'.messages[id]? = s.messages[id]?
  phase : ∀ id, s'.phase id = s.phase id ∨ s'.phase id = .complete
  sink : ∀ id, s'.sink id = s.sink id ∨ s'.sink id = .consumed
  settled : ∀ id, s'.phase id = .complete → s.phase id = .complete ∨ s'.sink id = .consumed
  batch : ∀ id ms, s.IsBatch id ms →
    s'.phase id = s.phase id ∨ ∀ j ∈ ms, s'.phase j = .complete
  lost : ∀ id c, s.sink id = .assigned c → s'.sink id = .assigned c ∨ ¬ s'.Waits c.completion
  absent : ∀ k : CompletionId, s.completions[k]? = none → s'.completions[k]? = none
  completion : ∀ (k : CompletionId) c, s.completions[k]? = some c →
    s'.completions[k]? = some c ∨
      ((∃ o, P o ∧ s'.completions[k]? = some (c.deliver o)) ∧
        ((∃ j ∈ ids, ∃ sh, s.sink j = .assigned ⟨k, sh⟩) ∨ k ∈ own))

variable {P Q : Outcome → Prop} {ids ids' : List MessageId} {own own' : List CompletionId}
variable {s s₁ s' : Store}

theorem Resolves.refl (P : Outcome → Prop) (s : Store) : Resolves P [] [] s s where
  draft? _ := rfl
  now := rfl
  messages _ _ := rfl
  phase _ := Or.inl rfl
  sink _ := Or.inl rfl
  settled _ h := Or.inl h
  batch _ _ _ := Or.inl rfl
  lost _ _ h := Or.inl h
  absent _ h := h
  completion _ _ h := Or.inl h

/-- Outcomes that are given stay within the larger sets. -/
theorem Resolves.mono (h : Resolves P ids own s s') (hP : ∀ o, P o → Q o)
    (hids : ∀ id ∈ ids, id ∈ ids') (hown : ∀ k ∈ own, k ∈ own') :
    Resolves Q ids' own' s s' where
  draft? := h.draft?
  now := h.now
  messages id hid := h.messages id fun hm => hid (hids id hm)
  phase := h.phase
  sink := h.sink
  settled := h.settled
  batch := h.batch
  lost := h.lost
  absent := h.absent
  completion k c hc := by
    rcases h.completion k c hc with hsame | ⟨⟨o, ho, hk⟩, hwhere⟩
    · exact Or.inl hsame
    · refine Or.inr ⟨⟨o, hP o ho, hk⟩, ?_⟩
      rcases hwhere with ⟨j, hj, hsink⟩ | hk'
      · exact Or.inl ⟨j, hids j hj, hsink⟩
      · exact Or.inr (hown k hk')

/-- A completion that waits afterwards waited before, and is the same. -/
theorem Resolves.waits {k : CompletionId} {c : Completion} (h : Resolves P ids own s s')
    (hc : s'.completions[k]? = some c) (hw : c.Waits) : s.completions[k]? = some c := by
  cases hs : s.completions[k]? with
  | none =>
      rw [h.absent k hs] at hc
      cases hc
  | some d =>
      rcases h.completion k d hs with hsame | ⟨⟨o, -, hk⟩, -⟩
      · rw [hsame] at hc
        exact hc
      · rw [hk] at hc
        cases hc
        exact absurd hw (d.not_waits_deliver o)

theorem Resolves.not_waits {k : CompletionId} (h : Resolves P ids own s s')
    (hk : ¬ s.Waits k) : ¬ s'.Waits k := by
  rintro ⟨c, hc, hw⟩
  exact hk ⟨c, h.waits hc hw, hw⟩

/-- What is complete stays complete. -/
theorem Resolves.complete {id : MessageId} (h : Resolves P ids own s s')
    (hid : s.phase id = .complete) : s'.phase id = .complete := by
  rcases h.phase id with hp | hp
  · exact hp.trans hid
  · exact hp

/-- What is not complete afterwards is as it was. -/
theorem Resolves.phase_of_ne {id : MessageId} (h : Resolves P ids own s s')
    (hid : s'.phase id ≠ .complete) : s'.phase id = s.phase id :=
  (h.phase id).resolve_right hid

theorem Resolves.ne_notSent {id : MessageId} (h : Resolves P ids own s s')
    (hid : s.phase id ≠ .notSent) : s'.phase id ≠ .notSent := by
  intro hp
  have heq : s'.phase id = s.phase id := h.phase_of_ne (by rw [hp]; decide)
  exact hid (heq.symm.trans hp)

/-- A completer that is left was there before. -/
theorem Resolves.sink_of_assigned {id : MessageId} {c : Completer} (h : Resolves P ids own s s')
    (hc : s'.sink id = .assigned c) : s.sink id = .assigned c := by
  rcases h.sink id with hs | hs
  · exact hs.symm.trans hc
  · rw [hs] at hc
    cases hc

theorem Resolves.sink_of_consumed {id : MessageId} (h : Resolves P ids own s s')
    (hc : s.sink id = .consumed) : s'.sink id = .consumed := by
  rcases h.sink id with hs | hs
  · exact hs.trans hc
  · exact hs

theorem Resolves.isBatch {id : MessageId} {ms : List MessageId} (h : Resolves P ids own s s') :
    s'.IsBatch id ms ↔ s.IsBatch id ms :=
  IsBatch.congr (h.draft? id)

/-- A completion that does not wait stays as it is. -/
theorem Resolves.completion_of_not_waits {k : CompletionId} {c : Completion}
    (h : Resolves P ids own s s') (hc : s.completions[k]? = some c) (hw : ¬ c.Waits) :
    s'.completions[k]? = some c := by
  rcases h.completion k c hc with hsame | ⟨⟨o, -, hk⟩, -⟩
  · exact hsame
  · rw [hk, Completion.deliver_of_not_waits hw]

/-- A completion that does not wait in the end has the outcome, unless it had one before. -/
theorem Resolves.given {k : CompletionId} {c : Completion} {o : Outcome}
    (h : Resolves (· = o) ids own s s') (hc : s.completions[k]? = some c) (hw : ¬ s'.Waits k) :
    s'.completions[k]? = some (c.deliver o) := by
  rcases h.completion k c hc with hsame | ⟨⟨o, rfl, hk⟩, -⟩
  · rw [hsame, Completion.deliver_of_not_waits fun hcw => hw ⟨c, hsame, hcw⟩]
  · exact hk

/-- So has one whose completer has been used up. -/
theorem Resolves.given_of_consumed {k : CompletionId} {c : Completion} {o : Outcome}
    {j : MessageId} {sh : Shape} (h : Resolves (· = o) ids own s s')
    (hc : s.completions[k]? = some c) (hsink : s.sink j = .assigned ⟨k, sh⟩)
    (hgone : s'.sink j = .consumed) : s'.completions[k]? = some (c.deliver o) := by
  refine h.given hc ?_
  rcases h.lost j _ hsink with hstays | hnot
  · cases hstays.symm.trans hgone
  · exact hnot

/-- The target of a completion and whether it is held never change. -/
theorem Resolves.exists_completion {k : CompletionId} {c : Completion}
    (h : Resolves P ids own s s') (hc : s.completions[k]? = some c) :
    ∃ c', s'.completions[k]? = some c' ∧ c'.target = c.target ∧ c'.isOpen = c.isOpen := by
  rcases h.completion k c hc with hsame | ⟨⟨o, -, hk⟩, -⟩
  · exact ⟨c, hsame, rfl, rfl⟩
  · exact ⟨_, hk, c.deliver_target o, c.deliver_isOpen o⟩

/-- No completer goes away without giving an outcome. -/
theorem Resolves.kept (h : Resolves P ids own s s')
    (hs : ∀ (k : CompletionId) c, s.completions[k]? = some c → c.stage ≠ .abandoned)
    (k : CompletionId) (c : Completion) (hc : s'.completions[k]? = some c) :
    c.stage ≠ .abandoned := by
  cases hk : s.completions[k]? with
  | none =>
      rw [h.absent k hk] at hc
      cases hc
  | some d =>
      rcases h.completion k d hk with hsame | ⟨⟨o, -, hgiven⟩, -⟩
      · exact hs k c (hk.trans (hsame.symm.trans hc))
      · rw [← Option.some.inj (hgiven.symm.trans hc)]
        exact d.deliver_stage_ne o (hs k d hk)

theorem Resolves.trans (h : Resolves P ids own s s₁) (h' : Resolves P ids' own' s₁ s') :
    Resolves P (ids ++ ids') (own ++ own') s s' where
  draft? id := (h'.draft? id).trans (h.draft? id)
  now := h'.now.trans h.now
  messages id hid := by
    rw [List.mem_append, not_or] at hid
    exact (h'.messages id hid.2).trans (h.messages id hid.1)
  phase id := by
    rcases h'.phase id with hp | hp
    · rw [hp]
      exact h.phase id
    · exact Or.inr hp
  sink id := by
    rcases h'.sink id with hp | hp
    · rw [hp]
      exact h.sink id
    · exact Or.inr hp
  settled id hid := by
    rcases h'.settled id hid with hp | hp
    · -- complete before the second, so complete from the start or by the first
      rcases h.settled id hp with hq | hq
      · exact Or.inl hq
      · rcases h'.sink id with hr | hr
        · exact Or.inr (hr.trans hq)
        · exact Or.inr hr
    · exact Or.inr hp
  batch id ms hb := by
    rcases h'.batch id ms ((IsBatch.congr (h.draft? id)).mpr hb) with hp | hp
    · rw [hp]
      rcases h.batch id ms hb with hq | hq
      · exact Or.inl hq
      · exact Or.inr fun j hj => h'.complete (hq j hj)
    · exact Or.inr hp
  lost id c hc := by
    rcases h.lost id c hc with hp | hp
    · exact h'.lost id c hp
    · exact Or.inr (h'.not_waits hp)
  absent k hk := h'.absent k (h.absent k hk)
  completion k c hc := by
    rcases h.completion k c hc with hsame | ⟨⟨o, ho, hk⟩, hwhere⟩
    · -- the first leaves the completion alone, so the second may give the outcome
      rcases h'.completion k c hsame with hsame' | ⟨hgiven, hwhere⟩
      · exact Or.inl hsame'
      · refine Or.inr ⟨hgiven, ?_⟩
        rcases hwhere with ⟨j, hj, sh, hsink⟩ | hk'
        · refine Or.inl ⟨j, List.mem_append_right _ hj, sh, ?_⟩
          rcases h.sink j with hs | hs
          · exact hs.symm.trans hsink
          · rw [hs] at hsink
            cases hsink
        · exact Or.inr (List.mem_append_right _ hk')
    · -- the outcome has been given by the first, and the second cannot change it
      refine Or.inr ⟨⟨o, ho, h'.completion_of_not_waits hk (c.not_waits_deliver o)⟩, ?_⟩
      rcases hwhere with ⟨j, hj, hsink⟩ | hk'
      · exact Or.inl ⟨j, List.mem_append_left _ hj, hsink⟩
      · exact Or.inr (List.mem_append_left _ hk')

theorem Resolves.wellFormed (h : Resolves P ids own s s') (wf : s.WellFormed) : s'.WellFormed :=
  wf.congr h.draft?

/-! ## One message -/

theorem finish_phase_self (s : Store) (id : MessageId) (o : Shape → Outcome) :
    (s.finish id o).phase id = .complete := by
  have hget := finish_messages s id id o
  rw [if_pos rfl] at hget
  unfold phase
  rw [hget]
  cases s.messages[id]? with
  | none => rfl
  | some m => rfl

theorem finish_sink_self {id : MessageId} (o : Shape → Outcome) :
    (s.finish id o).sink id = .consumed := by
  have hget := finish_messages s id id o
  rw [if_pos rfl] at hget
  unfold sink
  rw [hget]
  cases s.messages[id]? with
  | none => rfl
  | some m => rfl

theorem finish_messages_ne {id j : MessageId} (h : id ≠ j) (o : Shape → Outcome) :
    (s.finish id o).messages[j]? = s.messages[j]? := by
  rw [finish_messages, if_neg h]

theorem finish_draft? (s : Store) (id j : MessageId) (o : Shape → Outcome) :
    (s.finish id o).draft? j = s.draft? j := by
  unfold draft?
  rw [finish_messages]
  split
  · rw [Option.map_map]
    rfl
  · rfl

/-- The completion of a message that is finished gets the outcome, all others stay. -/
theorem finish_completion (s : Store) (id : MessageId) (o : Shape → Outcome) (k : CompletionId) :
    (s.finish id o).completions[k]? = s.completions[k]? ∨
      ∃ sh, s.sink id = .assigned ⟨k, sh⟩ ∧
        (s.finish id o).completions[k]? = (s.completions[k]?).map fun c => c.deliver (o sh) := by
  rw [finish_completions]
  cases hsink : s.sink id with
  | empty => exact Or.inl rfl
  | consumed => exact Or.inl rfl
  | assigned c =>
      dsimp only
      rw [Array.getElem?_modify]
      by_cases hk : c.completion = k
      · rw [if_pos hk]
        refine Or.inr ⟨c.shape, ?_, rfl⟩
        rw [← hk]
      · rw [if_neg hk]
        exact Or.inl rfl

theorem finish_completion_self {id : MessageId} {c : Completer} (hsink : s.sink id = .assigned c)
    (o : Shape → Outcome) :
    (s.finish id o).completions[c.completion]?
      = (s.completions[c.completion]?).map fun k => k.deliver (o c.shape) := by
  rw [finish_completions, hsink]
  dsimp only
  rw [Array.getElem?_modify, if_pos rfl]

/-- The completer of a message that is finished has given its outcome. -/
theorem finish_given {id : MessageId} {c : Completer} (hsink : s.sink id = .assigned c)
    (o : Shape → Outcome) : ¬ (s.finish id o).Waits c.completion := by
  rintro ⟨d, hd, hw⟩
  rw [finish_completion_self hsink] at hd
  obtain ⟨k, -, rfl⟩ := Option.map_eq_some_iff.mp hd
  exact k.not_waits_deliver _ hw

/-- Finishing one message, provided that the members of a batch are complete before it. -/
theorem finish_resolves {id : MessageId} {o : Shape → Outcome} (hP : ∀ sh, P (o sh))
    (hbatch : ∀ ms, s.IsBatch id ms → ∀ j ∈ ms, s.phase j = .complete) :
    Resolves P [id] [] s (s.finish id o) where
  draft? j := finish_draft? s id j o
  now := finish_now s id o
  messages j hj := finish_messages_ne (fun h => hj (List.mem_singleton.mpr h.symm)) o
  phase j := by
    by_cases hj : id = j
    · subst hj
      exact Or.inr (finish_phase_self s id o)
    · exact Or.inl (phase_congr (finish_messages_ne hj o))
  sink j := by
    by_cases hj : id = j
    · subst hj
      exact Or.inr (finish_sink_self o)
    · exact Or.inl (sink_congr (finish_messages_ne hj o))
  settled j hp := by
    by_cases hj : id = j
    · subst hj
      exact Or.inr (finish_sink_self o)
    · rw [phase_congr (finish_messages_ne hj o)] at hp
      exact Or.inl hp
  batch j ms hb := by
    by_cases hj : id = j
    · subst hj
      -- a batch is not finished before its members
      refine Or.inr fun i hi => ?_
      by_cases hii : id = i
      · subst hii
        exact finish_phase_self s id o
      · rw [phase_congr (finish_messages_ne hii o)]
        exact hbatch ms hb i hi
    · exact Or.inl (phase_congr (finish_messages_ne hj o))
  lost j c hc := by
    by_cases hj : id = j
    · subst hj
      exact Or.inr (finish_given hc o)
    · exact Or.inl ((sink_congr (finish_messages_ne hj o)).trans hc)
  absent k hk := by
    rcases finish_completion s id o k with hsame | ⟨sh, -, hgiven⟩
    · rw [hsame]
      exact hk
    · rw [hgiven, hk]
      rfl
  completion k c hc := by
    rcases finish_completion s id o k with hsame | ⟨sh, hsink, hgiven⟩
    · exact Or.inl (hsame.trans hc)
    · rw [hc] at hgiven
      exact Or.inr ⟨⟨o sh, hP sh, hgiven⟩, Or.inl ⟨id, List.mem_singleton_self id, sh, hsink⟩⟩

/-- A completer on its own gives its outcome. -/
theorem deliver_completion (s : Store) (c : Completer) (o : Outcome) (k : CompletionId) :
    (s.deliver c o).completions[k]?
      = if c.completion = k then (s.completions[k]?).map fun d => d.deliver o
        else s.completions[k]? := by
  unfold deliver modifyCompletion
  exact Array.getElem?_modify

theorem deliver_given (s : Store) (c : Completer) (o : Outcome) :
    ¬ (s.deliver c o).Waits c.completion := by
  rintro ⟨d, hd, hw⟩
  rw [deliver_completion, if_pos rfl] at hd
  obtain ⟨k, -, rfl⟩ := Option.map_eq_some_iff.mp hd
  exact k.not_waits_deliver o hw

theorem deliver_resolves {c : Completer} {o : Outcome} (hP : P o) :
    Resolves P [] [c.completion] s (s.deliver c o) where
  draft? _ := rfl
  now := rfl
  messages _ _ := rfl
  phase _ := Or.inl rfl
  sink _ := Or.inl rfl
  settled _ h := Or.inl h
  batch _ _ _ := Or.inl rfl
  lost _ _ h := Or.inl h
  absent k hk := by
    rw [deliver_completion, hk]
    split
    · rfl
    · rfl
  completion k d hd := by
    rw [deliver_completion, hd]
    by_cases hk : c.completion = k
    · rw [if_pos hk]
      exact Or.inr ⟨⟨o, hP, rfl⟩, Or.inr (List.mem_singleton.mpr hk.symm)⟩
    · rw [if_neg hk]
      exact Or.inl rfl

/-! ## Messages with what they contain -/

theorem finish_phase_of_complete {id j : MessageId} (h : s.phase j = .complete)
    (o : Shape → Outcome) : (s.finish id o).phase j = .complete := by
  by_cases hj : id = j
  · subst hj
    exact finish_phase_self s id o
  · rw [phase_congr (finish_messages_ne hj o)]
    exact h

theorem foldl_finish_of_complete (l : List MessageId) (o : Shape → Outcome) {j : MessageId}
    (h : s.phase j = .complete) : (l.foldl (fun s id => s.finish id o) s).phase j = .complete := by
  induction l generalizing s with
  | nil => exact h
  | cons i l ih => exact ih (finish_phase_of_complete h o)

theorem foldl_finish_phase (l : List MessageId) (o : Shape → Outcome) :
    ∀ j ∈ l, (l.foldl (fun s id => s.finish id o) s).phase j = .complete := by
  induction l generalizing s with
  | nil =>
      intro j hj
      cases hj
  | cons i l ih =>
      intro j hj
      rcases List.mem_cons.mp hj with rfl | hj
      · exact foldl_finish_of_complete l o (finish_phase_self s j o)
      · exact ih j hj

theorem foldl_finish_resolves {o : Shape → Outcome} (hP : ∀ sh, P (o sh)) (l : List MessageId)
    (hl : ∀ j ∈ l, ∀ ms, ¬ s.IsBatch j ms) :
    Resolves P l [] s (l.foldl (fun s id => s.finish id o) s) := by
  induction l generalizing s with
  | nil => exact .refl P s
  | cons i l ih =>
      have hi : Resolves P [i] [] s (s.finish i o) :=
        finish_resolves hP fun ms hb => absurd hb (hl i List.mem_cons_self ms)
      refine hi.trans (ih fun j hj ms hb => ?_)
      exact hl j (List.mem_cons_of_mem i hj) ms ((IsBatch.congr (hi.draft? j)).mp hb)

theorem fail_draft? (s : Store) (id j : MessageId) (e : Error) :
    (s.fail id e).draft? j = s.draft? j := by
  unfold fail
  induction s.scopeOf id generalizing s with
  | nil => rfl
  | cons i ids ih => rw [List.foldl_cons, ih, finish_draft?]

/-- The failure of a message reaches what it contains first, so that a batch is complete only
when its members are. -/
theorem fail_resolves (wf : s.WellFormed) (id : MessageId) (e : Error) :
    Resolves (· = .error e) (s.scopeOf id) [] s (s.fail id e) := by
  have hP : ∀ _ : Shape, (fun o : Outcome => o = .error e) (.error e) := fun _ => rfl
  unfold fail
  cases hd : s.draft? id with
  | none =>
      rw [scopeOf_eq, hd]
      exact .refl _ s
  | some m =>
      cases hb : m.body with
      | single =>
          have hs : s.IsSingle id := ⟨m, hd, hb⟩
          rw [wf.scopeOf_single hs]
          refine foldl_finish_resolves (P := (· = .error e)) hP _ fun j hj => ?_
          rw [List.mem_singleton.mp hj]
          exact hs.not_isBatch
      | envelope inner =>
          have he : s.IsEnvelope id inner := ⟨m, hd, hb⟩
          rw [wf.scopeOf_envelope he]
          refine foldl_finish_resolves (P := (· = .error e)) hP _ fun j hj => ?_
          rcases List.mem_cons.mp hj with rfl | hj
          · exact (wf.inner_single he).not_isBatch
          · rw [List.mem_singleton.mp hj]
            exact he.not_isBatch
      | batch ms =>
          have hm : s.IsBatch id ms := ⟨m, hd, hb⟩
          rw [wf.scopeOf_batch hm, List.foldl_append]
          -- the members fail before the batch, so they are complete when it is finished
          have hms := foldl_finish_resolves (P := (· = .error e)) hP ms fun j hj =>
            (wf.member_single hm j hj).not_isBatch
          refine hms.trans (finish_resolves (P := (· = .error e)) hP fun ms' hm' j hj => ?_)
          have heq : ms' = ms := ((IsBatch.congr (hms.draft? id)).mp hm').unique hm
          exact foldl_finish_phase ms _ j (heq ▸ hj)

theorem fail_phase (s : Store) (id : MessageId) (e : Error) :
    ∀ j ∈ s.scopeOf id, (s.fail id e).phase j = .complete :=
  foldl_finish_phase _ _

theorem foldl_fail_resolves (wf : s.WellFormed) (l : List MessageId) (e : Error) :
    Resolves (· = .error e) (l.flatMap s.scopeOf) [] s (l.foldl (fun s id => s.fail id e) s) := by
  induction l generalizing s with
  | nil => exact .refl _ s
  | cons i l ih =>
      have hi := fail_resolves wf i e
      have hrest := hi.trans (ih (hi.wellFormed wf))
      refine hrest.mono (fun _ h => h) (fun j hj => ?_) (fun _ h => h)
      have hscope : (s.fail i e).scopeOf = s.scopeOf :=
        funext fun x => scopeOf_congr (hi.draft? x)
      rw [hscope] at hj
      rw [List.flatMap_cons]
      exact hj

theorem foldl_fail_phase (wf : s.WellFormed) (l : List MessageId) (e : Error) :
    ∀ i ∈ l, ∀ j ∈ s.scopeOf i, (l.foldl (fun s id => s.fail id e) s).phase j = .complete := by
  induction l generalizing s with
  | nil =>
      intro i hi
      cases hi
  | cons a l ih =>
      have ha := fail_resolves wf a e
      intro i hi j hj
      rcases List.mem_cons.mp hi with rfl | hi
      · exact (foldl_fail_resolves (ha.wellFormed wf) l e).complete (fail_phase s i e j hj)
      · refine ih (ha.wellFormed wf) i hi j ?_
        rw [scopeOf_congr (ha.draft? i)]
        exact hj

/-! ### Cancelling -/

theorem cancel_of_notSent {id : MessageId} (h : s.phase id = .notSent) :
    s.cancel id = (true, s.fail id .cancelled) := by
  unfold cancel
  rw [h]

/-- It is too late to cancel what has been picked up or is over. -/
theorem cancel_of_ne {id : MessageId} (h : s.phase id ≠ .notSent) : s.cancel id = (false, s) := by
  unfold cancel
  split
  · next hn => exact absurd hn h
  · rfl

theorem cancel_fst {id : MessageId} : (s.cancel id).1 = true ↔ s.phase id = .notSent := by
  by_cases h : s.phase id = .notSent
  · rw [cancel_of_notSent h]
    exact iff_of_true rfl h
  · rw [cancel_of_ne h]
    exact iff_of_false Bool.false_ne_true h

/-- Cancelling gives out the cancellation, or nothing. -/
theorem cancel_resolves (wf : s.WellFormed) (id : MessageId) :
    Resolves (· = .error .cancelled) (s.scopeOf id) [] s (s.cancel id).2 := by
  by_cases h : s.phase id = .notSent
  · rw [cancel_of_notSent h]
    exact fail_resolves wf id .cancelled
  · rw [cancel_of_ne h]
    exact (Resolves.refl _ s).mono (fun _ ho => ho) (fun _ hj => by cases hj) fun _ hk => hk

/-- To cancel through a completion is to cancel the message it is tied to, or to do nothing. -/
theorem cancelThrough_cases (s : Store) (k : CompletionId) :
    s.cancelThrough k = (false, s) ∨ ∃ c id, s.completions[k]? = some c ∧ c.target = some id
      ∧ s.cancelThrough k = s.cancel id := by
  unfold cancelThrough
  cases hk : s.completions[k]? with
  | none => exact Or.inl rfl
  | some c =>
      cases ht : c.target with
      | none =>
          rw [Option.bind_some, ht]
          exact Or.inl rfl
      | some id =>
          rw [Option.bind_some, ht]
          dsimp only
          split
          · split
            · exact Or.inl rfl
            · exact Or.inr ⟨c, id, rfl, ht, rfl⟩
          · exact Or.inl rfl

/-! ### The reply to a message -/

/-- A reply that is no error, or one to a message that stands for no other, is a matter of the
message alone. -/
theorem complete_eq_finish {id : MessageId} {m : Message} {r : Reply}
    (hm : s.messages[id]? = some m)
    (h : (∀ inner, m.body ≠ .envelope inner) ∨ ∀ t, r ≠ .error t) :
    s.complete id r = s.finish id fun shape => shape.extract (m.timedReply s.now r) := by
  unfold complete
  rw [hm]
  dsimp only
  split
  · next inner t hb =>
    rcases h with h | h
    · exact absurd hb (h inner)
    · exact absurd rfl (h t)
  · rfl

theorem complete_phase (s : Store) (id : MessageId) (r : Reply) :
    (s.complete id r).phase id = .complete := by
  unfold complete
  split
  · next hm => exact phase_of_none hm
  · exact finish_phase_self _ _ _

theorem complete_resolves (wf : s.WellFormed) {id : MessageId} (hb : ∀ ms, ¬ s.IsBatch id ms)
    (r : Reply) : Resolves (fun _ => True) (s.scopeOf id) [] s (s.complete id r) := by
  cases hm : s.messages[id]? with
  | none =>
      have hc : s.complete id r = s := by
        unfold complete
        rw [hm]
      rw [hc]
      exact (Resolves.refl _ s).mono (fun _ h => h) (fun _ h => by cases h) (fun _ h => h)
  | some m =>
      by_cases hplain : (∀ inner, m.body ≠ .envelope inner) ∨ ∀ t, r ≠ .error t
      · rw [complete_eq_finish hm hplain]
        refine (finish_resolves (fun _ => trivial) fun ms h => absurd h (hb ms)).mono
          (fun _ h => h) (fun j hj => ?_) (fun _ h => h)
        -- the scope of a message that is no batch ends with the message itself
        rw [List.mem_singleton.mp hj]
        cases hbody : m.body with
        | single =>
            rw [wf.scopeOf_single ⟨m.draft, draft?_of_get hm, hbody⟩]
            exact List.mem_singleton_self id
        | envelope inner =>
            rw [wf.scopeOf_envelope ⟨m.draft, draft?_of_get hm, hbody⟩]
            exact List.mem_cons_of_mem _ (List.mem_singleton_self id)
        | batch ms => exact absurd ⟨m.draft, draft?_of_get hm, hbody⟩ (hb ms)
      · rw [not_or] at hplain
        obtain ⟨hinner, herr⟩ := hplain
        obtain ⟨inner, hinner⟩ := Classical.not_forall.mp hinner
        obtain ⟨t, ht⟩ := Classical.not_forall.mp herr
        have hbody : m.body = .envelope inner := Classical.not_not.mp hinner
        have hr : r = .error t := Classical.not_not.mp ht
        have he : s.IsEnvelope id inner := ⟨m.draft, draft?_of_get hm, hbody⟩
        have hc : s.complete id r = (s.fail inner (.server t)).finish id fun shape =>
            shape.extract (m.timedReply (s.fail inner (.server t)).now r) := by
          subst hr
          unfold complete
          rw [hm]
          dsimp only
          rw [hbody]
        have hfail := fail_resolves wf inner (.server t)
        have hfinish : Resolves (fun _ => True) [id] [] (s.fail inner (.server t))
            ((s.fail inner (.server t)).finish id fun shape =>
              shape.extract (m.timedReply (s.fail inner (.server t)).now r)) :=
          finish_resolves (fun _ => trivial) fun ms h =>
            absurd ((IsBatch.congr (hfail.draft? id)).mp h) (hb ms)
        rw [hc, wf.scopeOf_envelope he]
        refine ((hfail.mono (fun _ _ => trivial) (fun _ h => h) (fun _ h => h)).trans hfinish).mono
          (fun _ h => h) (fun j hj => ?_) (fun _ h => h)
        rw [wf.scopeOf_single (wf.inner_single he)] at hj
        exact hj

/-! ## Frames in flight -/

/-- The messages that the answer to a frame can reach. -/
def reach (s : Store) : InFlight → List MessageId
  | .message id => s.scopeOf id
  | .exec b => b.members.flatMap s.scopeOf

theorem reach_congr {s s' : Store} (h : ∀ id, s'.draft? id = s.draft? id) (f : InFlight) :
    s'.reach f = s.reach f := by
  have hscope : s'.scopeOf = s.scopeOf := funext fun id => scopeOf_congr (h id)
  unfold reach
  rw [hscope]

end Store

/-- The completions that a frame itself gives an outcome to. -/
def InFlight.own : InFlight → List CompletionId
  | .message _ => []
  | .exec b => b.done.toList.map Completer.completion

theorem InFlight.own_exec (b : Block) :
    InFlight.own (.exec b) = b.done.toList.map Completer.completion := rfl

namespace Store

variable {s : Store}

theorem failBlock_resolves (wf : s.WellFormed) (b : Block) (e : Error) :
    Resolves (· = .error e) (s.reach (.exec b)) (InFlight.own (.exec b)) s (s.failBlock b e) := by
  have hmembers := foldl_fail_resolves wf b.members e
  unfold failBlock
  dsimp only
  cases hd : b.done with
  | none =>
      dsimp only
      refine hmembers.mono (fun _ h => h) (fun _ h => h) (fun _ h => by cases h)
  | some c =>
      dsimp only
      refine (hmembers.trans (deliver_resolves rfl)).mono (fun _ h => h) (fun j hj => ?_)
        (fun k hk => ?_)
      · rw [List.append_nil] at hj
        exact hj
      · rw [InFlight.own_exec, hd]
        exact hk

theorem failInFlight_resolves (wf : s.WellFormed) (f : InFlight) (e : Error) :
    Resolves (· = .error e) (s.reach f) f.own s (s.failInFlight f e) := by
  cases f with
  | message id => exact fail_resolves wf id e
  | exec b => exact failBlock_resolves wf b e

theorem failBlock_phase (wf : s.WellFormed) (b : Block) (e : Error) :
    ∀ j ∈ s.reach (.exec b), (s.failBlock b e).phase j = .complete := by
  intro j hj
  obtain ⟨i, hi, hji⟩ := List.mem_flatMap.mp hj
  have hmembers := foldl_fail_phase wf b.members e i hi j hji
  unfold failBlock
  cases b.done with
  | none => exact hmembers
  | some c => exact hmembers

theorem failInFlight_phase (wf : s.WellFormed) (f : InFlight) (e : Error) :
    ∀ j ∈ s.reach f, (s.failInFlight f e).phase j = .complete := by
  cases f with
  | message id => exact fail_phase s id e
  | exec b => exact failBlock_phase wf b e

theorem failBlock_given (b : Block) (e : Error) :
    ∀ k ∈ InFlight.own (.exec b), ¬ (s.failBlock b e).Waits k := by
  intro k hk
  rw [InFlight.own_exec] at hk
  unfold failBlock
  cases hd : b.done with
  | none =>
      rw [hd] at hk
      cases hk
  | some c =>
      rw [hd] at hk
      rw [List.mem_singleton.mp hk]
      exact deliver_given _ c _

theorem failInFlight_given (f : InFlight) (e : Error) :
    ∀ k ∈ f.own, ¬ (s.failInFlight f e).Waits k := by
  cases f with
  | message id =>
      intro k hk
      cases hk
  | exec b => exact failBlock_given b e

theorem foldl_failInFlight_resolves (wf : s.WellFormed) (fs : List InFlight) (e : Error) :
    Resolves (· = .error e) (fs.flatMap s.reach) (fs.flatMap InFlight.own) s
      (fs.foldl (fun s f => s.failInFlight f e) s) := by
  induction fs generalizing s with
  | nil => exact .refl _ s
  | cons f fs ih =>
      have hf := failInFlight_resolves wf f e
      have hreach : (s.failInFlight f e).reach = s.reach := by
        funext g
        exact reach_congr hf.draft? g
      have hrest := ih (hf.wellFormed wf)
      rw [hreach] at hrest
      rw [List.flatMap_cons, List.flatMap_cons]
      exact hf.trans hrest

end Store

end RespMux
