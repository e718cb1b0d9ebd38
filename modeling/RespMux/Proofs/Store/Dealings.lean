import RespMux.Proofs.Store.Calls

/-!
# Messages under any sequence of calls

`Dealings` is a store together with a record of the completions that were set and of the outcomes
that completers have been given. Any number of callers may deal with its messages, envelopes and
batches that share members included, in any order. Because a gift uses the completer of its
message up, the first call that reaches a message decides its outcome, and what comes later finds
nobody to tell (`calls_in_order`).
-/

set_option autoImplicit false

namespace RespMux

/-- A store with a record of what its callers have achieved. -/
structure Dealings where
  store : Store := {}
  /-- the messages that have taken a completion -/
  assigned : List MessageId := []
  /-- what completers have been given -/
  given : List (CompletionId × Outcome) := []

namespace Dealings

/-- A call; none if it is about a message that is not there. -/
def call (u : Dealings) (c : Call) : Option Dealings :=
  if ∀ id ∈ c.subjects, id < u.store.messages.size then
    some
      { store := u.store.perform c
        assigned := u.assigned ++ c.assigned u.store
        given := u.given ++ u.store.handedAll (c.gifts u.store) }
  else none

/-- Several calls, one after the other. -/
def run (u : Dealings) (cs : List Call) : Option Dealings := cs.foldlM call u

/-- The first of the calls that reaches a message does so with this outcome. A completer that is
taken away before is reached by none. -/
inductive ReachedFirst : Dealings → List Call → MessageId → (Shape → Outcome) → Prop where
  | now {u : Dealings} {c : Call} {cs : List Call} {j : MessageId} {f : Shape → Outcome}
      (h : u.store.Reaches c j f) : ReachedFirst u (c :: cs) j f
  | later {u u' : Dealings} {c : Call} {cs : List Call} {j : MessageId} {f : Shape → Outcome}
      (hother : ∀ f, ¬ u.store.Reaches c j f) (htake : c ≠ .takeCompleter j)
      (hcall : u.call c = some u') (h : ReachedFirst u' cs j f) : ReachedFirst u (c :: cs) j f

/-! ## What always holds -/

/-- Completers are where they belong, and the record says what has become of them. -/
structure Sound (u : Dealings) : Prop where
  nested : u.store.Nested
  finished : ∀ id, u.store.phase id = .complete → u.store.sink id = .consumed
  /-- a completer in a message has not been used -/
  waits : ∀ j k, u.store.Holds j k → u.store.Waits k
  alone : ∀ i j k, u.store.Holds i k → u.store.Holds j k → i = j
  outcome : ∀ k o,
    (k, o) ∈ u.given ↔ ∃ c, u.store.completions[k]? = some c ∧ c.stage = .delivered o
  once : (u.given.map Prod.fst).Nodup
  taken : ∀ id ∈ u.assigned, id < u.store.messages.size ∧ u.store.sink id ≠ .empty
  assigned_once : u.assigned.Nodup

variable {u u' : Dealings} {s : Store} {j : MessageId} {k : CompletionId}

/-- Messages may be picked up, finished and lose their completers. -/
theorem Sound.of_messages (h : u.Sound) (hd : ∀ id, s.draft? id = u.store.draft? id)
    (hc : s.completions = u.store.completions)
    (hsink : ∀ id, s.sink id = u.store.sink id ∨ s.sink id = .consumed)
    (hp : ∀ id, s.phase id = .complete → u.store.phase id = .complete ∨ s.sink id = .consumed) :
    Sound { u with store := s } := by
  have hholds : ∀ j k, s.Holds j k → u.store.Holds j k := by
    rintro j k ⟨sh, hj⟩
    rcases hsink j with he | he
    · exact ⟨sh, he.symm.trans hj⟩
    · rw [he] at hj
      cases hj
  constructor
  · exact h.nested.congr hd
  · intro id hid
    rcases hp id hid with hold | hnew
    · rcases hsink id with he | he
      · exact he.trans (h.finished id hold)
      · exact he
    · exact hnew
  · intro j k hj
    obtain ⟨c, hk, hw⟩ := h.waits j k (hholds j k hj)
    exact ⟨c, (congrArg (·[k]?) hc).trans hk, hw⟩
  · exact fun i j k hi hj => h.alone i j k (hholds i k hi) (hholds j k hj)
  · intro k o
    show _ ↔ ∃ c, s.completions[k]? = some c ∧ _
    rw [hc]
    exact h.outcome k o
  · exact h.once
  · intro id hid
    obtain ⟨hlt, hne⟩ := h.taken id hid
    refine ⟨Store.lt_size_congr hd hlt, ?_⟩
    rcases hsink id with he | he
    · exact he ▸ hne
    · exact fun hempty => Sink.noConfusion (he.symm.trans hempty)
  · exact h.assigned_once

/-- Whoever still waits has been given nothing. -/
theorem Sound.not_given (h : u.Sound) (hw : u.store.Waits k) (o : Outcome) :
    (k, o) ∉ u.given := by
  intro hmem
  obtain ⟨c, hc, hcw⟩ := hw
  obtain ⟨d, hd, hstage⟩ := (h.outcome k o).mp hmem
  cases hc.symm.trans hd
  exact Stage.noConfusion (hcw.1.symm.trans hstage)

/-- A completer that nobody holds any more may give its outcome. -/
theorem Sound.deliver (h : u.Sound) (hw : u.store.Waits k) (hfree : ∀ j, ¬ u.store.Holds j k)
    (o : Outcome) :
    Sound
      { u with
        store := u.store.modifyCompletion k fun c => c.deliver o
        given := u.given ++ [(k, o)] } := by
  have hget : ∀ k', (u.store.modifyCompletion k fun c => c.deliver o).completions[k']?
      = if k = k' then (u.store.completions[k']?).map fun c => c.deliver o
        else u.store.completions[k']? := fun k' => Array.getElem?_modify
  have hnew := h.not_given hw
  obtain ⟨c, hc, hcw⟩ := hw
  constructor
  · exact h.nested.congr fun _ => rfl
  · exact h.finished
  · intro j k' hj
    obtain ⟨d, hd, hdw⟩ := h.waits j k' hj
    refine ⟨d, ?_, hdw⟩
    rw [hget, if_neg]
    · exact hd
    · rintro rfl
      exact hfree j hj
  · exact h.alone
  · intro k' o'
    show (k', o') ∈ u.given ++ [(k, o)] ↔ ∃ d, _ ∧ _
    rw [List.mem_append, List.mem_singleton, Prod.mk.injEq]
    by_cases hk : k = k'
    · subst hk
      have hd := hget k
      rw [if_pos rfl, hc] at hd
      have hstage : (c.deliver o).stage = .delivered o := Completion.deliver_stage hcw o
      constructor
      · rintro (hold | ⟨-, rfl⟩)
        · exact absurd hold (hnew o')
        · exact ⟨_, hd, hstage⟩
      · rintro ⟨d, hd', hdo⟩
        cases hd.symm.trans hd'
        cases hstage.symm.trans hdo
        exact Or.inr ⟨rfl, rfl⟩
    · rw [hget, if_neg hk, ← h.outcome k' o']
      constructor
      · rintro (hold | ⟨he, -⟩)
        · exact hold
        · exact absurd he.symm hk
      · exact Or.inl
  · show ((u.given ++ [(k, o)]).map Prod.fst).Nodup
    rw [List.map_append, List.nodup_append]
    refine ⟨h.once, List.pairwise_singleton _ k, fun i hi i' hi' he => ?_⟩
    obtain ⟨⟨k', o'⟩, hmem, rfl⟩ := List.mem_map.mp hi
    have hk : k' = k := he.trans (List.mem_singleton.mp hi')
    exact hnew o' (hk ▸ hmem)
  · exact h.taken
  · exact h.assigned_once

/-- A gift on its own, with its record. -/
def give (u : Dealings) (g : Gift) : Dealings :=
  { u with store := u.store.give g, given := u.given ++ u.store.handed g }

theorem Sound.give (h : u.Sound) (g : Gift) : (u.give g).Sound := by
  have hmessages : ∀ j : MessageId,
      (u.store.settle g.id).messages[j]? = (u.store.give g).messages[j]? :=
    fun j => by rw [u.store.settle_messages g]
  have hsink : ∀ j, (u.store.settle g.id).sink j
      = if g.id = j then .consumed else u.store.sink j := fun j =>
    (Store.sink_congr (hmessages j)).trans (u.store.give_sink g j)
  have hphase : ∀ j, (u.store.settle g.id).phase j
      = if g.id = j then .complete else u.store.phase j := fun j =>
    (Store.phase_congr (hmessages j)).trans (u.store.give_phase g j)
  have hsettled : Sound { u with store := u.store.settle g.id } := by
    refine h.of_messages (fun j => (Store.draft?_congr (hmessages j)).trans (u.store.give_draft? g j))
      (u.store.settle_completions g.id) (fun j => ?_) fun j hp => ?_
    · rw [hsink]
      split
      · exact Or.inr rfl
      · exact Or.inl rfl
    · rw [hphase] at hp
      rw [hsink]
      split
      · exact Or.inr rfl
      · next hj =>
        rw [if_neg hj] at hp
        exact Or.inl hp
  unfold Dealings.give
  rw [Store.give_eq]
  by_cases hassigned : ∃ c, u.store.sink g.id = .assigned c
  · obtain ⟨c, hc⟩ := hassigned
    have hself : u.store.Holds g.id c.completion := ⟨c.shape, hc⟩
    rw [Store.handed_of_assigned hc]
    obtain ⟨d, hd, hw⟩ := h.waits g.id c.completion hself
    have hd' : (u.store.settle g.id).completions[c.completion]? = some d := by
      rw [u.store.settle_completions]
      exact hd
    refine hsettled.deliver ⟨d, hd', hw⟩ (fun j hj => ?_) _
    -- nobody else had the completer, and the message has it no more
    obtain ⟨sh, hj⟩ := hj
    have hj' := (hsink j).symm.trans hj
    split at hj'
    · cases hj'
    · next hne => exact hne (h.alone g.id j c.completion hself ⟨sh, hj'⟩)
  · rw [Store.handed_of_not_assigned fun c hc => hassigned ⟨c, hc⟩, List.append_nil]
    exact hsettled

/-- A new message neither has a completer nor is it finished. -/
theorem Sound.add (h : u.Sound) {m : Message} (hn : (u.store.add m).2.Nested)
    (hp : m.phase = .notSent) (hs : m.sink = .empty) :
    Sound { u with store := (u.store.add m).2 } := by
  have hholds : ∀ j k, (u.store.add m).2.Holds j k → u.store.Holds j k := by
    rintro j k ⟨sh, hj⟩
    exact ⟨sh, Store.add_sink_of_assigned hs hj⟩
  constructor
  · exact hn
  · intro j hj
    obtain ⟨hne, hold⟩ := Store.add_phase_of_ne hp (j := j) (s := u.store)
      fun hc => Phase.noConfusion (hc.symm.trans hj)
    exact (Store.sink_congr (Store.add_messages_of_ne m hne)).trans
      (h.finished j (hold.symm.trans hj))
  · exact fun j k hj => h.waits j k (hholds j k hj)
  · exact fun i j k hi hj => h.alone i j k (hholds i k hi) (hholds j k hj)
  · exact h.outcome
  · exact h.once
  · intro id hid
    obtain ⟨hlt, hne⟩ := h.taken id hid
    refine ⟨?_, ?_⟩
    · exact Nat.lt_of_lt_of_le hlt (by simp [Store.add])
    · exact (Store.sink_congr (Store.add_messages_of_lt m hlt)) ▸ hne
  · exact h.assigned_once

/-- A new completion that nobody holds changes nothing. -/
theorem Sound.addCompletion (h : u.Sound) {c : Completion} (hc : ∀ o, c.stage ≠ .delivered o) :
    Sound { u with store := (u.store.addCompletion c).2 } := by
  have hget : ∀ k, (u.store.addCompletion c).2.completions[k]?
      = if k = u.store.completions.size then some c else u.store.completions[k]? :=
    fun _ => Array.getElem?_push
  constructor
  · exact h.nested.congr fun _ => rfl
  · exact h.finished
  · intro j k hj
    obtain ⟨d, hd, hw⟩ := h.waits j k hj
    refine ⟨d, ?_, hw⟩
    rw [hget, if_neg (Nat.ne_of_lt (Array.getElem?_eq_some_iff.mp hd).1)]
    exact hd
  · exact h.alone
  · intro k o
    rw [h.outcome k o]
    show _ ↔ ∃ d, (u.store.addCompletion c).2.completions[k]? = some d ∧ _
    rw [hget]
    by_cases hk : k = u.store.completions.size
    · rw [if_pos hk, hk, Array.getElem?_eq_none (Nat.le_refl _)]
      constructor
      · rintro ⟨d, hd, -⟩
        cases hd
      · rintro ⟨d, hd, hstage⟩
        cases hd
        exact absurd hstage (hc o)
    · rw [if_neg hk]
  · exact h.once
  · exact h.taken
  · exact h.assigned_once

/-- Nothing holds a completion that does not exist yet. -/
theorem Sound.not_holds_new (h : u.Sound) (j : MessageId) :
    ¬ u.store.Holds j u.store.completions.size := by
  intro hj
  obtain ⟨d, hd, -⟩ := h.waits j _ hj
  exact Nat.lt_irrefl _ (Array.getElem?_eq_some_iff.mp hd).1

/-- A message without a completer takes one that nobody else holds. -/
theorem Sound.hold (h : u.Sound) {id : MessageId} {shape : Shape} (hempty : u.store.sink id = .empty)
    (hw : u.store.Waits k) (hfree : ∀ j, ¬ u.store.Holds j k) :
    Sound
      { u with
        store := u.store.assigning id ⟨k, shape⟩
        assigned := u.assigned ++ [id] } := by
  have hlt : id < u.store.messages.size := Store.lt_size_of_sink hempty
  have hself := Store.assigning_sink_self ⟨k, shape⟩ hlt
  have hother : ∀ j, id ≠ j → (u.store.assigning id ⟨k, shape⟩).sink j = u.store.sink j :=
    fun j hj => Store.sink_congr (Store.assigning_messages_ne _ hj)
  have hd := u.store.assigning_draft? id ⟨k, shape⟩
  have hholds : ∀ j k', (u.store.assigning id ⟨k, shape⟩).Holds j k' →
      (j = id ∧ k' = k) ∨ (k' ≠ k ∧ u.store.Holds j k') := by
    rintro j k' ⟨sh, hj⟩
    by_cases hid : id = j
    · subst hid
      cases hself.symm.trans hj
      exact Or.inl ⟨rfl, rfl⟩
    · have hold : u.store.Holds j k' := ⟨sh, (hother j hid).symm.trans hj⟩
      refine Or.inr ⟨?_, hold⟩
      rintro rfl
      exact hfree j hold
  constructor
  · exact h.nested.congr hd
  · intro j hj
    have hp : u.store.phase j = .complete := (u.store.assigning_phase id _ j).symm.trans hj
    by_cases hid : id = j
    · subst hid
      exact Sink.noConfusion (hempty.symm.trans (h.finished id hp))
    · exact (hother j hid).trans (h.finished j hp)
  · intro j k' hj
    rcases hholds j k' hj with ⟨-, rfl⟩ | ⟨-, hold⟩
    · exact hw
    · exact h.waits j k' hold
  · intro i j k' hi hj
    rcases hholds i k' hi with ⟨rfl, rfl⟩ | ⟨hne, hi⟩
    · rcases hholds j _ hj with ⟨rfl, -⟩ | ⟨hne, -⟩
      · rfl
      · exact absurd rfl hne
    · rcases hholds j k' hj with ⟨-, rfl⟩ | ⟨-, hj⟩
      · exact absurd rfl hne
      · exact h.alone i j k' hi hj
  · exact h.outcome
  · exact h.once
  · intro j hj
    rcases List.mem_append.mp hj with hj | hj
    · obtain ⟨hjlt, hne⟩ := h.taken j hj
      refine ⟨Store.lt_size_congr hd hjlt, fun he => ?_⟩
      by_cases hid : id = j
      · subst hid
        exact Sink.noConfusion (hself.symm.trans he)
      · exact hne ((hother j hid).symm.trans he)
    · rw [List.mem_singleton] at hj
      subst hj
      exact ⟨Store.lt_size_congr hd hlt, fun he => Sink.noConfusion (hself.symm.trans he)⟩
  · show (u.assigned ++ [id]).Nodup
    rw [List.nodup_append]
    refine ⟨h.assigned_once, List.pairwise_singleton _ id, fun i hi j hj he => ?_⟩
    obtain rfl : i = id := he.trans (List.mem_singleton.mp hj)
    exact (h.taken i hi).2 hempty

theorem Sound.setCompletion (h : u.Sound) (id : MessageId) (shape : Shape) :
    Sound
      { u with
        store := u.store.setCompletion id shape
        assigned := u.assigned ++ (Call.assign id shape).assigned u.store } := by
  dsimp only [Call.assigned]
  by_cases hempty : u.store.sink id = .empty
  · have hpush := h.addCompletion (c := {}) fun _ => Stage.noConfusion
    have hnew : (u.store.addCompletion {}).2.completions[u.store.completions.size]? = some {} := by
      show (u.store.completions.push {})[u.store.completions.size]? = _
      rw [Array.getElem?_push, if_pos rfl]
    rw [Store.setCompletion_of_empty hempty, Store.assign_of_empty hempty]
    exact hpush.hold hempty ⟨{}, hnew, rfl, rfl⟩ h.not_holds_new
  · rw [Store.setCompletion_of_ne hempty, Store.assign_of_ne hempty]
    dsimp only
    rw [List.append_nil]
    exact h.addCompletion fun _ => Stage.noConfusion

theorem Sound.gifts (h : u.Sound) (gs : List Gift) :
    Sound
      { u with
        store := gs.foldl Store.give u.store
        given := u.given ++ u.store.handedAll gs } := by
  induction gs generalizing u with
  | nil =>
      show Sound { u with given := u.given ++ [] }
      rw [List.append_nil]
      exact h
  | cons g gs ih =>
      have hrest := ih (h.give g)
      unfold Dealings.give at hrest
      dsimp only at hrest
      rw [List.append_assoc] at hrest
      exact hrest

/-- Every call keeps everything in its place, and its record is right. -/
theorem Sound.perform (h : u.Sound) (c : Call)
    (hc : ∀ id ∈ c.subjects, id < u.store.messages.size) :
    Sound
      { store := u.store.perform c
        assigned := u.assigned ++ c.assigned u.store
        given := u.given ++ u.store.handedAll (c.gifts u.store) } := by
  -- most calls add to one part of the record only, or to none
  have hquiet : ∀ s, Sound { u with store := s } →
      Sound { store := s, assigned := u.assigned ++ [], given := u.given ++ [] } := by
    intro s hs
    rw [List.append_nil, List.append_nil]
    exact hs
  have hgifts : ∀ gs, Sound
      { store := gs.foldl Store.give u.store
        assigned := u.assigned ++ []
        given := u.given ++ u.store.handedAll gs } := by
    intro gs
    rw [List.append_nil]
    exact h.gifts gs
  cases c with
  | create r => exact hquiet _ (h.add (h.nested.create r) rfl rfl)
  | envelope inner =>
      exact hquiet _ (h.add (h.nested.envelope' (hc inner List.mem_cons_self)) rfl rfl)
  | batch members => exact hquiet _ (h.add (h.nested.batch' hc) rfl rfl)
  | assign id shape =>
      have hset := h.setCompletion id shape
      rw [← List.append_nil u.given] at hset
      exact hset
  | markSent id =>
      refine hquiet _ (h.of_messages (u.store.markSent_draft? id) (u.store.markSent_completions id)
        (fun j => Or.inl (u.store.markSent_sink id j)) fun j hj => ?_)
      rcases u.store.markSent_phase id j with hp | ⟨-, -, hp⟩
      · exact Or.inl (hp.symm.trans hj)
      · exact Phase.noConfusion (hp.symm.trans hj)
  | takeCompleter id =>
      refine hquiet _ (h.of_messages (u.store.takeCompleter_draft? id)
        (u.store.takeCompleter_completions id) (fun j => ?_) fun j hj => ?_)
      · by_cases hid : id = j
        · subst hid
          exact Or.inr (u.store.takeCompleter_sink_self id)
        · exact Or.inl (Store.sink_congr (Store.takeCompleter_messages_ne hid))
      · exact Or.inl ((u.store.takeCompleter_phase id j).symm.trans hj)
  | cancel id =>
      rw [Store.perform_cancel]
      exact hgifts _
  | complete id r =>
      rw [Store.perform_complete]
      exact hgifts _
  | fail id e =>
      rw [Store.perform_fail]
      exact hgifts _
  | tick now =>
      exact hquiet _ (h.of_messages (fun _ => rfl) rfl (fun _ => Or.inl rfl) fun _ hj => Or.inl hj)

theorem sound_empty : Sound {} := by
  constructor
  · exact Store.nested_empty
  · intro id _
    exact Store.sink_of_size_le (Nat.zero_le id)
  · rintro j k ⟨sh, hj⟩
    cases (Store.sink_of_size_le (s := {}) (Nat.zero_le j)).symm.trans hj
  · rintro i j k ⟨sh, hi⟩ -
    cases (Store.sink_of_size_le (s := {}) (Nat.zero_le i)).symm.trans hi
  · intro k o
    constructor
    · intro h
      cases h
    · rintro ⟨c, hc, -⟩
      cases hc
  · exact List.nodup_nil
  · intro id hid
    cases hid
  · exact List.nodup_nil

theorem call_eq_some {c : Call} (h : u.call c = some u') :
    (∀ id ∈ c.subjects, id < u.store.messages.size) ∧ u' =
      { store := u.store.perform c
        assigned := u.assigned ++ c.assigned u.store
        given := u.given ++ u.store.handedAll (c.gifts u.store) } := by
  unfold call at h
  split at h
  · next hc => exact ⟨hc, (Option.some.inj h).symm⟩
  · cases h

theorem Sound.call (h : u.Sound) {c : Call} (hcall : u.call c = some u') : u'.Sound := by
  obtain ⟨hc, rfl⟩ := call_eq_some hcall
  exact h.perform c hc

/-- A completer has given one outcome. -/
theorem Sound.given_unique (h : u.Sound) {o o' : Outcome} (ho : (k, o) ∈ u.given)
    (ho' : (k, o') ∈ u.given) : o = o' := by
  obtain ⟨c, hc, hstage⟩ := (h.outcome k o).mp ho
  obtain ⟨d, hd, hstage'⟩ := (h.outcome k o').mp ho'
  cases hc.symm.trans hd
  exact Stage.delivered.inj (hstage.symm.trans hstage')

/-! ## Runs -/

theorem run_cons {c : Call} {cs : List Call} (h : u.run (c :: cs) = some u') :
    ∃ u₁, u.call c = some u₁ ∧ u₁.run cs = some u' := by
  unfold run at h
  rw [List.foldlM_cons] at h
  exact Option.bind_eq_some_iff.mp h

/-- What every possible call keeps, every sequence of calls keeps. -/
theorem run_induction {P : Dealings → Prop} {cs : List Call}
    (hcall : ∀ u u' c, u.Sound → u.call c = some u' → P u → P u')
    (hs : u.Sound) (hrun : u.run cs = some u') (h : P u) : u'.Sound ∧ P u' := by
  induction cs generalizing u with
  | nil =>
      cases hrun
      exact ⟨hs, h⟩
  | cons c cs ih =>
      obtain ⟨u₁, h₁, hrun⟩ := run_cons hrun
      exact ih (hs.call h₁) hrun (hcall u u₁ c hs h₁ h)

theorem Sound.run (h : u.Sound) {cs : List Call} (hrun : u.run cs = some u') : u'.Sound :=
  (run_induction (P := fun _ => True) (fun _ _ _ _ _ _ => trivial) h hrun trivial).1

theorem run_rank {cs : List Call} (hs : u.Sound) (hrun : u.run cs = some u')
    (hj : j < u.store.messages.size) :
    (u.store.phase j).rank ≤ (u'.store.phase j).rank := by
  refine (run_induction
    (P := fun v => j < v.store.messages.size ∧ (u.store.phase j).rank ≤ (v.store.phase j).rank)
    (fun v v' c _ hc h => ?_) hs hrun ⟨hj, Nat.le_refl _⟩).2.2
  obtain ⟨-, rfl⟩ := call_eq_some hc
  exact ⟨Store.perform_lt_size c h.1, Nat.le_trans h.2 (Store.perform_rank c h.1)⟩

theorem call_given {c : Call} {d : CompletionId × Outcome} (hcall : u.call c = some u')
    (h : d ∈ u.given) : d ∈ u'.given := by
  obtain ⟨-, rfl⟩ := call_eq_some hcall
  exact List.mem_append_left _ h

/-- What has been given stays given. -/
theorem run_given {cs : List Call} {d : CompletionId × Outcome} (hs : u.Sound)
    (hrun : u.run cs = some u') (h : d ∈ u.given) : d ∈ u'.given :=
  (run_induction (P := fun v => d ∈ v.given) (fun _ _ _ _ hc h => call_given hc h) hs hrun h).2

/-- A completer that no message holds and that has not been used is lost. -/
theorem run_lost {cs : List Call} (hs : u.Sound) (hrun : u.run cs = some u')
    (hk : k < u.store.completions.size) (hfree : ∀ j, ¬ u.store.Holds j k)
    (hunused : ∀ o, (k, o) ∉ u.given) (o : Outcome) : (k, o) ∉ u'.given := by
  refine (run_induction
    (P := fun v => k < v.store.completions.size ∧ (∀ j, ¬ v.store.Holds j k)
      ∧ ∀ o, (k, o) ∉ v.given) (fun v v' c hv hc h => ?_) hs hrun ⟨hk, hfree, hunused⟩).2.2.2 o
  obtain ⟨hk, hfree, hunused⟩ := h
  obtain ⟨-, rfl⟩ := call_eq_some hc
  refine ⟨Nat.lt_of_lt_of_le hk (v.store.perform_completions_size c),
    fun j hj => hfree j (Store.holds_of_perform c hk hj), fun o hmem => ?_⟩
  rcases List.mem_append.mp hmem with hold | hnew
  · exact hunused o hold
  · exact Store.not_mem_handedAll hfree o hnew

/-- The outcome of a completer that a message holds is the one with which the first call reaches
the message. -/
theorem given_iff_reachedFirst {cs : List Call} {sh : Shape} (hs : u.Sound)
    (hrun : u.run cs = some u') (hsink : u.store.sink j = .assigned ⟨k, sh⟩) (o : Outcome) :
    (k, o) ∈ u'.given ↔ ∃ f, ReachedFirst u cs j f ∧ f sh = o := by
  induction cs generalizing u with
  | nil =>
      cases hrun
      constructor
      · exact fun h => absurd h (hs.not_given (hs.waits j k ⟨sh, hsink⟩) o)
      · rintro ⟨f, hf, -⟩
        cases hf
  | cons c cs ih =>
      obtain ⟨u₁, h₁, hrest⟩ := run_cons hrun
      have hs₁ := hs.call h₁
      obtain ⟨-, hu₁⟩ := call_eq_some h₁
      by_cases hreach : ∃ f, u.store.Reaches c j f
      · -- this call decides the outcome
        obtain ⟨f, hf⟩ := hreach
        have hmem : (k, f sh) ∈ u₁.given := by
          rw [hu₁]
          refine List.mem_append_right _ (Store.mem_handedAll hsink
            ((Store.mem_gifts hs.nested).mpr hf) fun f' hf' => ?_)
          exact ((Store.mem_gifts hs.nested).mp hf').unique hs.nested hf
        have hgiven := run_given hs₁ hrest hmem
        constructor
        · exact fun h => ⟨f, .now hf, (hs₁.run hrest).given_unique hgiven h⟩
        · rintro ⟨f', hfirst, rfl⟩
          cases hfirst with
          | now hf' =>
              rw [hf'.unique hs.nested hf]
              exact hgiven
          | later hother => exact absurd hf (hother f)
      · have hother : ∀ f, ¬ u.store.Reaches c j f := fun f hf => hreach ⟨f, hf⟩
        by_cases htake : c = .takeCompleter j
        · -- the completer is out of the message, and no call gives it an outcome
          have hlost : (k, o) ∉ u'.given := by
            subst htake
            have hw := hs.waits j k ⟨sh, hsink⟩
            obtain ⟨d, hd, -⟩ := id hw
            have hlt := (Array.getElem?_eq_some_iff.mp hd).1
            refine run_lost hs₁ hrest ?_ (fun i hi => ?_) (fun o' => ?_) o
            · rw [hu₁]
              exact Nat.lt_of_lt_of_le hlt (u.store.perform_completions_size _)
            · rw [hu₁] at hi
              have hij := hs.alone i j k (Store.holds_of_perform _ hlt hi) ⟨sh, hsink⟩
              subst hij
              obtain ⟨sh', hi⟩ := hi
              exact Sink.noConfusion ((u.store.takeCompleter_sink_self i).symm.trans hi)
            · rw [hu₁]
              show (k, o') ∉ u.given ++ []
              rw [List.append_nil]
              exact hs.not_given hw o'
          constructor
          · exact fun h => absurd h hlost
          · rintro ⟨f, hfirst, -⟩
            cases hfirst with
            | now hf => exact absurd hf (hother f)
            | later _ hne => exact absurd htake hne
        · have hsink₁ : u₁.store.sink j = .assigned ⟨k, sh⟩ := by
            rw [hu₁]
            exact (Store.perform_sink_of_not_reaches hs.nested hsink hother htake).trans hsink
          rw [ih hs₁ hrest hsink₁]
          constructor
          · rintro ⟨f, hf, ho⟩
            exact ⟨f, .later hother htake h₁ hf, ho⟩
          · rintro ⟨f, hfirst, ho⟩
            cases hfirst with
            | now hf => exact absurd hf (hother f)
            | later _ _ hcall hf =>
                cases h₁.symm.trans hcall
                exact ⟨f, hf, ho⟩

/-! ## The order of calls -/

/-- How things stand at a moment `u`, and at the moment `u'` that the calls `after` lead to. -/
structure InOrder (u : Dealings) (after : List Call) (u' : Dealings) : Prop where
  /-- no message goes back to an earlier phase -/
  forward : ∀ id < u.store.messages.size, (u.store.phase id).rank ≤ (u'.store.phase id).rank
  /-- no finished message has a completer, and none takes one any more -/
  finished : ∀ id c, u.store.phase id = .complete →
    u.store.sink id ≠ .assigned c ∧ u.store.assign id c = .error .completionAssigned
  /-- a message takes a completion once -/
  assigned_once : u.assigned.Nodup
  /-- a completer gives an outcome once -/
  given_once : (u.given.map Prod.fst).Nodup
  /-- what is recorded as given is what has arrived -/
  arrived : ∀ k o,
    (k, o) ∈ u.given ↔ ∃ c, u.store.completions[k]? = some c ∧ c.stage = .delivered o
  /-- the first call that reaches a message decides what its completer gives -/
  first : ∀ j k sh, u.store.sink j = .assigned ⟨k, sh⟩ → ∀ o,
    ((k, o) ∈ u'.given ↔ ∃ f, ReachedFirst u after j f ∧ f sh = o)

/-- Whatever messages there are, and whatever is done to them in whatever order: phases advance,
a finished message has no completer, a message takes one completion, and its completer gives the
outcome of the first call that reaches the message, and no other. -/
theorem calls_in_order {before after : List Call} {u u' : Dealings}
    (hbefore : Dealings.run {} before = some u) (hafter : u.run after = some u') :
    InOrder u after u' := by
  have hs : u.Sound := sound_empty.run hbefore
  constructor
  · exact fun id hid => run_rank hs hafter hid
  · intro id c hp
    have hsink := hs.finished id hp
    refine ⟨fun hc => Sink.noConfusion (hsink.symm.trans hc), Store.assign_of_ne (fun he => ?_) c⟩
    exact Sink.noConfusion (hsink.symm.trans he)
  · exact hs.assigned_once
  · exact hs.once
  · exact hs.outcome
  · exact fun j k sh hsink o => given_iff_reachedFirst hs hafter hsink o

/-- Two commands with a completion each, the second of which is refused a second one. The first
is also in an envelope, and the batch holds the envelope and the second command. -/
def sharedMessages : List Call :=
  [.create { command := .get }, .create { command := .get }, .envelope 0, .batch [2, 1],
    .assign 0 .text, .assign 1 .text, .assign 1 .text, .assign 3 .unit]

/-- The server does not queue the first command, then the batch is cancelled, and then the reply
to the first command comes too late. -/
def crossingCalls : List Call :=
  [.complete 2 (.error "no"), .cancel 3, .complete 0 (.integer 1)]

/-- The first command has the error of its envelope, the others have been cancelled. -/
theorem calls_in_order_crossing :
    ∃ u u', Dealings.run {} sharedMessages = some u ∧ u.run crossingCalls = some u'
      ∧ InOrder u crossingCalls u'
      ∧ u'.given = [(0, .error (.server "no")), (1, .error .cancelled), (3, .error .cancelled)] :=
  ⟨_, _, rfl, rfl, @calls_in_order sharedMessages crossingCalls _ _ rfl rfl, rfl⟩

end Dealings

end RespMux
