import Mathlib.Data.List.Basic
import RespMux.Proofs.Custody

/-!
# The moves of a message

A message is created, gets its completer, is picked up for writing, and is put into an envelope
or a block. Each lemma of this file says that one of these moves keeps the custody. The pump makes
nothing but such moves, so no later proof opens the invariant to add a clause to it.
-/

set_option autoImplicit false

namespace RespMux

namespace Custody

variable {owned accepted queued queued' : List MessageId} {frames frames' : List InFlight}
variable {s s' : Store} {id : MessageId}

/-! ## New messages -/

/-- What a frame in flight reaches has been created before it. -/
theorem reach_lt (h : Custody owned accepted queued frames s) {f : InFlight} (hf : f ∈ frames) :
    ∀ j ∈ s.reach f, j < s.messages.size := by
  intro j hj
  cases f with
  | message id =>
      rcases h.kinds.message_kind id hf with hs | ⟨inner, he⟩
      · rw [show s.reach (.message id) = [id] from h.wellFormed.scopeOf_single hs] at hj
        rw [List.mem_singleton.mp hj]
        exact hs.lt_size
      · rw [show s.reach (.message id) = [inner, id] from h.wellFormed.scopeOf_envelope he] at hj
        rcases List.mem_cons.mp hj with rfl | hj
        · exact (h.wellFormed.inner_single he).lt_size
        · rw [List.mem_singleton.mp hj]
          exact he.lt_size
  | exec b =>
      have hb := h.kinds.block_owned b hf
      rw [h.reach_block hb] at hj
      exact (h.kinds.owned_single j (hb j hj)).lt_size

/-- New messages change nothing about what a frame in flight reaches. -/
theorem reach_grows (h : Custody owned accepted queued frames s) (hg : s.Grows s')
    {f : InFlight} (hf : f ∈ frames) : s'.reach f = s.reach f := by
  have hscope : ∀ j m, s.draft? j = some m → s'.scopeOf j = s.scopeOf j := by
    intro j m hm
    rw [Store.scopeOf_of_draft? hm, Store.scopeOf_of_draft? (hg j m hm)]
  cases f with
  | message id =>
      show s'.scopeOf id = s.scopeOf id
      rcases h.kinds.message_kind id hf with ⟨m, hm, -⟩ | ⟨-, m, hm, -⟩
      · exact hscope id m hm
      · exact hscope id m hm
  | exec b =>
      refine List.flatMap_congr fun j hj => ?_
      obtain ⟨m, hm, -⟩ := h.kinds.owned_single j (h.kinds.block_owned b hf j hj)
      exact hscope j m hm

theorem kinds_add (h : Custody owned accepted queued frames s) {m : Message}
    (wf : (s.add m).2.WellFormed) (hbatch : ∀ ms, m.body = .batch ms → ∀ j ∈ ms, j ∈ owned) :
    Kinds owned accepted queued frames (s.add m).2 := by
  have hg : s.Grows (s.add m).2 := .add s m
  exact
    { wellFormed := wf
      owned_single := fun j hj => hg.isSingle (h.kinds.owned_single j hj)
      accepted_kind := fun j hj => (h.kinds.accepted_kind j hj).imp_right fun ⟨ms, hb⟩ =>
        ⟨ms, hg.isBatch hb⟩
      queued_kind := fun j hj => (h.kinds.queued_kind j hj).imp_right fun ⟨ms, hb⟩ =>
        ⟨ms, hg.isBatch hb⟩
      members_owned := by
        intro j ms hb
        rcases hb.of_add with ⟨-, hm⟩ | hold
        · exact hbatch ms hm
        · exact h.kinds.members_owned j ms hold
      message_kind := fun j hj => (h.kinds.message_kind j hj).imp hg.isSingle fun ⟨i, he⟩ =>
        ⟨i, hg.isEnvelope he⟩
      block_owned := h.kinds.block_owned }

/-- Only a message that has not been picked up is new, and nobody holds it. -/
theorem phases_add (h : Custody owned accepted queued frames s) {m : Message}
    (hphase : m.phase = .notSent) : Phases owned accepted queued frames (s.add m).2 where
  reached f hf j hj ho := by
    rw [h.reach_grows (.add s m) hf] at hj
    rw [Store.add_phase_of_lt m (h.reach_lt hf j hj)]
    exact h.phases.reached f hf j hj ho
  sent j hs hp := by
    obtain ⟨hne, heq⟩ := Store.add_phase_of_ne hphase (by rw [hp]; decide)
    have hold := Store.draft?_congr (Store.add_messages_of_ne m hne)
    exact h.phases.sent j ((Store.IsSingle.congr hold).mp hs) (heq.symm.trans hp)
  accepted_queued j hj hp := by
    have hlt : j < s.messages.size := by
      rcases h.kinds.accepted_kind j hj with ho | ⟨ms, hb⟩
      · exact (h.kinds.owned_single j ho).lt_size
      · exact hb.lt_size
    rw [Store.add_phase_of_lt m hlt] at hp
    exact h.phases.accepted_queued j hj hp
  members_queued b ms hb hp j hj hjp := by
    rcases hb.of_add with ⟨rfl, -⟩ | hb
    · rw [Store.add_phase_self] at hp
      exact absurd hphase hp
    · rw [Store.add_phase_of_lt m hb.lt_size] at hp
      rw [Store.add_phase_of_lt m (h.wellFormed.member_single hb j hj).lt_size] at hjp
      exact h.phases.members_queued b ms hb hp j hj hjp

theorem completers_add (h : Custody owned accepted queued frames s) {m : Message}
    (hphase : m.phase = .notSent) (hsink : m.sink = .empty) :
    Completers frames (s.add m).2 where
  complete j hp := by
    obtain ⟨hne, heq⟩ := Store.add_phase_of_ne hphase (by rw [hp]; decide)
    rw [Store.sink_congr (Store.add_messages_of_ne m hne)]
    exact h.completers.complete j (heq.symm.trans hp)
  batch j ms hb hp := by
    rcases hb.of_add with ⟨rfl, -⟩ | hb
    · rw [Store.add_phase_self, hphase] at hp
      cases hp
    · rw [Store.sink_congr (Store.add_messages_of_lt m hb.lt_size)]
      rw [Store.add_phase_of_lt m hb.lt_size] at hp
      exact h.completers.batch j ms hb hp
  target j c hc := by
    obtain ⟨hk, hshape⟩ := h.completers.target j c (Store.add_sink_of_assigned hsink hc)
    refine ⟨hk, fun ms hb => ?_⟩
    rcases hb.of_add with ⟨rfl, -⟩ | hb
    · rw [Store.add_sink_self, hsink] at hc
      cases hc
    · exact hshape ms hb
  done b hb c hc := by
    obtain ⟨hshape, k, j, ms, hk, ht, hj, hp⟩ := h.completers.done b hb c hc
    refine ⟨hshape, k, j, ms, hk, ht, Store.Grows.isBatch (.add s m) hj, ?_⟩
    rw [Store.add_phase_of_lt m hj.lt_size]
    exact hp
  kept := h.completers.kept
  waits k c hk hw := by
    obtain ⟨j, sh, ht, hheld⟩ := h.completers.waits k c hk hw
    refine ⟨j, sh, ht, ?_⟩
    rcases hheld with hs | ⟨ms, b, hb, hf, hd⟩
    · -- a message that is not there has no completer
      have hlt : j ≠ s.messages.size := by
        rintro rfl
        rw [Store.sink_of_size_le (Nat.le_refl _)] at hs
        cases hs
      exact Or.inl ((Store.sink_congr (Store.add_messages_of_ne m hlt)).trans hs)
    · exact Or.inr ⟨ms, b, Store.Grows.isBatch (.add s m) hb, hf, hd⟩

/-- A new message that has not been picked up. -/
theorem add (h : Custody owned accepted queued frames s) {m : Message}
    (wf : (s.add m).2.WellFormed) (hphase : m.phase = .notSent) (hsink : m.sink = .empty)
    (hbatch : ∀ ms, m.body = .batch ms → ∀ j ∈ ms, j ∈ owned) :
    Custody owned accepted queued frames (s.add m).2 :=
  ⟨h.kinds_add wf hbatch, h.phases_add hphase, h.completers_add hphase hsink⟩

/-- A caller owns a message that no frame in flight reaches. -/
theorem own (h : Custody owned accepted queued frames s) (hs : s.IsSingle id)
    (hreach : ∀ f ∈ frames, id ∉ s.reach f) :
    Custody (id :: owned) accepted queued frames s where
  kinds :=
    { h.kinds with
      owned_single := by
        intro j hj
        rcases List.mem_cons.mp hj with rfl | hj
        · exact hs
        · exact h.kinds.owned_single j hj
      accepted_kind := fun j hj => (h.kinds.accepted_kind j hj).imp_left (List.mem_cons_of_mem id)
      queued_kind := fun j hj => (h.kinds.queued_kind j hj).imp_left (List.mem_cons_of_mem id)
      members_owned := fun b ms hb j hj =>
        List.mem_cons_of_mem id (h.kinds.members_owned b ms hb j hj)
      block_owned := fun b hb j hj => List.mem_cons_of_mem id (h.kinds.block_owned b hb j hj) }
  phases :=
    { h.phases with
      reached := by
        intro f hf j hj ho
        rcases List.mem_cons.mp ho with rfl | ho
        · exact absurd hj (hreach f hf)
        · exact h.phases.reached f hf j hj ho }
  completers := h.completers

theorem wellFormed_create (wf : s.WellFormed) (r : Request) : (s.create r).2.WellFormed :=
  wf.add (fun _ => ⟨rfl, rfl⟩) (fun _ hb => by cases hb) fun _ hb => by cases hb

/-- A message that the pump makes for itself. -/
theorem create (h : Custody owned accepted queued frames s) (r : Request) :
    Custody owned accepted queued frames (s.create r).2 :=
  h.add (wellFormed_create h.wellFormed r) rfl rfl fun _ hb => by cases hb

/-- A message that a caller makes. -/
theorem createOwned (h : Custody owned accepted queued frames s) (r : Request) :
    Custody (s.messages.size :: owned) accepted queued frames (s.create r).2 := by
  have hg : s.Grows (s.create r).2 := .add s _
  refine (h.create r).own ⟨_, Store.add_draft?_self s _, rfl⟩ fun f hf hmem => ?_
  rw [h.reach_grows hg hf] at hmem
  exact absurd (h.reach_lt hf _ hmem) (Nat.lt_irrefl _)

/-- An envelope around a single message. -/
theorem envelope (h : Custody owned accepted queued frames s) (hs : s.IsSingle id) :
    Custody owned accepted queued frames (s.envelope id).2 := by
  refine h.add (h.wellFormed.add (fun hb => by cases hb) (fun inner hb => ?_) fun _ hb => by
    cases hb) rfl rfl fun _ hb => by cases hb
  cases hb
  obtain ⟨i, hi, hbody⟩ := hs
  obtain ⟨n, hn, rfl⟩ := Store.exists_get_of_draft? hi
  refine ⟨n.draft, hi, hbody, ?_, ?_, ?_⟩
  · show ((s.messages[id]?.map Message.request).getD default).queued = _
    rw [hn]
    rfl
  · show s.messages[id]?.bind Message.frame = _
    rw [hn]
    rfl
  · show s.scopeOf id ++ [s.messages.size] = _
    rw [h.wellFormed.scopeOf_single ⟨n.draft, hi, hbody⟩]
    rfl

/-- A batch of messages that callers own. -/
theorem batch (h : Custody owned accepted queued frames s) {ms : List MessageId}
    (hms : ∀ j ∈ ms, j ∈ owned) : Custody owned accepted queued frames (s.batch ms).2 := by
  have hsingle : ∀ j ∈ ms, s.IsSingle j := fun j hj => h.kinds.owned_single j (hms j hj)
  refine h.add (h.wellFormed.add (fun hb => by cases hb) (fun _ hb => by cases hb) fun ms' hb => ?_)
    rfl rfl fun ms' hb => ?_
  · cases hb
    refine ⟨rfl, ?_, hsingle⟩
    show ms.flatMap s.scopeOf ++ [s.messages.size] = _
    rw [h.wellFormed.flatMap_scopeOf hsingle]
  · cases hb
    exact hms

/-! ## Picking up

A single message and an envelope are picked up by a frame of their own, a batch by a block. What
this does to the phases is the same for both. -/

/-- `s'` is `s` after `id` has been picked up. The completer of `id` may have been taken away. -/
structure Picked (s s' : Store) (id : MessageId) : Prop where
  draft : ∀ j, s'.draft? j = s.draft? j
  completions : s'.completions = s.completions
  self : s'.phase id = .sent
  phase : ∀ j, j ≠ id → s'.phase j = s.phase j
  sink : ∀ j, j ≠ id → s'.sink j = s.sink j

theorem picked_markSent (hp : s.phase id = .notSent) : Picked s (s.markSent id).2 id where
  draft := s.markSent_draft? id
  completions := s.markSent_completions id
  self := Store.markSent_phase_self hp
  phase _ hj := Store.phase_congr (Store.markSent_messages_ne hj.symm)
  sink j _ := s.markSent_sink id j

theorem Picked.takeCompleter (h : Picked s s' id) : Picked s (s'.takeCompleter id).2 id where
  draft j := (s'.takeCompleter_draft? id j).trans (h.draft j)
  completions := (s'.takeCompleter_completions id).trans h.completions
  self := (s'.takeCompleter_phase id id).trans h.self
  phase j hj := (s'.takeCompleter_phase id j).trans (h.phase j hj)
  sink j hj := (Store.sink_congr (Store.takeCompleter_messages_ne hj.symm)).trans (h.sink j hj)

theorem Picked.isBatch (h : Picked s s' id) {j : MessageId} {ms : List MessageId} :
    s'.IsBatch j ms ↔ s.IsBatch j ms :=
  Store.IsBatch.congr (h.draft j)

theorem Picked.of_notSent (h : Picked s s' id) {j : MessageId} (hj : s'.phase j = .notSent) :
    j ≠ id ∧ s.phase j = .notSent := by
  have hne : j ≠ id := by
    rintro rfl
    rw [h.self] at hj
    cases hj
  exact ⟨hne, (h.phase j hne).symm.trans hj⟩

theorem Picked.of_complete (h : Picked s s' id) {j : MessageId} (hj : s'.phase j = .complete) :
    j ≠ id ∧ s.phase j = .complete := by
  have hne : j ≠ id := by
    rintro rfl
    rw [h.self] at hj
    cases hj
  exact ⟨hne, (h.phase j hne).symm.trans hj⟩

theorem Picked.ne_notSent (h : Picked s s' id) {j : MessageId} (hj : s.phase j ≠ .notSent) :
    s'.phase j ≠ .notSent := fun hn => hj (h.of_notSent hn).2

/-- The frame `f` that picks a message up holds what it reaches, the message itself if that is a
single one, and the members of a batch stay queued. -/
theorem Picked.phases (h : Picked s s' id) (hc : Custody owned accepted queued frames s)
    {f : InFlight} (hreach : ∀ j ∈ s.reach f, j ∈ owned → s'.phase j ≠ .notSent)
    (hcover : s.IsSingle id → Covers (f :: frames) id) (hqueued : ∀ j ∈ queued, j ∈ queued')
    (hmembers : ∀ ms, s.IsBatch id ms → ∀ j ∈ ms, j ∈ queued') :
    Phases owned accepted queued' (f :: frames) s' where
  reached g hg j hj ho := by
    rw [Store.reach_congr h.draft] at hj
    rcases List.mem_cons.mp hg with rfl | hg
    · exact hreach j hj ho
    · exact h.ne_notSent (hc.phases.reached g hg j hj ho)
  sent j hs hp := by
    have hs : s.IsSingle j := (Store.IsSingle.congr (h.draft j)).mp hs
    by_cases hid : j = id
    · subst hid
      exact hcover hs
    · rw [h.phase j hid] at hp
      exact (hc.phases.sent j hs hp).mono fun g hg => List.mem_cons_of_mem f hg
  accepted_queued j hj hp := hqueued j (hc.phases.accepted_queued j hj (h.of_notSent hp).2)
  members_queued b ms hb hp j hj hjp := by
    have hb : s.IsBatch b ms := h.isBatch.mp hb
    by_cases hid : b = id
    · subst hid
      exact hmembers ms hb j hj
    · rw [h.phase b hid] at hp
      exact hqueued j (hc.phases.members_queued b ms hb hp j hj (h.of_notSent hjp).2)

theorem kinds_pickUp (h : Custody owned accepted queued frames s) (hp : Picked s s' id)
    (hkind : s.IsSingle id ∨ ∃ inner, s.IsEnvelope id inner) :
    Kinds owned accepted queued (.message id :: frames) s' :=
  { h.kinds.congr hp.draft with
    message_kind := by
      intro j hj
      rcases List.mem_cons.mp hj with heq | hj
      · cases heq
        exact hkind.imp (Store.IsSingle.congr (hp.draft _)).mpr fun ⟨inner, he⟩ =>
          ⟨inner, (Store.IsEnvelope.congr (hp.draft _)).mpr he⟩
      · exact (h.kinds.congr hp.draft).message_kind j hj
    block_owned := by
      intro b hb
      refine h.kinds.block_owned b ((List.mem_cons.mp hb).resolve_left ?_)
      intro heq
      cases heq }

/-- Completers stay where they are when a message other than a batch is picked up. -/
theorem completers_pickUp (h : Custody owned accepted queued frames s) (hp : Picked s s' id)
    (hsink : s'.sink id = s.sink id) (hnot : ∀ ms, ¬ s.IsBatch id ms) :
    Completers (.message id :: frames) s' := by
  have hsinks : ∀ j, s'.sink j = s.sink j := by
    intro j
    by_cases hid : j = id
    · rw [hid]
      exact hsink
    · exact hp.sink j hid
  exact
    { complete := fun j hj => (hsinks j).trans (h.completers.complete j (hp.of_complete hj).2)
      batch := by
        intro j ms hb hj
        have hb : s.IsBatch j ms := hp.isBatch.mp hb
        have hid : j ≠ id := by
          rintro rfl
          exact hnot ms hb
        rw [hp.phase j hid] at hj
        exact (hsinks j).trans (h.completers.batch j ms hb hj)
      target := by
        intro j c hc
        rw [hsinks] at hc
        rw [hp.completions]
        obtain ⟨hk, hshape⟩ := h.completers.target j c hc
        exact ⟨hk, fun ms hb => hshape ms (hp.isBatch.mp hb)⟩
      done := by
        intro b hb c hc
        rcases List.mem_cons.mp hb with heq | hb
        · cases heq
        · obtain ⟨hshape, k, j, ms, hk, ht, hj, hjp⟩ := h.completers.done b hb c hc
          rw [hp.completions]
          exact ⟨hshape, k, j, ms, hk, ht, hp.isBatch.mpr hj, hp.ne_notSent hjp⟩
      kept := by
        rw [hp.completions]
        exact h.completers.kept
      waits := by
        intro k c hk hw
        rw [hp.completions] at hk
        obtain ⟨j, sh, ht, hheld⟩ := h.completers.waits k c hk hw
        refine ⟨j, sh, ht, ?_⟩
        rcases hheld with hs | ⟨ms, b, hb, hf, hd⟩
        · exact Or.inl ((hsinks j).trans hs)
        · exact Or.inr ⟨ms, b, hp.isBatch.mpr hb, List.mem_cons_of_mem _ hf, hd⟩ }

/-- A message is picked up by a frame of its own. An envelope is picked up after the message inside
of it. -/
theorem pickUp (h : Custody owned accepted queued frames s) (hp : s.phase id = .notSent)
    (hkind : s.IsSingle id ∨ ∃ inner, s.IsEnvelope id inner
      ∧ (inner ∈ owned → s.phase inner ≠ .notSent)) :
    Custody owned accepted queued (.message id :: frames) (s.markSent id).2 := by
  have hpick : Picked s (s.markSent id).2 id := picked_markSent hp
  have hnot : ∀ ms, ¬ s.IsBatch id ms := by
    intro ms
    rcases hkind with hs | ⟨inner, he, -⟩
    · exact hs.not_isBatch ms
    · exact he.not_isBatch ms
  have hself : (s.markSent id).2.phase id ≠ .notSent := by
    rw [hpick.self]
    decide
  -- the answer reaches the message and, if it is an envelope, what is inside of it
  have hreach : ∀ j ∈ s.reach (.message id), j ∈ owned → (s.markSent id).2.phase j ≠ .notSent := by
    intro j hj ho
    change j ∈ s.scopeOf id at hj
    rcases hkind with hs | ⟨inner, he, hinner⟩
    · rw [h.wellFormed.scopeOf_single hs] at hj
      rw [List.mem_singleton.mp hj]
      exact hself
    · rw [h.wellFormed.scopeOf_envelope he] at hj
      rcases List.mem_cons.mp hj with rfl | hj
      · exact hpick.ne_notSent (hinner ho)
      · rw [List.mem_singleton.mp hj]
        exact hself
  refine ⟨?_, ?_, ?_⟩
  · exact h.kinds_pickUp hpick (hkind.imp_right fun ⟨inner, he, _⟩ => ⟨inner, he⟩)
  · exact hpick.phases h hreach (fun _ => Or.inl List.mem_cons_self) (fun _ hj => hj)
      fun ms hb => absurd hb (hnot ms)
  · exact h.completers_pickUp hpick (s.markSent_sink id id) hnot

theorem kinds_pickUpBatch (h : Custody owned accepted queued frames s) (hp : Picked s s' id)
    {ms : List MessageId} (hb : s.IsBatch id ms) (done : Option Completer) :
    Kinds owned accepted (ms ++ queued) (.exec ⟨[], done⟩ :: frames) s' :=
  { h.kinds.congr hp.draft with
    queued_kind := by
      intro j hj
      rcases List.mem_append.mp hj with hj | hj
      · exact Or.inl (h.kinds.members_owned id ms hb j hj)
      · exact (h.kinds.congr hp.draft).queued_kind j hj
    message_kind := by
      intro j hj
      refine (h.kinds.congr hp.draft).message_kind j ((List.mem_cons.mp hj).resolve_left ?_)
      intro heq
      cases heq
    block_owned := by
      intro b hm j hj
      rcases List.mem_cons.mp hm with heq | hm
      · cases heq
        cases hj
      · exact h.kinds.block_owned b hm j hj }

/-- The completer of a batch goes from the message to the block. -/
theorem completers_pickUpBatch (h : Custody owned accepted queued frames s) (hp : Picked s s' id)
    (hsink : s'.sink id = .consumed) {ms : List MessageId} (hb : s.IsBatch id ms)
    {done : Option Completer} (htaken : ∀ c, done = some c ↔ s.sink id = .assigned c) :
    Completers (.exec ⟨[], done⟩ :: frames) s' where
  complete j hj := by
    obtain ⟨hid, hj⟩ := hp.of_complete hj
    rw [hp.sink j hid]
    exact h.completers.complete j hj
  batch j ms' hb' hj := by
    by_cases hid : j = id
    · rw [hid]
      exact hsink
    · rw [hp.phase j hid] at hj
      rw [hp.sink j hid]
      exact h.completers.batch j ms' (hp.isBatch.mp hb') hj
  target j c hc := by
    have hid : j ≠ id := by
      rintro rfl
      rw [hsink] at hc
      cases hc
    rw [hp.sink j hid] at hc
    rw [hp.completions]
    obtain ⟨hk, hshape⟩ := h.completers.target j c hc
    exact ⟨hk, fun ms hb => hshape ms (hp.isBatch.mp hb)⟩
  done b hm c hc := by
    rw [hp.completions]
    rcases List.mem_cons.mp hm with heq | hm
    · cases heq
      obtain ⟨⟨k, hk, ht⟩, hshape⟩ := h.completers.target id c ((htaken c).mp hc)
      refine ⟨hshape ms hb, k, id, ms, hk, ht, hp.isBatch.mpr hb, ?_⟩
      rw [hp.self]
      decide
    · obtain ⟨hshape, k, j, ms', hk, ht, hj, hjp⟩ := h.completers.done b hm c hc
      exact ⟨hshape, k, j, ms', hk, ht, hp.isBatch.mpr hj, hp.ne_notSent hjp⟩
  kept := by
    rw [hp.completions]
    exact h.completers.kept
  waits k c hk hw := by
    rw [hp.completions] at hk
    obtain ⟨j, sh, ht, hheld⟩ := h.completers.waits k c hk hw
    refine ⟨j, sh, ht, ?_⟩
    rcases hheld with hs | ⟨ms', b, hb', hf, hd⟩
    · by_cases hid : j = id
      · -- the completer of the batch is in the block now
        subst hid
        exact Or.inr ⟨ms, _, hp.isBatch.mpr hb, List.mem_cons_self, (htaken _).mpr hs⟩
      · rw [hp.sink j hid]
        exact Or.inl hs
    · exact Or.inr ⟨ms', b, hp.isBatch.mpr hb', List.mem_cons_of_mem _ hf, hd⟩

/-- A batch is picked up by the block that will be written for it, which takes over its completer.
From then on its members are held on their own. -/
theorem pickUpBatch (h : Custody owned accepted queued frames s) {ms : List MessageId}
    (hb : s.IsBatch id ms) (hp : s.phase id = .notSent) :
    Custody owned accepted (ms ++ queued)
      (.exec ⟨[], ((s.markSent id).2.takeCompleter id).1⟩ :: frames)
      ((s.markSent id).2.takeCompleter id).2 := by
  have hpick : Picked s ((s.markSent id).2.takeCompleter id).2 id :=
    (picked_markSent hp).takeCompleter
  have htaken : ∀ c, ((s.markSent id).2.takeCompleter id).1 = some c ↔ s.sink id = .assigned c := by
    intro c
    rw [Store.takeCompleter_fst, Store.markSent_sink]
  refine ⟨?_, ?_, ?_⟩
  · exact h.kinds_pickUpBatch hpick hb _
  · refine hpick.phases h ?_ ?_ (fun _ => List.mem_append_right ms) fun ms' hb' => ?_
    · -- the block is empty yet
      intro j hj
      cases hj
    · intro hs
      exact absurd hb (hs.not_isBatch ms)
    · rw [hb.unique hb']
      exact fun _ => List.mem_append_left queued
  · exact h.completers_pickUpBatch hpick (Store.takeCompleter_sink_self _ _) hb htaken

/-- The block in hand takes more messages, which have been picked up. -/
theorem extendBlock {b b' : Block} (h : Custody owned accepted queued (.exec b :: frames) s)
    (hdone : b'.done = b.done) (hsub : ∀ j ∈ b.members, j ∈ b'.members)
    (hnew : ∀ j ∈ b'.members, j ∈ owned ∧ s.phase j ≠ .notSent) :
    Custody owned accepted queued (.exec b' :: frames) s where
  kinds :=
    { h.kinds with
      message_kind := fun j hj => h.kinds.message_kind j (List.mem_cons_of_mem _
        ((List.mem_cons.mp hj).resolve_left (by
          intro heq
          cases heq)))
      block_owned := by
        intro c hc j hj
        rcases List.mem_cons.mp hc with heq | hc
        · cases heq
          exact (hnew j hj).1
        · exact h.kinds.block_owned c (List.mem_cons_of_mem _ hc) j hj }
  phases :=
    { h.phases with
      reached := by
        intro f hf j hj ho
        rcases List.mem_cons.mp hf with rfl | hf
        · rw [h.reach_block fun i hi => (hnew i hi).1] at hj
          exact (hnew j hj).2
        · exact h.phases.reached f (List.mem_cons_of_mem _ hf) j hj ho
      sent := by
        intro j hs hp
        rcases h.phases.sent j hs hp with hm | ⟨c, hc, hj⟩
        · refine Or.inl (List.mem_cons_of_mem _ ((List.mem_cons.mp hm).resolve_left ?_))
          intro heq
          cases heq
        · rcases List.mem_cons.mp hc with heq | hc
          · cases heq
            exact Or.inr ⟨b', List.mem_cons_self, hsub j hj⟩
          · exact Or.inr ⟨c, List.mem_cons_of_mem _ hc, hj⟩ }
  completers :=
    { h.completers with
      done := by
        intro c hc d hd
        rcases List.mem_cons.mp hc with heq | hc
        · cases heq
          rw [hdone] at hd
          exact h.completers.done b List.mem_cons_self d hd
        · exact h.completers.done c (List.mem_cons_of_mem _ hc) d hd
      waits := by
        intro k c hk hw
        obtain ⟨j, sh, ht, hheld⟩ := h.completers.waits k c hk hw
        refine ⟨j, sh, ht, hheld.imp_right ?_⟩
        rintro ⟨ms, d, hb, hf, hd⟩
        rcases List.mem_cons.mp hf with heq | hf
        · cases heq
          exact ⟨ms, b', hb, List.mem_cons_self, hdone.trans hd⟩
        · exact ⟨ms, d, hb, List.mem_cons_of_mem _ hf, hd⟩ }

/-! ## Completions -/

/-- Readers may do what they like with completions, as long as none of these waits again. -/
theorem observe (h : Custody owned accepted queued frames s)
    (hdraft : ∀ j, s'.draft? j = s.draft? j) (hphase : ∀ j, s'.phase j = s.phase j)
    (hsink : ∀ j, s'.sink j = s.sink j)
    (hnew : ∀ (k : CompletionId) c', s'.completions[k]? = some c' → c'.Waits →
      ∃ c, s.completions[k]? = some c ∧ c.target = c'.target ∧ c.Waits)
    (hold : ∀ (k : CompletionId) c, s.completions[k]? = some c →
      ∃ c', s'.completions[k]? = some c' ∧ c'.target = c.target)
    (hkept : (∀ (k : CompletionId) c, s.completions[k]? = some c → c.stage ≠ .abandoned) →
      ∀ (k : CompletionId) c, s'.completions[k]? = some c → c.stage ≠ .abandoned) :
    Custody owned accepted queued frames s' := by
  have hbatch : ∀ {j ms}, s'.IsBatch j ms ↔ s.IsBatch j ms := fun {j _} =>
    Store.IsBatch.congr (hdraft j)
  refine ⟨h.kinds.congr hdraft, h.phases.congr hdraft hphase, ?_⟩
  exact
      { complete := fun j hp => (hsink j).trans (h.completers.complete j ((hphase j).symm.trans hp))
        batch := fun j ms hb hp => (hsink j).trans
          (h.completers.batch j ms (hbatch.mp hb) ((hphase j).symm.trans hp))
        target := fun j c hc => by
          rw [hsink] at hc
          obtain ⟨⟨k, hk, ht⟩, hshape⟩ := h.completers.target j c hc
          obtain ⟨k', hk', ht'⟩ := hold _ k hk
          exact ⟨⟨k', hk', ht'.trans ht⟩, fun ms hb => hshape ms (hbatch.mp hb)⟩
        done := fun b hb c hc => by
          obtain ⟨hshape, k, j, ms, hk, ht, hj, hp⟩ := h.completers.done b hb c hc
          obtain ⟨k', hk', ht'⟩ := hold _ k hk
          refine ⟨hshape, k', j, ms, hk', ht'.trans ht, hbatch.mpr hj, ?_⟩
          rw [hphase]
          exact hp
        kept := hkept h.completers.kept
        waits := fun k c' hk hw => by
          obtain ⟨c, hc, ht, hcw⟩ := hnew k c' hk hw
          obtain ⟨j, sh, ht', hheld⟩ := h.completers.waits k c hc hcw
          refine ⟨j, sh, ht.symm.trans ht', ?_⟩
          rcases hheld with hs | ⟨ms, b, hb, hf, hd⟩
          · exact Or.inl ((hsink j).trans hs)
          · exact Or.inr ⟨ms, b, hbatch.mpr hb, hf, hd⟩ }

/-- A message without a completer gets one. A batch gets it before it is picked up. -/
theorem completers_attach (h : Custody owned accepted queued frames s)
    (hempty : s.sink id = .empty) {shape : Shape}
    (hbatch : ∀ ms, s.IsBatch id ms → shape = .unit ∧ s.phase id = .notSent) :
    Completers frames (s.attach id shape) where
  complete j hp := by
    rw [Store.attach_phase] at hp
    have hconsumed := h.completers.complete j hp
    rw [Store.attach_sink_of_ne hempty (by rw [hconsumed]; exact Sink.noConfusion)]
    exact hconsumed
  batch j ms hb hp := by
    rw [Store.attach_isBatch] at hb
    rw [Store.attach_phase] at hp
    have hconsumed := h.completers.batch j ms hb hp
    rw [Store.attach_sink_of_ne hempty (by rw [hconsumed]; exact Sink.noConfusion)]
    exact hconsumed
  target j c hc := by
    by_cases hj : j = id
    · subst hj
      rw [Store.attach_sink_self (Store.lt_size_of_sink hempty)] at hc
      cases hc
      refine ⟨⟨_, Store.attach_completion_self s j shape, rfl⟩, fun ms hb => ?_⟩
      rw [Store.attach_isBatch] at hb
      exact (hbatch ms hb).1
    · rw [Store.sink_congr (Store.attach_messages_ne (Ne.symm hj) shape)] at hc
      obtain ⟨⟨k, hk, ht⟩, hshape⟩ := h.completers.target j c hc
      refine ⟨⟨k, Store.attach_completion_of_some hk, ht⟩, fun ms hb => ?_⟩
      rw [Store.attach_isBatch] at hb
      exact hshape ms hb
  done b hb c hc := by
    obtain ⟨hshape, k, j, ms, hk, ht, hj, hp⟩ := h.completers.done b hb c hc
    refine ⟨hshape, k, j, ms, Store.attach_completion_of_some hk, ht, ?_, ?_⟩
    · rw [Store.attach_isBatch]
      exact hj
    · rw [Store.attach_phase]
      exact hp
  kept k c hk := by
    rw [Store.attach_completions] at hk
    split at hk
    · cases hk
      exact Stage.noConfusion
    · exact h.completers.kept k c hk
  waits k c hk hw := by
    by_cases hnew : k = s.completions.size
    · -- the new completion waits for the message that has just got its completer
      subst hnew
      rw [Store.attach_completion_self] at hk
      cases hk
      exact ⟨id, shape, rfl,
        Or.inl (Store.attach_sink_self (Store.lt_size_of_sink hempty) shape)⟩
    · rw [Store.attach_completions, if_neg hnew] at hk
      obtain ⟨j, sh, ht, hheld⟩ := h.completers.waits k c hk hw
      refine ⟨j, sh, ht, ?_⟩
      rcases hheld with hs | ⟨ms, b, hb, hf, hd⟩
      · rw [Store.attach_sink_of_ne hempty (by rw [hs]; exact Sink.noConfusion)]
        exact Or.inl hs
      · rw [← Store.attach_isBatch id shape] at hb
        exact Or.inr ⟨ms, b, hb, hf, hd⟩

theorem attach (h : Custody owned accepted queued frames s) (hempty : s.sink id = .empty)
    {shape : Shape} (hbatch : ∀ ms, s.IsBatch id ms → shape = .unit ∧ s.phase id = .notSent) :
    Custody owned accepted queued frames (s.attach id shape) where
  kinds := h.kinds.congr fun j => s.attach_draft? id j shape
  phases := h.phases.congr (fun j => s.attach_draft? id j shape) fun j => s.attach_phase id j shape
  completers := h.completers_attach hempty hbatch

end Custody

end RespMux
