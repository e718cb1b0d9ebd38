import RespMux.Proofs.Store.Aspects

/-!
# What sending does to the store

The pump changes the store in two ways only: it picks messages up, and it adds messages of its own
that it has picked up at once. `Sends` says what can happen then. In particular no completion is
touched, and no message gets or loses a completer.
-/

set_option autoImplicit false

namespace RespMux

namespace Store

variable {s s₁ s' : Store} {id j : MessageId}

/-- A message of the pump itself, picked up. -/
def issue (s : Store) (r : Request) : Store := ((s.create r).2.markSent s.messages.size).2

/-- An envelope around a message, picked up. -/
def wrap (s : Store) (id : MessageId) : Store := ((s.envelope id).2.markSent s.messages.size).2

/-- `s'` is `s` after messages have been picked up and new ones without completers have been
added. -/
structure Sends (s s' : Store) : Prop where
  grows : s.Grows s'
  size : s.messages.size ≤ s'.messages.size
  completions : s'.completions = s.completions
  now : s'.now = s.now
  sink : ∀ id, id < s.messages.size → s'.sink id = s.sink id
  fresh : ∀ id c, s.messages.size ≤ id → s'.sink id ≠ .assigned c
  phase : ∀ id, id < s.messages.size →
    s'.phase id = s.phase id ∨ (s.phase id = .notSent ∧ s'.phase id = .sent)

theorem Sends.refl (s : Store) : Sends s s where
  grows := .refl s
  size := Nat.le_refl _
  completions := rfl
  now := rfl
  sink _ _ := rfl
  fresh id c hid hc := by
    rw [sink_of_size_le hid] at hc
    cases hc
  phase _ _ := Or.inl rfl

theorem Sends.trans (h : Sends s s₁) (h' : Sends s₁ s') : Sends s s' where
  grows := h.grows.trans h'.grows
  size := Nat.le_trans h.size h'.size
  completions := h'.completions.trans h.completions
  now := h'.now.trans h.now
  sink id hid := (h'.sink id (Nat.lt_of_lt_of_le hid h.size)).trans (h.sink id hid)
  fresh id c hid := by
    by_cases hlt : id < s₁.messages.size
    · rw [h'.sink id hlt]
      exact h.fresh id c hid
    · exact h'.fresh id c (Nat.le_of_not_lt hlt)
  phase id hid := by
    rcases h'.phase id (Nat.lt_of_lt_of_le hid h.size) with hp | ⟨hn, hp⟩
    · rw [hp]
      exact h.phase id hid
    · rcases h.phase id hid with hq | ⟨-, hq⟩
      · exact Or.inr ⟨hq.symm.trans hn, hp⟩
      · rw [hq] at hn
        cases hn

theorem Sends.notSent (h : Sends s s') (hid : id < s.messages.size)
    (hp : s'.phase id = .notSent) : s.phase id = .notSent := by
  rcases h.phase id hid with hq | ⟨hn, -⟩
  · exact hq.symm.trans hp
  · exact hn

@[simp] theorem markSent_size (s : Store) (id : MessageId) :
    (s.markSent id).2.messages.size = s.messages.size := by
  by_cases h : s.phase id = .notSent
  · rw [markSent_of_notSent h]
    exact Array.size_modify
  · rw [markSent_of_ne h]

theorem markSent_sends (s : Store) (id : MessageId) : Sends s (s.markSent id).2 where
  grows := .of_draft? (s.markSent_draft? id)
  size := Nat.le_of_eq (s.markSent_size id).symm
  completions := s.markSent_completions id
  now := s.markSent_now id
  sink j _ := s.markSent_sink id j
  fresh j c hj hc := by
    rw [s.markSent_sink id j, sink_of_size_le hj] at hc
    cases hc
  phase j _ := (s.markSent_phase id j).imp_right fun ⟨_, hn, hp⟩ => ⟨hn, hp⟩

@[simp] theorem add_size (s : Store) (m : Message) :
    (s.add m).2.messages.size = s.messages.size + 1 :=
  Array.size_push m

theorem add_sends (s : Store) {m : Message} (hm : ∀ c, m.sink ≠ .assigned c) :
    Sends s (s.add m).2 where
  grows := .add s m
  size := by
    rw [add_size]
    exact Nat.le_succ _
  completions := rfl
  now := rfl
  sink j hj := sink_congr (add_messages_of_lt m hj)
  fresh j c hj := by
    rcases Nat.eq_or_lt_of_le hj with rfl | hlt
    · rw [add_sink_self]
      exact hm c
    · intro hc
      rw [sink_of_size_le (by rw [add_size]; exact hlt)] at hc
      cases hc
  phase j hj := Or.inl (phase_congr (add_messages_of_lt m hj))

theorem create_sends (s : Store) (r : Request) : Sends s (s.create r).2 :=
  s.add_sends fun _ h => by cases h

theorem envelope_sends (s : Store) (id : MessageId) : Sends s (s.envelope id).2 :=
  s.add_sends fun _ h => by cases h

theorem issue_sends (s : Store) (r : Request) : Sends s (s.issue r) :=
  (s.create_sends r).trans (markSent_sends _ _)

theorem wrap_sends (s : Store) (id : MessageId) : Sends s (s.wrap id) :=
  (s.envelope_sends id).trans (markSent_sends _ _)

@[simp] theorem create_size (s : Store) (r : Request) :
    (s.create r).2.messages.size = s.messages.size + 1 :=
  s.add_size _

@[simp] theorem issue_size (s : Store) (r : Request) :
    (s.issue r).messages.size = s.messages.size + 1 :=
  (markSent_size _ _).trans (s.create_size r)

@[simp] theorem wrap_size (s : Store) (id : MessageId) :
    (s.wrap id).messages.size = s.messages.size + 1 :=
  (markSent_size _ _).trans (s.add_size _)

theorem issue_messages_of_lt (r : Request) (h : j < s.messages.size) :
    (s.issue r).messages[j]? = s.messages[j]? :=
  (markSent_messages_ne (Ne.symm (Nat.ne_of_lt h))).trans (add_messages_of_lt _ h)

theorem wrap_messages_of_lt (id : MessageId) (h : j < s.messages.size) :
    (s.wrap id).messages[j]? = s.messages[j]? :=
  (markSent_messages_ne (Ne.symm (Nat.ne_of_lt h))).trans (add_messages_of_lt _ h)

/-! ### What has been added -/

/-- The message is the single message of a request. -/
def Carries (s : Store) (id : MessageId) (r : Request) : Prop :=
  ∃ m, s.draft? id = some m ∧ m.body = .single ∧ m.request = r ∧ m.frame = some r.frame

theorem Carries.isSingle {r : Request} (h : s.Carries id r) : s.IsSingle id := by
  obtain ⟨m, hm, hb, -⟩ := h
  exact ⟨m, hm, hb⟩

theorem Carries.requestOf {r : Request} (h : s.Carries id r) : s.requestOf id = r := by
  obtain ⟨m, hm, -, hrequest, -⟩ := h
  exact (requestOf_of_draft? hm).trans hrequest

theorem Grows.carries {r : Request} (h : s.Grows s') (hc : s.Carries id r) : s'.Carries id r := by
  obtain ⟨m, hm, hrest⟩ := hc
  exact ⟨m, h id m hm, hrest⟩

theorem create_carries (s : Store) (r : Request) : (s.create r).2.Carries s.messages.size r :=
  ⟨_, s.add_draft?_self _, rfl, rfl, rfl⟩

theorem issue_carries (s : Store) (r : Request) : (s.issue r).Carries s.messages.size r :=
  (markSent_sends _ _).grows.carries (s.create_carries r)

theorem wrap_isEnvelope (s : Store) (id : MessageId) : (s.wrap id).IsEnvelope s.messages.size id :=
  (markSent_sends _ _).grows.isEnvelope ⟨_, s.add_draft?_self _, rfl⟩

end Store

end RespMux
