import RespMux.Proofs.Store.Outcomes

/-!
# Messages within messages

Envelopes and batches are made of older messages, which may be envelopes and batches themselves,
and may be shared. `Contains` says what is in a message at any depth. The scope of a message,
along which its failure goes, lists exactly that (`mem_scopeOf`), as long as every message was
made by one of the operations for it (`Nested`).
-/

set_option autoImplicit false

namespace RespMux

namespace Store

/-- `j` is the message `id` or is in it, at any depth. -/
inductive Contains (s : Store) : MessageId → MessageId → Prop where
  | self {id : MessageId} (h : id < s.messages.size) : Contains s id id
  | envelope {id inner j : MessageId} (h : s.IsEnvelope id inner) (hj : Contains s inner j) :
      Contains s id j
  | batch {id i j : MessageId} {ms : List MessageId} (h : s.IsBatch id ms) (hi : i ∈ ms)
      (hj : Contains s i j) : Contains s id j

/-- A composite message is made of older ones, and its scope is theirs with itself at the end. -/
structure Nested (s : Store) : Prop where
  single : ∀ id m, s.draft? id = some m → m.body = .single → m.scope = [id]
  envelope : ∀ id m inner, s.draft? id = some m → m.body = .envelope inner →
    inner < id ∧ m.scope = s.scopeOf inner ++ [id]
  batch : ∀ id m ms, s.draft? id = some m → m.body = .batch ms →
    (∀ i ∈ ms, i < id) ∧ m.scope = ms.flatMap s.scopeOf ++ [id]

variable {s s' : Store} {id j : MessageId}

/-! ## What a message contains is its scope -/

theorem Nested.congr (h : s.Nested) (hd : ∀ id, s'.draft? id = s.draft? id) : s'.Nested := by
  have hscope : s'.scopeOf = s.scopeOf := funext fun id => scopeOf_congr (hd id)
  constructor
  · intro id m hm
    exact h.single id m ((hd id).symm.trans hm)
  · intro id m inner hm
    rw [hscope]
    exact h.envelope id m inner ((hd id).symm.trans hm)
  · intro id m ms hm
    rw [hscope]
    exact h.batch id m ms ((hd id).symm.trans hm)

theorem Contains.lt_size (h : s.Contains id j) : j < s.messages.size := by
  induction h with
  | self h => exact h
  | envelope _ _ ih => exact ih
  | batch _ _ _ ih => exact ih

/-- What a message contains is not newer than the message. -/
theorem Nested.le_of_contains (hs : s.Nested) (h : s.Contains id j) : j ≤ id := by
  induction h with
  | self _ => exact Nat.le_refl _
  | envelope he _ ih =>
      obtain ⟨m, hm, hb⟩ := he
      exact Nat.le_trans ih (Nat.le_of_lt (hs.envelope _ m _ hm hb).1)
  | batch hb hi _ ih =>
      obtain ⟨m, hm, hbody⟩ := hb
      exact Nat.le_trans ih (Nat.le_of_lt ((hs.batch _ m _ hm hbody).1 _ hi))

theorem Nested.mem_scopeOf_of_contains (hs : s.Nested) (h : s.Contains id j) :
    j ∈ s.scopeOf id := by
  induction h with
  | @self id hlt =>
      have hm := draft?_of_get (Array.getElem?_eq_getElem hlt)
      rw [scopeOf_of_draft? hm]
      cases hb : (s.messages[id]).draft.body with
      | single =>
          rw [hs.single id _ hm hb]
          exact List.mem_singleton_self id
      | envelope inner =>
          rw [(hs.envelope id _ inner hm hb).2]
          exact List.mem_append_right _ (List.mem_singleton_self id)
      | batch ms =>
          rw [(hs.batch id _ ms hm hb).2]
          exact List.mem_append_right _ (List.mem_singleton_self id)
  | envelope he _ ih =>
      obtain ⟨m, hm, hb⟩ := he
      rw [scopeOf_of_draft? hm, (hs.envelope _ m _ hm hb).2]
      exact List.mem_append_left _ ih
  | batch hb hi _ ih =>
      obtain ⟨m, hm, hbody⟩ := hb
      rw [scopeOf_of_draft? hm, (hs.batch _ m _ hm hbody).2]
      exact List.mem_append_left _ (List.mem_flatMap.mpr ⟨_, hi, ih⟩)

theorem Nested.contains_of_mem_scopeOf (hs : s.Nested) :
    ∀ id j, j ∈ s.scopeOf id → s.Contains id j := by
  intro id
  -- the parts of a message are older, so they have been dealt with
  induction id using Nat.strongRecOn with
  | ind id ih =>
      intro j hj
      rw [scopeOf_eq] at hj
      cases hm : s.draft? id with
      | none =>
          rw [hm] at hj
          cases hj
      | some m =>
          have hself : s.Contains id id := .self (lt_size_of_draft? hm)
          replace hj : j ∈ m.scope := by
            rw [hm] at hj
            exact hj
          cases hb : m.body with
          | single =>
              rw [hs.single id m hm hb, List.mem_singleton] at hj
              exact hj ▸ hself
          | envelope inner =>
              obtain ⟨hlt, hscope⟩ := hs.envelope id m inner hm hb
              rw [hscope, List.mem_append, List.mem_singleton] at hj
              rcases hj with hj | rfl
              · exact .envelope ⟨m, hm, hb⟩ (ih inner hlt j hj)
              · exact hself
          | batch ms =>
              obtain ⟨hlt, hscope⟩ := hs.batch id m ms hm hb
              rw [hscope, List.mem_append, List.mem_singleton, List.mem_flatMap] at hj
              rcases hj with ⟨i, hi, hj⟩ | rfl
              · exact .batch ⟨m, hm, hb⟩ hi (ih i (hlt i hi) j hj)
              · exact hself

theorem Nested.mem_scopeOf (hs : s.Nested) : j ∈ s.scopeOf id ↔ s.Contains id j :=
  ⟨hs.contains_of_mem_scopeOf id j, hs.mem_scopeOf_of_contains⟩

/-! ## New messages -/

theorem nested_empty : Nested {} := by
  have hnone : ∀ id, ({} : Store).draft? id = none := fun id => draft?_of_size_le (Nat.zero_le id)
  constructor
  · intro id m hm
    cases (hnone id).symm.trans hm
  · intro id m inner hm
    cases (hnone id).symm.trans hm
  · intro id m ms hm
    cases (hnone id).symm.trans hm

theorem scopeOf_add (m : Message) (h : j < s.messages.size) :
    (s.add m).2.scopeOf j = s.scopeOf j :=
  scopeOf_congr (draft?_congr (add_messages_of_lt m h))

theorem flatMap_scopeOf_add (m : Message) {ms : List MessageId}
    (h : ∀ i ∈ ms, i < s.messages.size) :
    ms.flatMap (s.add m).2.scopeOf = ms.flatMap s.scopeOf := by
  rw [List.flatMap_def, List.flatMap_def, List.map_congr_left fun i hi => scopeOf_add m (h i hi)]

/-- A new message fits if its scope is made of the scopes that are there. -/
theorem Nested.add (hs : s.Nested) {m : Message}
    (hsingle : m.body = .single → m.scope = [s.messages.size])
    (henvelope : ∀ inner, m.body = .envelope inner →
      inner < s.messages.size ∧ m.scope = s.scopeOf inner ++ [s.messages.size])
    (hbatch : ∀ ms, m.body = .batch ms → (∀ i ∈ ms, i < s.messages.size)
      ∧ m.scope = ms.flatMap s.scopeOf ++ [s.messages.size]) :
    (s.add m).2.Nested := by
  -- a message of the new store is the new one or one of the old ones
  have hcases : ∀ id n, (s.add m).2.draft? id = some n →
      (id = s.messages.size ∧ n = m.draft) ∨ (id < s.messages.size ∧ s.draft? id = some n) := by
    intro id n hn
    by_cases hid : id = s.messages.size
    · subst hid
      rw [add_draft?_self] at hn
      exact Or.inl ⟨rfl, (Option.some.inj hn).symm⟩
    · rw [draft?_congr (add_messages_of_ne m hid)] at hn
      exact Or.inr ⟨lt_size_of_draft? hn, hn⟩
  constructor
  · intro id n hn hb
    rcases hcases id n hn with ⟨rfl, rfl⟩ | ⟨-, hold⟩
    · exact hsingle hb
    · exact hs.single id n hold hb
  · intro id n inner hn hb
    rcases hcases id n hn with ⟨rfl, rfl⟩ | ⟨hlt, hold⟩
    · obtain ⟨hinner, hscope⟩ := henvelope inner hb
      rw [scopeOf_add m hinner]
      exact ⟨hinner, hscope⟩
    · obtain ⟨hinner, hscope⟩ := hs.envelope id n inner hold hb
      rw [scopeOf_add m (Nat.lt_trans hinner hlt)]
      exact ⟨hinner, hscope⟩
  · intro id n ms hn hb
    rcases hcases id n hn with ⟨rfl, rfl⟩ | ⟨hlt, hold⟩
    · obtain ⟨hms, hscope⟩ := hbatch ms hb
      rw [flatMap_scopeOf_add m hms]
      exact ⟨hms, hscope⟩
    · obtain ⟨hms, hscope⟩ := hs.batch id n ms hold hb
      rw [flatMap_scopeOf_add m fun i hi => Nat.lt_trans (hms i hi) hlt]
      exact ⟨hms, hscope⟩

theorem Nested.create (hs : s.Nested) (r : Request) : (s.create r).2.Nested :=
  hs.add (fun _ => rfl) (fun _ h => Body.noConfusion h) fun _ h => Body.noConfusion h

theorem Nested.envelope' (hs : s.Nested) {inner : MessageId} (h : inner < s.messages.size) :
    (s.envelope inner).2.Nested := by
  refine hs.add (fun h => Body.noConfusion h) (fun i hi => ?_) fun _ h => Body.noConfusion h
  cases hi
  exact ⟨h, rfl⟩

theorem Nested.batch' (hs : s.Nested) {ms : List MessageId}
    (h : ∀ i ∈ ms, i < s.messages.size) : (s.batch ms).2.Nested := by
  refine hs.add (fun h => Body.noConfusion h) (fun _ h => Body.noConfusion h) fun l hl => ?_
  cases hl
  exact ⟨h, rfl⟩

end Store

end RespMux
