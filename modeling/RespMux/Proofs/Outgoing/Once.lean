import RespMux.Proofs.Outgoing.Round

/-!
# One frame for one message

The command of a message is written as its own frame or as an envelope inside a block. Either way it
is picked up first, and nobody picks it up again. So a round writes at most one frame for a message,
and only if the message waited before and does not wait afterwards (`Dispatches.once`). A round
picks up the message in hand and, if that is a batch, its members, and no other
(`Dispatches.mem_of_picked`).
-/

set_option autoImplicit false

namespace RespMux

namespace Store

variable {s s₁ s' : Store} {id j inner : MessageId} {f : InFlight} {fs : List InFlight}

/-! ## Whose frame it is -/

/-- The frame is that of the message: its own, or an envelope around it. -/
def isFrameOf (s : Store) (id : MessageId) : InFlight → Bool
  | .message j => j == id || (s.draft? j).any fun m => m.body == .envelope id
  | .exec _ => false

theorem isFrameOf_message : s.isFrameOf id (.message j) = true ↔ j = id ∨ s.IsEnvelope j id := by
  simp [isFrameOf, IsEnvelope, Option.any_eq_true]

theorem isFrameOf_single (hj : s.IsSingle j) : s.isFrameOf id (.message j) = decide (j = id) := by
  rw [Bool.eq_iff_iff, isFrameOf_message, decide_eq_true_eq]
  exact or_iff_left (hj.not_isEnvelope id)

/-- The frame of an envelope is that of the message inside. -/
theorem isFrameOf_envelope (hj : s.IsEnvelope j inner) (hid : s.IsSingle id) :
    s.isFrameOf id (.message j) = decide (inner = id) := by
  rw [Bool.eq_iff_iff, isFrameOf_message, decide_eq_true_eq]
  constructor
  · rintro (rfl | ⟨m, hm, hb⟩)
    · exact absurd hj (hid.not_isEnvelope inner)
    · obtain ⟨n, hn, hb'⟩ := hj
      cases hm.symm.trans hn
      cases hb.symm.trans hb'
      rfl
  · rintro rfl
    exact Or.inr hj

/-- What a frame is does not change. -/
theorem Grows.isFrameOf (h : s.Grows s') (hf : ∀ j, f = .message j → j < s.messages.size) :
    s'.isFrameOf id f = s.isFrameOf id f := by
  cases f with
  | exec b => rfl
  | message j =>
      have hget := Array.getElem?_eq_getElem (hf j rfl)
      have hdraft := draft?_of_get hget
      simp only [Store.isFrameOf, hdraft, h j _ hdraft]

theorem Grows.countP_isFrameOf (h : s.Grows s')
    (hfs : ∀ j, .message j ∈ fs → j < s.messages.size) :
    fs.countP (s'.isFrameOf id) = fs.countP (s.isFrameOf id) :=
  List.countP_congr fun f hf => by
    rw [h.isFrameOf fun j hj => hfs j (hj ▸ hf)]

/-! ## At most once -/

/-- Among the frames there is at most one of the message, and only if somebody has picked the
message up between `s` and `s'`. -/
structure Once (s s' : Store) (fs : List InFlight) (id : MessageId) : Prop where
  le : fs.countP (s'.isFrameOf id) ≤ 1
  picked : 0 < fs.countP (s'.isFrameOf id) → s.phase id = .notSent ∧ s'.phase id ≠ .notSent

theorem Once.nil (s s' : Store) (id : MessageId) : Once s s' [] id where
  le := Nat.zero_le 1
  picked h := absurd h (Nat.lt_irrefl 0)

/-- Frames of others do not matter. -/
theorem Once.skip (h : Once s s' fs id) (hf : s'.isFrameOf id f = false) :
    Once s s' (f :: fs) id := by
  have hcount : (f :: fs).countP (s'.isFrameOf id) = fs.countP (s'.isFrameOf id) :=
    List.countP_cons_of_neg (by rw [hf]; exact Bool.false_ne_true)
  constructor
  · rw [hcount]
    exact h.le
  · rw [hcount]
    exact h.picked

theorem Once.append_exec (h : Once s s' fs id) (b : Block) :
    Once s s' (fs ++ [InFlight.exec b]) id := by
  have hcount : (fs ++ [InFlight.exec b]).countP (s'.isFrameOf id) = fs.countP (s'.isFrameOf id) := by
    rw [List.countP_append]
    rfl
  constructor
  · rw [hcount]
    exact h.le
  · rw [hcount]
    exact h.picked

/-- The frame of a message that has been picked up for it is the only one. -/
theorem Once.first (h : Once s₁ s' fs id) (hn : s.phase id = .notSent)
    (hp : s₁.phase id ≠ .notSent) (hp' : s'.phase id ≠ .notSent) :
    Once s s' (f :: fs) id := by
  have hnone : fs.countP (s'.isFrameOf id) = 0 := by
    by_contra hne
    exact hp (h.picked (Nat.pos_of_ne_zero hne)).1
  constructor
  · have hle := List.countP_le_length (l := [f]) (p := s'.isFrameOf id)
    rw [← List.singleton_append, List.countP_append, hnone]
    exact hle
  · exact fun _ => ⟨hn, hp'⟩

theorem Once.start (h : Once s₁ s' fs id) (hp : s₁.phase id = s.phase id) : Once s s' fs id where
  le := h.le
  picked hpos := by
    rw [← hp]
    exact h.picked hpos

end Store

/-! ## Blocks -/

namespace Expands

variable {s s' : Store} {db db' : Option Database} {id j : MessageId} {ids : List MessageId}
variable {fs : List InFlight} {slots : List (Option MessageId)}

theorem stays_phase_ne {x : MessageId} (hj : j < s.messages.size) (hne : x ≠ j) :
    ((s.markSent x).2.wrap x).phase j = s.phase j :=
  Store.phase_congr ((stays_messages hj).trans (Store.markSent_messages_ne hne))

theorem moved_phase_ne {x : MessageId} {d : Database} (hj : j < s.messages.size) (hne : x ≠ j) :
    (moved s x d).phase j = s.phase j :=
  Store.phase_congr ((moved_messages hj).trans (Store.markSent_messages_ne hne))

theorem stays_phase_self {x : MessageId} (hp : s.phase x = .notSent) (hx : x < s.messages.size) :
    ((s.markSent x).2.wrap x).phase x ≠ .notSent := by
  rw [Store.phase_congr (stays_messages hx), Store.markSent_phase_self hp]
  decide

theorem moved_phase_self {x : MessageId} {d : Database} (hp : s.phase x = .notSent)
    (hx : x < s.messages.size) : (moved s x d).phase x ≠ .notSent := by
  rw [Store.phase_congr (moved_messages hx), Store.markSent_phase_self hp]
  decide

/-- Only members are picked up. -/
theorem mem_of_picked (h : Expands s db ids s' fs slots db') (hj : j < s.messages.size)
    (hn : s.phase j = .notSent) (hp : s'.phase j ≠ .notSent) : j ∈ ids := by
  induction h with
  | nil s db => exact absurd hn hp
  | skipped hx rest ih => exact List.mem_cons_of_mem _ (ih hj hn hp)
  | @stays s _ _ _ x _ _ _ _ hx hm hstay rest ih =>
      by_cases hne : x = j
      · exact hne ▸ List.mem_cons_self
      · exact List.mem_cons_of_mem _ (ih (Nat.lt_of_lt_of_le hj (stays_sends s x).size)
          ((stays_phase_ne hj hne).trans hn) hp)
  | @moves s _ _ _ x _ _ _ _ d hx hm hd hne hs rest ih =>
      by_cases hne : x = j
      · exact hne ▸ List.mem_cons_self
      · exact List.mem_cons_of_mem _ (ih (Nat.lt_of_lt_of_le hj (moved_sends s x d).size)
          ((moved_phase_ne hj hne).trans hn) hp)

/-- A member gets at most one envelope, however often it is listed. -/
theorem once (h : Expands s db ids s' fs slots db') (hid : s.IsSingle id) :
    Store.Once s s' fs id := by
  induction h with
  | nil s db => exact .nil s s id
  | skipped hx rest ih => exact ih hid
  | @stays s s' _ _ x _ fs _ _ hx hm hstay rest ih =>
      have hgrows := rest.sends.grows
      have hid₁ := (stays_sends s x).grows.isSingle hid
      have hrest := ih hid₁
      have hframe : s'.isFrameOf id (.message s.messages.size) = decide (x = id) :=
        Store.isFrameOf_envelope (hgrows.isEnvelope (stays_isEnvelope s x)) (hgrows.isSingle hid₁)
      by_cases hxid : x = id
      · subst hxid
        have hself := stays_phase_self hx hid.lt_size
        exact hrest.first hx hself fun hn => hself (rest.sends.notSent hid₁.lt_size hn)
      · exact (hrest.start (stays_phase_ne hid.lt_size hxid)).skip
          (hframe.trans (decide_eq_false hxid))
  | @moves s s' _ _ x _ fs _ _ d hx hm hd hne hs rest ih =>
      have hgrows := rest.sends.grows
      have hid₁ := (moved_sends s x d).grows.isSingle hid
      have hid' := hgrows.isSingle hid₁
      have hrest := ih hid₁
      -- the envelope in front is one around a choice of the pump
      have hchoice : s'.isFrameOf id (.message (s.messages.size + 1)) = false := by
        rw [Store.isFrameOf_envelope (hgrows.isEnvelope (moved_choice s x d)) hid']
        exact decide_eq_false (Ne.symm (Nat.ne_of_lt hid.lt_size))
      have hframe : s'.isFrameOf id (.message (s.messages.size + 2)) = decide (x = id) :=
        Store.isFrameOf_envelope (hgrows.isEnvelope (moved_member s x d)) hid'
      refine Store.Once.skip ?_ hchoice
      by_cases hxid : x = id
      · subst hxid
        have hself := moved_phase_self (d := d) hx hid.lt_size
        exact hrest.first hx hself fun hn => hself (rest.sends.notSent hid₁.lt_size hn)
      · exact (hrest.start (moved_phase_ne hid.lt_size hxid)).skip
          (hframe.trans (decide_eq_false hxid))

end Expands

/-! ## Rounds -/

namespace Dispatches

variable {s s' : Store} {db sel : Option Database} {x id j : MessageId} {fs : List InFlight}

theorem completions (h : Dispatches s db x s' fs sel) : s'.completions = s.completions := by
  cases h with
  | plain => rfl
  | choice => rfl
  | preceded => exact (s.issue_sends _).completions
  | batch hm hb hexp hsel =>
      rw [hexp.sends.completions, (Store.issue_sends _ .multi).completions,
        Store.takeCompleter_completions]

/-- Each frame is that of a message that exists. -/
theorem frames_lt (h : Dispatches s db x s' fs sel) (hj : .message j ∈ fs) :
    j < s'.messages.size := by
  cases h with
  | plain hm =>
      cases List.mem_singleton.mp hj
      exact (Array.getElem?_eq_some_iff.mp hm).1
  | choice hm =>
      cases List.mem_singleton.mp hj
      exact (Array.getElem?_eq_some_iff.mp hm).1
  | preceded hm =>
      have hx := (Array.getElem?_eq_some_iff.mp hm).1
      rw [Store.issue_size]
      rcases List.mem_cons.mp hj with heq | hj
      · cases heq
        exact Nat.lt_succ_self _
      · cases List.mem_singleton.mp hj
        exact Nat.lt_succ_of_lt hx
  | batch hm hb hexp hsel =>
      have hsize := hexp.sends.size
      rw [Store.issue_size, Store.takeCompleter_size] at hsize
      rcases List.mem_append.mp hj with hj | hj
      · rcases List.mem_cons.mp hj with heq | hj
        · cases heq
          exact hsize
        · obtain ⟨i, inner, heq, he, -⟩ := hexp.frames_fresh _ hj
          cases heq
          exact he.lt_size
      · cases List.mem_singleton.mp hj

/-- What has been picked up besides the message in hand is a member of it. -/
theorem mem_of_picked (h : Dispatches s db x s' fs sel) (hj : j < s.messages.size)
    (hn : s.phase j = .notSent) (hp : s'.phase j ≠ .notSent) : ∃ ms, s.IsBatch x ms ∧ j ∈ ms := by
  cases h with
  | plain => exact absurd hn hp
  | choice => exact absurd hn hp
  | preceded =>
      rw [Store.phase_congr (Store.issue_messages_of_lt _ hj)] at hp
      exact absurd hn hp
  | @batch m ms _ _ _ _ _ hm hb hexp hsel =>
      have hlt : j < (s.takeCompleter x).2.messages.size := by
        rw [Store.takeCompleter_size]
        exact hj
      refine ⟨ms, ⟨m.draft, Store.draft?_of_get hm, hb⟩, hexp.mem_of_picked ?_ ?_ hp⟩
      · exact Nat.lt_of_lt_of_le hlt (Store.issue_sends _ .multi).size
      · rw [Store.phase_congr (Store.issue_messages_of_lt .multi hlt), Store.takeCompleter_phase]
        exact hn

/-- Between `s` and the end of the round the message in hand has been picked up too. -/
theorem picked_phase (h : Dispatches (s.markSent x).2 db x s' fs sel)
    (hj : j < s.messages.size) :
    s'.phase j = s.phase j ∨ (s.phase j = .notSent ∧ s'.phase j = .sent) := by
  have hlt : j < (s.markSent x).2.messages.size := by
    rw [Store.markSent_size]
    exact hj
  rcases h.phase hlt with hsame | ⟨hn, hsent⟩
  · rw [hsame]
    exact (s.markSent_phase x j).imp_right fun ⟨_, hn, hp⟩ => ⟨hn, hp⟩
  · exact Or.inr ⟨s.markSent_notSent x hn, hsent⟩

theorem picked_self (h : Dispatches (s.markSent x).2 db x s' fs sel) (hp : s.phase x = .notSent)
    (hx : x < s.messages.size) : s'.phase x = .sent := by
  have hlt : x < (s.markSent x).2.messages.size := by
    rw [Store.markSent_size]
    exact hx
  have hself := Store.markSent_phase_self hp
  rcases h.phase hlt with hsame | ⟨hn, -⟩
  · exact hsame.trans hself
  · cases hself.symm.trans hn

/-- What a round writes for a message is at most one frame. -/
theorem once (h : Dispatches (s.markSent x).2 db x s' fs sel) (hp : s.phase x = .notSent)
    (hx : s.IsSingle x ∨ ∃ ms, s.IsBatch x ms) (hid : s.IsSingle id) :
    Store.Once s s' fs id := by
  have hsent := s.markSent_sends x
  have hid₁ := hsent.grows.isSingle hid
  have hgrows := hsent.grows.trans h.grows
  -- the frame of the message in hand, which is no batch
  have hown : (∀ ms, ¬ s.IsBatch x ms) → Store.Once s s' [.message x] id := by
    intro hnot
    have hxs := hx.resolve_right fun ⟨ms, hb⟩ => hnot ms hb
    by_cases hne : x = id
    · subst hne
      have hpicked := h.picked_self hp hxs.lt_size
      have hpicked : s'.phase x ≠ .notSent := by
        rw [hpicked]
        decide
      exact (Store.Once.nil s' s' x).first hp hpicked hpicked
    · exact (Store.Once.nil s s' id).skip
        ((Store.isFrameOf_single (hgrows.isSingle hxs)).trans (decide_eq_false hne))
  have hbody : ∀ m, (s.markSent x).2.messages[x]? = some m → m.members? = none →
      ∀ ms, ¬ s.IsBatch x ms := by
    rintro m hm hb ms ⟨n, hn, hbatch⟩
    rw [← s.markSent_draft? x x, Store.draft?_of_get hm] at hn
    cases hn
    have hmembers : m.members? = some ms := Message.members?_of_batch hbatch
    rw [hmembers] at hb
    cases hb
  -- a message of the pump is another one
  have hissued : ∀ r : Request, ∀ s₁ : Store, s₁.messages.size = s.messages.size →
      ∀ {s₂ : Store}, (s₁.issue r).Grows s₂ →
        s₂.isFrameOf id (.message s.messages.size) = false := by
    intro r s₁ hsize s₂ hg
    have hsingle := hg.isSingle (s₁.issue_carries r).isSingle
    rw [hsize] at hsingle
    rw [Store.isFrameOf_single hsingle]
    exact decide_eq_false (Ne.symm (Nat.ne_of_lt hid.lt_size))
  cases h with
  | plain hm hb => exact hown (hbody _ hm hb)
  | choice hm hs => exact hown (hbody _ hm (Message.members?_of_isSelect hs))
  | preceded hm hb =>
      rw [Store.markSent_size]
      exact (hown (hbody _ hm hb)).skip
        (hissued _ _ (s.markSent_size x) (.refl _))
  | @batch m ms _ _ _ _ _ hm hb hexp hsel =>
      have hsize : ((s.markSent x).2.takeCompleter x).2.messages.size = s.messages.size := by
        rw [Store.takeCompleter_size, Store.markSent_size]
      have htaken : (s.markSent x).2.Grows ((s.markSent x).2.takeCompleter x).2 :=
        .of_draft? ((s.markSent x).2.takeCompleter_draft? x)
      have hbatch : s.IsBatch x ms :=
        ⟨m.draft, (s.markSent_draft? x x).symm.trans (Store.draft?_of_get hm), hb⟩
      have hne : x ≠ id := by
        rintro rfl
        exact hid.not_isBatch ms hbatch
      have hlt : id < ((s.markSent x).2.takeCompleter x).2.messages.size := by
        rw [hsize]
        exact hid.lt_size
      have hinside := hexp.once ((Store.issue_sends _ .multi).grows.isSingle (htaken.isSingle hid₁))
      rw [Store.markSent_size]
      refine Store.Once.append_exec (Store.Once.skip (hinside.start ?_) ?_) _
      · rw [Store.phase_congr (Store.issue_messages_of_lt .multi hlt), Store.takeCompleter_phase]
        exact Store.phase_congr (Store.markSent_messages_ne hne)
      · exact hissued .multi _ hsize hexp.sends.grows

end Dispatches

end RespMux
