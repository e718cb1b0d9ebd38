import RespMux.Connection.Incoming
import RespMux.Proofs.Connection.Sound

/-!
# What replies do to a connection

A reply is a matter of the frame it is matched with: it completes the message or the messages of
the block, is counted, and may end the connection. Here stands what becomes of the store, and that
a reply keeps a connection sound.
-/

set_option autoImplicit false

namespace RespMux

/-! ## The store -/

namespace Store

/-- A message gets its reply as it counts for its request. -/
def answer (s : Store) (id : MessageId) (r : Reply) : Store :=
  s.complete id ((s.requestOf id).judge r)

/-- The results of a block go to its slots. -/
def answerSlots (s : Store) : List (Option MessageId × Reply) → Store
  | [] => s
  | (none, _) :: rest => s.answerSlots rest
  | (some id, r) :: rest => (s.answer id r).answerSlots rest

/-- Then the block gives its own outcome. -/
def answerBlock (s : Store) (b : Block) (rs : List Reply) : Store :=
  match b.done with
  | some k => (s.answerSlots (b.slots.zip rs)).deliver k (k.shape.extract (.status Literal.ok.bytes))
  | none => s.answerSlots (b.slots.zip rs)

variable {s : Store}

theorem answer_resolves (wf : s.WellFormed) {id : MessageId} (hb : ∀ ms, ¬ s.IsBatch id ms)
    (r : Reply) : Resolves (fun _ => True) (s.scopeOf id) [] s (s.answer id r) :=
  complete_resolves wf hb _

theorem answer_phase (s : Store) (id : MessageId) (r : Reply) :
    (s.answer id r).phase id = .complete :=
  complete_phase s id _

/-- An answer does not change what has been asked. -/
theorem answer_requestOf (s : Store) (id : MessageId) (r : Reply) :
    (s.answer id r).requestOf = s.requestOf := by
  have hdraft (j : MessageId) : (s.answer id r).draft? j = s.draft? j := by
    unfold answer complete
    split
    · rfl
    · rw [finish_draft?]
      split
      · exact fail_draft? s _ j _
      · rfl
  funext j
  exact requestOf_congr (hdraft j)

/-- The results of a block reach the messages in its slots, which are single. -/
theorem answerSlots_resolves (wf : s.WellFormed) (l : List (Option MessageId × Reply))
    (hl : ∀ j ∈ (l.map Prod.fst).filterMap id, s.IsSingle j) :
    Resolves (fun _ => True) ((l.map Prod.fst).filterMap id) [] s (s.answerSlots l) := by
  induction l generalizing s with
  | nil => exact .refl _ s
  | cons x l ih =>
      obtain ⟨slot, r⟩ := x
      cases slot with
      | none => exact ih wf hl
      | some j =>
          have hj : s.IsSingle j := hl j List.mem_cons_self
          have hfirst := answer_resolves wf hj.not_isBatch r
          rw [wf.scopeOf_single hj] at hfirst
          refine hfirst.trans (ih (hfirst.wellFormed wf) fun i hi => ?_)
          exact (IsSingle.congr (hfirst.draft? i)).mpr (hl i (List.mem_cons_of_mem j hi))

/-- Each of them is complete then. -/
theorem answerSlots_phase (wf : s.WellFormed) (l : List (Option MessageId × Reply))
    (hl : ∀ j ∈ (l.map Prod.fst).filterMap id, s.IsSingle j) :
    ∀ j ∈ (l.map Prod.fst).filterMap id, (s.answerSlots l).phase j = .complete := by
  induction l generalizing s with
  | nil =>
      intro j hj
      cases hj
  | cons x l ih =>
      obtain ⟨slot, r⟩ := x
      cases slot with
      | none => exact ih wf hl
      | some j =>
          have hj : s.IsSingle j := hl j List.mem_cons_self
          have hfirst := answer_resolves wf hj.not_isBatch r
          have hrest : ∀ i ∈ (l.map Prod.fst).filterMap id, (s.answer j r).IsSingle i :=
            fun i hi => (IsSingle.congr (hfirst.draft? i)).mpr (hl i (List.mem_cons_of_mem j hi))
          have hwf := hfirst.wellFormed wf
          intro i hi
          rcases List.mem_cons.mp hi with rfl | hi
          · exact (answerSlots_resolves hwf l hrest).complete (answer_phase s i r)
          · exact ih hwf hrest i hi

/-- The slots and the results of a block have the same length. -/
theorem zip_members {b : Block} {rs : List Reply} (h : rs.length = b.slots.length) :
    ((b.slots.zip rs).map Prod.fst).filterMap id = b.members := by
  rw [List.map_fst_zip (Nat.le_of_eq h.symm)]
  rfl

theorem answerBlock_resolves (wf : s.WellFormed) {b : Block} {rs : List Reply}
    (h : rs.length = b.slots.length) (hb : ∀ j ∈ b.members, s.IsSingle j) :
    Resolves (fun _ => True) b.members (InFlight.own (.exec b)) s (s.answerBlock b rs) := by
  have hslots := answerSlots_resolves wf (b.slots.zip rs) (by rw [zip_members h]; exact hb)
  rw [zip_members h] at hslots
  unfold answerBlock
  rw [InFlight.own_exec]
  cases hd : b.done with
  | none => exact hslots
  | some k =>
      refine (hslots.trans (deliver_resolves (c := k) trivial)).mono (fun _ h => h) (fun j hj => ?_)
        fun _ hk => hk
      rw [List.append_nil] at hj
      exact hj

theorem answerBlock_phase (wf : s.WellFormed) {b : Block} {rs : List Reply}
    (h : rs.length = b.slots.length) (hb : ∀ j ∈ b.members, s.IsSingle j) :
    ∀ j ∈ b.members, (s.answerBlock b rs).phase j = .complete := by
  intro j hj
  have hslots := answerSlots_phase wf (b.slots.zip rs) (by rw [zip_members h]; exact hb) j
    (by rw [zip_members h]; exact hj)
  unfold answerBlock
  cases b.done with
  | none => exact hslots
  | some k => exact hslots

theorem answerBlock_given (b : Block) (rs : List Reply) :
    ∀ k ∈ InFlight.own (.exec b), ¬ (s.answerBlock b rs).Waits k := by
  intro k hk
  rw [InFlight.own_exec] at hk
  unfold answerBlock
  cases hd : b.done with
  | none =>
      rw [hd] at hk
      cases hk
  | some c =>
      rw [hd] at hk
      rw [List.mem_singleton.mp hk]
      exact deliver_given _ c _

end Store

namespace Connection

variable {owned accepted : List MessageId} {c c' : Connection}

/-! ## The connection -/

/-- Apart from the store, an answer touches the counters and the listeners only. -/
theorem answer_eq (c : Connection) (id : MessageId) (r : Reply) :
    ∃ n events, (c.answer id r).2
      = { c with store := c.store.answer id r, counters := n, events := events } := by
  unfold answer
  dsimp only
  split
  · split
    · exact ⟨_, _, rfl⟩
    · exact ⟨_, _, rfl⟩
  · exact ⟨_, _, rfl⟩

theorem answerSlots_eq (c : Connection) (l : List (Option MessageId × Reply)) :
    ∃ n events, (c.answerSlots l).2
      = { c with store := c.store.answerSlots l, counters := n, events := events } := by
  induction l generalizing c with
  | nil => exact ⟨_, _, rfl⟩
  | cons x l ih =>
      obtain ⟨slot, r⟩ := x
      cases slot with
      | none => exact ih c
      | some id =>
          obtain ⟨n, events, heq⟩ := c.answer_eq id r
          obtain ⟨n', events', heq'⟩ := ih (c.answer id r).2
          refine ⟨n', events', ?_⟩
          show ((c.answer id r).2.answerSlots l).2 = _
          rw [heq', heq]
          rfl

/-- A block gets an array with one item for each slot. -/
theorem results?_ok {b : Block} {r : Reply} {rs : List Reply} (h : b.results? r = .ok rs) :
    r = .multi rs ∧ rs.length = b.slots.length := by
  unfold Block.results? at h
  split at h
  · next rs' =>
    split at h
    · next hlen =>
      cases h
      exact ⟨rfl, hlen⟩
    · cases h
  · cases h
  · cases h
  · cases h

/-- A block whose results have the right number gets them, and a failure of a critical request
ends the connection. -/
theorem answerBlock_eq (c : Connection) {b : Block} {r : Reply} {rs : List Reply}
    (h : b.results? r = .ok rs) :
    ∃ n events, c.answerBlock b r
      = (match (c.answerSlots (b.slots.zip rs)).1 with
        | some e => shutdown { c with
            store := c.store.answerBlock b rs
            counters := n
            events := events } "a critical command failed" (some e)
        | none => { c with
            store := c.store.answerBlock b rs
            counters := n
            events := events }) := by
  obtain ⟨n, events, heq⟩ := c.answerSlots_eq (b.slots.zip rs)
  refine ⟨n, events, ?_⟩
  unfold answerBlock Store.answerBlock
  rw [h]
  dsimp only
  rw [heq]
  cases b.done with
  | none => rfl
  | some k => rfl

theorem sound_of_open
    (hc : Custody owned accepted c.queue.toList c.ledger.entries c.store)
    (hcollected : ∀ t, ∀ id ∈ (c.collected t).toList, id ∈ owned)
    (hopen : c.isShutDown = false) (hrecording : c.ledger.isClosed = false) :
    c.Sound owned accepted where
  custody := hc
  collected := hcollected
  recording _ := hrecording
  down hd := by
    rw [hopen] at hd
    cases hd

/-- The block in hand is answered, and then it is not needed any more. -/
theorem answerBlock_keeps {b : Block} (r : Reply)
    (hc : Custody owned accepted c.queue.toList (.exec b :: c.ledger.entries) c.store)
    (hcollected : ∀ t, ∀ id ∈ (c.collected t).toList, id ∈ owned)
    (hopen : c.isShutDown = false) (hrecording : c.ledger.isClosed = false) :
    (c.answerBlock b r).Sound owned accepted ∧ Continues c (c.answerBlock b r) := by
  have hsingle : ∀ j ∈ b.members, c.store.IsSingle j := fun j hj =>
    hc.kinds.owned_single j (hc.kinds.block_owned b List.mem_cons_self j hj)
  cases hres : b.results? r with
  | error e =>
      have hr := Store.failBlock_resolves hc.wellFormed b e
      have heq : c.answerBlock b r = { c with store := c.store.failBlock b e } := by
        unfold answerBlock
        rw [hres]
      rw [heq]
      exact ⟨sound_of_open (hc.failFrame e) hcollected hopen hrecording,
        ⟨.of_draft? hr.draft?, fun h => h, fun _ => rfl⟩⟩
  | ok rs =>
      obtain ⟨-, hlen⟩ := results?_ok hres
      have hr := Store.answerBlock_resolves hc.wellFormed hlen hsingle
      obtain ⟨n, events, heq⟩ := c.answerBlock_eq hres
      have hanswered : Sound owned accepted { c with
          store := c.store.answerBlock b rs
          counters := n
          events := events } := by
        refine sound_of_open ?_ hcollected hopen hrecording
        exact (hc.resolve hr).dropBlock (Store.answerBlock_phase hc.wellFormed hlen hsingle)
          (Store.answerBlock_given b rs)
      have hcontinues : Continues c { c with
          store := c.store.answerBlock b rs
          counters := n
          events := events } :=
        ⟨.of_draft? hr.draft?, fun h => h, fun _ => rfl⟩
      rw [heq]
      split
      · -- a critical command among the results tears the connection down
        next e _ =>
        obtain ⟨hs, hcont⟩ := keeps_shutdown _ "a critical command failed" (some e) hanswered
        exact ⟨hs, hcontinues.trans hcont⟩
      · exact ⟨hanswered, hcontinues⟩

/-- A frame that was in hand gets its reply, and then it is not needed any more. -/
theorem answerInFlight_keeps {f : InFlight} (r : Reply)
    (hc : Custody owned accepted c.queue.toList (f :: c.ledger.entries) c.store)
    (hcollected : ∀ t, ∀ id ∈ (c.collected t).toList, id ∈ owned)
    (hopen : c.isShutDown = false) (hrecording : c.ledger.isClosed = false) :
    (c.answerInFlight f r).2.Sound owned accepted ∧ Continues c (c.answerInFlight f r).2 := by
  cases f with
  | message id =>
      have hkind : ∀ ms, ¬ c.store.IsBatch id ms := hc.message_not_batch List.mem_cons_self
      have hr := Store.answer_resolves hc.wellFormed hkind r
      obtain ⟨n, events, heq⟩ := c.answer_eq id r
      show (c.answer id r).2.Sound owned accepted ∧ Continues c (c.answer id r).2
      rw [heq]
      refine ⟨sound_of_open ?_ hcollected hopen hrecording, ⟨.of_draft? hr.draft?, fun h => h,
        fun _ => rfl⟩⟩
      exact (hc.resolve hr).dropMessage (c.store.answer_phase id r)
  | exec b =>
      -- whatever becomes of an error reply, it is the block that is answered
      have hblock := answerBlock_keeps r hc hcollected hopen hrecording
      unfold answerInFlight
      dsimp only
      split
      · obtain ⟨hs, hcont⟩ := hblock
        obtain ⟨hs', hcont'⟩ := ((keeps_count _ .error).trans (keeps_emit _ _ _ _)) hs
        exact ⟨hs', hcont.trans hcont'⟩
      · exact hblock

/-- Without a frame in flight there is no place for a reply. -/
theorem processReply_nil (h : c.ledger.entries = []) (r : Reply) :
    c.processReply r = (some (.protocol (.unexpectedReply r.display)), c) := by
  unfold processReply Ledger.pop?
  rw [h]

/-- The connection when the oldest frame has been taken out of the ledger, and `fs` are left. -/
def popped (c : Connection) (fs : List InFlight) : Connection :=
  { c with ledger := { c.ledger with entries := fs } }.count .received

/-- A reply goes to the oldest frame in flight. -/
theorem processReply_cons {f : InFlight} {fs : List InFlight} (h : c.ledger.entries = f :: fs)
    (r : Reply) :
    c.processReply r = (c.popped fs).answerInFlight f r := by
  unfold processReply Ledger.pop?
  rw [h]
  rfl

theorem Sound.open_of_cons (hs : c.Sound owned accepted) {f : InFlight} {fs : List InFlight}
    (h : c.ledger.entries = f :: fs) : c.isShutDown = false := by
  cases hd : c.isShutDown with
  | false => rfl
  | true =>
      rw [(hs.down hd).2.2.1] at h
      cases h

/-- Processing a reply takes one frame out of the ledger and keeps the connection sound. -/
theorem processReply_keeps (hs : c.Sound owned accepted) {f : InFlight} {fs : List InFlight}
    (h : c.ledger.entries = f :: fs) (r : Reply) :
    (c.processReply r).2.Sound owned accepted
      ∧ Continues { c with ledger := { c.ledger with entries := fs } } (c.processReply r).2 := by
  have hopen := hs.open_of_cons h
  have hc := hs.custody
  rw [h] at hc
  obtain ⟨hs', hcont⟩ :=
    answerInFlight_keeps (c := c.popped fs) r hc hs.collected hopen (hs.recording hopen)
  rw [processReply_cons h]
  exact ⟨hs', hcont.grows, hcont.down, hcont.ledger⟩

end Connection

end RespMux
