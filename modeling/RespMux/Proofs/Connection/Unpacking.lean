import RespMux.Proofs.Connection.Results

/-!
# The array of a block

The results of a block come as one array, and the array is given out: every member has the result
at its own index like a reply that comes by itself (`Serves`), the results in the other slots go to
nobody, and a member that must succeed and has failed does not keep the others from theirs. Only
when all members have been served the batch has its success, and only then the connection is torn
down, with the first of the failures (`Unpacks`).

Everybody has their own provided that the members are commands and that no completer is in two
places (`Block.Fits`). In a sound state this holds for all blocks in flight (`Sound.fits`).
-/

set_option autoImplicit false

namespace RespMux

/-! ## One reply -/

namespace Request

/-- The failure of a request that must succeed, if the reply is one. -/
def failure? (q : Request) (r : Reply) : Option Error :=
  match q.judge r with
  | .error t => if q.critical then some (.criticalFailure q.display t) else none
  | _ => none

/-- What the listener is told of the failure of any other request. -/
def complaint? (q : Request) (r : Reply) : Option ErrorEvent :=
  match q.judge r with
  | .error t => if q.critical then none else some ⟨.server t, q.display, false⟩
  | _ => none

theorem complaint?_fatal {q : Request} {r : Reply} {x : ErrorEvent} (h : q.complaint? r = some x) :
    x.fatal = false := by
  unfold complaint? at h
  split at h
  · split at h
    · cases h
    · cases h
      rfl
  · cases h

end Request

namespace EventLog

/-- Publishes several events, one after the other. -/
def publishAll (l : EventLog) (xs : List ErrorEvent) : EventLog := xs.foldl publish l

theorem publishAll_append (l : EventLog) (xs ys : List ErrorEvent) :
    l.publishAll (xs ++ ys) = (l.publishAll xs).publishAll ys := List.foldl_append

end EventLog

namespace Store

/-- The failures among replies to messages, in order. -/
def failures (s : Store) (l : List (MessageId × Reply)) : List Error :=
  l.filterMap fun x => (s.requestOf x.1).failure? x.2

/-- What the listener is told of replies to messages. -/
def complaints (s : Store) (l : List (MessageId × Reply)) : List ErrorEvent :=
  l.filterMap fun x => (s.requestOf x.1).complaint? x.2

variable {s s' : Store}

theorem failures_cons (s : Store) (x : MessageId × Reply) (l : List (MessageId × Reply)) :
    s.failures (x :: l) = ((s.requestOf x.1).failure? x.2).toList ++ s.failures l := by
  cases h : (s.requestOf x.1).failure? x.2 with
  | none => simp [failures, h]
  | some e => simp [failures, h]

theorem complaints_cons (s : Store) (x : MessageId × Reply) (l : List (MessageId × Reply)) :
    s.complaints (x :: l) = ((s.requestOf x.1).complaint? x.2).toList ++ s.complaints l := by
  cases h : (s.requestOf x.1).complaint? x.2 with
  | none => simp [complaints, h]
  | some e => simp [complaints, h]

theorem failures_congr (h : s'.requestOf = s.requestOf) : s'.failures = s.failures := by
  funext l
  simp only [failures, h]

theorem complaints_congr (h : s'.requestOf = s.requestOf) : s'.complaints = s.complaints := by
  funext l
  simp only [complaints, h]

theorem complaints_fatal {l : List (MessageId × Reply)} {x : ErrorEvent}
    (h : x ∈ s.complaints l) : x.fatal = false := by
  obtain ⟨y, -, hy⟩ := List.mem_filterMap.mp h
  exact Request.complaint?_fatal hy

end Store

/-! ## The results of the members -/

/-- The results in the slots of members. -/
def memberResults (l : List (Option MessageId × Reply)) : List (MessageId × Reply) :=
  l.filterMap fun x => x.1.map fun id => (id, x.2)

@[simp] theorem memberResults_some (id : MessageId) (r : Reply)
    (l : List (Option MessageId × Reply)) :
    memberResults ((some id, r) :: l) = (id, r) :: memberResults l := rfl

namespace Connection

variable {c c' c₁ : Connection} {b : Block} {rs : List Reply}

/-- All that the reply to a message does. -/
theorem answer_spec (c : Connection) (id : MessageId) (r : Reply) :
    ∃ n, c.answer id r
      = ((c.store.requestOf id).failure? r,
        { c with
          store := c.store.answer id r
          counters := n
          events := c.events.publishAll ((c.store.requestOf id).complaint? r).toList }) := by
  unfold answer Store.answer Request.failure? Request.complaint?
  dsimp only
  cases (c.store.requestOf id).judge r with
  | error t =>
      cases (c.store.requestOf id).critical with
      | true => exact ⟨_, rfl⟩
      | false => exact ⟨_, rfl⟩
  | _ => exact ⟨_, rfl⟩

/-- All that the results in the slots of a block do. -/
theorem answerSlots_spec (c : Connection) (l : List (Option MessageId × Reply)) :
    ∃ n, c.answerSlots l
      = ((c.store.failures (memberResults l)).head?,
        { c with
          store := c.store.answerSlots l
          counters := n
          events := c.events.publishAll (c.store.complaints (memberResults l)) }) := by
  induction l generalizing c with
  | nil => exact ⟨_, rfl⟩
  | cons x l ih =>
      obtain ⟨slot, r⟩ := x
      cases slot with
      | none => exact ih c
      | some id =>
          have hrequest := c.store.answer_requestOf id r
          obtain ⟨n, heq⟩ := c.answer_spec id r
          obtain ⟨n', heq'⟩ := ih (c.answer id r).2
          refine ⟨n', ?_⟩
          rw [heq] at heq'
          dsimp only at heq'
          rw [Store.failures_congr hrequest, Store.complaints_congr hrequest] at heq'
          simp only [answerSlots, heq, heq', memberResults_some, Store.failures_cons,
            Store.complaints_cons, EventLog.publishAll_append, Store.answerSlots,
            List.head?_append, Option.head?_toList]

/-- Replies are given to messages, one after the other, each like a reply that comes by itself.
What is left of them are the failures of messages that must succeed. -/
inductive Serves : Connection → List (MessageId × Reply) → List Error → Connection → Prop where
  | done (c : Connection) : Serves c [] [] c
  | next {c c₁ c' : Connection} {id : MessageId} {r : Reply} {l : List (MessageId × Reply)}
      {failure : Option Error} {failures : List Error}
      (h : c.answerInFlight (.message id) r = (failure, c₁)) (hrest : Serves c₁ l failures c') :
      Serves c ((id, r) :: l) (failure.toList ++ failures) c'

theorem serves_answerSlots (c : Connection) (l : List (Option MessageId × Reply)) :
    Serves c (memberResults l) (c.store.failures (memberResults l)) (c.answerSlots l).2 := by
  induction l generalizing c with
  | nil => exact .done c
  | cons x l ih =>
      obtain ⟨slot, r⟩ := x
      cases slot with
      | none => exact ih c
      | some id =>
          obtain ⟨n, heq⟩ := c.answer_spec id r
          have hrest := ih (c.answer id r).2
          have hstore : (c.answer id r).2.store.requestOf = c.store.requestOf := by
            rw [heq]
            exact c.store.answer_requestOf id r
          rw [Store.failures_congr hstore] at hrest
          rw [memberResults_some, Store.failures_cons]
          have hanswer : c.answerInFlight (.message id) r
              = ((c.store.requestOf id).failure? r, (c.answer id r).2) := by
            show c.answer id r = _
            rw [heq]
          exact .next hanswer hrest

/-- The connection when the completer of a batch, if there is one, has been told of its success. -/
def succeed (c : Connection) : Option Completer → Connection
  | none => c
  | some k => { c with store := c.store.deliver k (k.shape.extract (.status Literal.ok.bytes)) }

/-- The connection after the failures of messages that must succeed, of which the first counts. -/
def failWith (c : Connection) : List Error → Connection
  | [] => c
  | e :: _ => c.shutdown "a critical command failed" (some e)

end Connection

/-! ## Blocks -/

/-- The members of a block, each with its result. -/
def Block.pairs (b : Block) (rs : List Reply) : List (MessageId × Reply) :=
  memberResults (b.slots.zip rs)

/-- The members of a block are commands of callers, and every completer is in one place only. -/
structure Block.Fits (b : Block) (s : Store) : Prop where
  wellFormed : s.WellFormed
  single : ∀ j ∈ b.members, s.IsSingle j
  alone : ∀ (j j' : MessageId) (k : CompletionId) (sh sh' : Shape), s.sink j = .assigned ⟨k, sh⟩ →
    s.sink j' = .assigned ⟨k, sh'⟩ → j' = j
  apart : ∀ j ∈ b.members, ∀ (k : CompletionId) (sh sh' : Shape), b.done = some ⟨k, sh⟩ →
    s.sink j ≠ .assigned ⟨k, sh'⟩

/-- Without a second slot for any member, the slot of a member is its first. -/
theorem Block.first_of_nodup {b : Block} (h : b.members.Nodup) {i : Nat} {j : MessageId}
    (hi : b.slots[i]? = some (some j)) : ∀ i' < i, b.slots[i']? ≠ some (some j) := by
  intro i' hlt hi'
  obtain ⟨hbound, hget⟩ := List.getElem?_eq_some_iff.mp hi
  obtain ⟨hbound', hget'⟩ := List.getElem?_eq_some_iff.mp hi'
  have hpair := List.pairwise_iff_getElem.mp (List.pairwise_filterMap.mp h) i' i hbound' hbound hlt
  exact hpair j hget' j hget rfl

/-- On the connection `c`, the results `rs` are given out to the block `b`. -/
structure Connection.Unpacks (c : Connection) (b : Block) (rs : List Reply) (c' : Connection) :
    Prop where
  /-- all members are served, in order; meanwhile the connection is not torn down, whatever fails;
  then the batch has its success, and then the failures have their consequence -/
  order : ∃ c₁, c.Serves (b.pairs rs) (c.store.failures (b.pairs rs)) c₁
    ∧ (c₁.isShutDown = c.isShutDown ∧ c₁.state = c.state ∧ c₁.aborting = c.aborting
      ∧ c₁.ledger = c.ledger ∧ c₁.queue = c.queue)
    ∧ c' = (c₁.succeed b.done).failWith (c.store.failures (b.pairs rs))
  /-- so who waits for a member has the result at its index; in a second slot there is nothing left
  to answer -/
  member : ∀ (i : Nat) j r m, b.slots[i]? = some (some j) → rs[i]? = some r →
    (∀ i' < i, b.slots[i']? ≠ some (some j)) → c.store.messages[j]? = some m →
    ∀ (k : CompletionId) sh d, m.sink = .assigned ⟨k, sh⟩ → c.store.completions[k]? = some d →
      c'.store.completions[k]? = some (d.deliver (m.outcome c.store.now r sh))
  /-- and who waits for the batch has its success, even if a failure ends the connection -/
  batch : ∀ (k : CompletionId) sh d, b.done = some ⟨k, sh⟩ → c.store.completions[k]? = some d →
    c'.store.completions[k]? = some (d.deliver (sh.extract (.status Literal.ok.bytes)))
  /-- without a failure of a member that must succeed the connection goes on as it was -/
  survives : c.store.failures (b.pairs rs) = [] →
    c'.isShutDown = c.isShutDown ∧ c'.state = c.state
      ∧ c'.events = c.events.publishAll (c.store.complaints (b.pairs rs))
  /-- with one it is torn down once, and what the listener is told is the first one -/
  ends : ∀ e more, c.store.failures (b.pairs rs) = e :: more →
    c'.isShutDown = true ∧ (c.isShutDown = false → c'.state = .closed
      ∧ c'.events = (c.events.publishAll (c.store.complaints (b.pairs rs))).publish
          ⟨e, "a critical command failed", true⟩)

/-! ## Giving results out -/

namespace Store

variable {s : Store} {k : CompletionId} {d : Completion}

theorem answerSlots_append (s : Store) (l l' : List (Option MessageId × Reply)) :
    s.answerSlots (l ++ l') = (s.answerSlots l).answerSlots l' := by
  induction l generalizing s with
  | nil => rfl
  | cons x l ih =>
      obtain ⟨slot, r⟩ := x
      cases slot with
      | none => exact ih s
      | some id => exact ih (s.answer id r)

/-- A message has the result in its first slot. -/
theorem answerSlots_first (wf : s.WellFormed) {before after : List (Option MessageId × Reply)}
    {j : MessageId} {r : Reply} {m : Message} {sh : Shape}
    (hl : ∀ i ∈ ((before ++ (some j, r) :: after).map Prod.fst).filterMap id, s.IsSingle i)
    (hfirst : some j ∉ before.map Prod.fst) (hm : s.messages[j]? = some m)
    (hsink : m.sink = .assigned ⟨k, sh⟩)
    (halone : ∀ i sh', s.sink i = .assigned ⟨k, sh'⟩ → i = j)
    (hk : s.completions[k]? = some d) :
    (s.answerSlots (before ++ (some j, r) :: after)).completions[k]?
      = some (d.deliver (m.outcome s.now r sh)) := by
  rw [List.map_append, List.filterMap_append] at hl
  have hbefore := answerSlots_resolves wf before fun i hi => hl i (List.mem_append_left _ hi)
  have hnot : j ∉ (before.map Prod.fst).filterMap id := by
    intro hmem
    obtain ⟨slot, hslot, rfl⟩ := List.mem_filterMap.mp hmem
    exact hfirst hslot
  have hm₁ : (s.answerSlots before).messages[j]? = some m := (hbefore.messages j hnot).trans hm
  have hk₁ : (s.answerSlots before).completions[k]? = some d := by
    refine hbefore.apart hk (fun i hi sh' hs => ?_) List.not_mem_nil
    exact hnot (halone i sh' hs ▸ hi)
  have hj : s.IsSingle j := hl j (List.mem_append_right _ List.mem_cons_self)
  have hj₁ : (s.answerSlots before).IsSingle j := (IsSingle.congr (hbefore.draft? j)).mpr hj
  have hgiven := answer_member (r := r) hj₁ hm₁ hsink hk₁
  rw [hbefore.now] at hgiven
  -- what comes later finds the completion answered
  have hown := answer_resolves (hbefore.wellFormed wf) hj₁.not_isBatch r
  have hafter := answerSlots_resolves (hown.wellFormed (hbefore.wellFormed wf)) after
    fun i hi => (IsSingle.congr ((hown.draft? i).trans (hbefore.draft? i))).mpr
      (hl i (List.mem_append_right _ (List.mem_cons_of_mem j hi)))
  rw [answerSlots_append]
  exact hafter.completion_of_not_waits hgiven (Completion.not_waits_deliver d _)

/-- In a block it is the result at the index of the slot. -/
theorem answerBlock_first {b : Block} {rs : List Reply} (hfits : b.Fits s)
    (hlen : rs.length = b.slots.length) {i : Nat} {j : MessageId} {r : Reply} {m : Message}
    {sh : Shape} (hi : b.slots[i]? = some (some j)) (hr : rs[i]? = some r)
    (hfirst : ∀ i' < i, b.slots[i']? ≠ some (some j)) (hm : s.messages[j]? = some m)
    (hsink : m.sink = .assigned ⟨k, sh⟩) (hk : s.completions[k]? = some d) :
    (s.answerBlock b rs).completions[k]? = some (d.deliver (m.outcome s.now r sh)) := by
  have hzip : (b.slots.zip rs)[i]? = some (some j, r) := List.getElem?_zip_eq_some.mpr ⟨hi, hr⟩
  obtain ⟨hlt, hget⟩ := List.getElem?_eq_some_iff.mp hzip
  have hsplit : b.slots.zip rs
      = (b.slots.zip rs).take i ++ (some j, r) :: (b.slots.zip rs).drop (i + 1) := by
    rw [← hget, List.getElem_cons_drop, List.take_append_drop]
  have hbefore : some j ∉ ((b.slots.zip rs).take i).map Prod.fst := by
    rw [List.map_take, List.map_fst_zip (Nat.le_of_eq hlen.symm)]
    intro hmem
    obtain ⟨i', hi'⟩ := List.getElem?_of_mem hmem
    rw [List.getElem?_take] at hi'
    split at hi'
    · next hlt => exact hfirst i' hlt hi'
    · cases hi'
  have hsink' : s.sink j = .assigned ⟨k, sh⟩ := (sink_of_get hm).trans hsink
  have hslots : (s.answerSlots (b.slots.zip rs)).completions[k]?
      = some (d.deliver (m.outcome s.now r sh)) := by
    have hsingle : ∀ i ∈ ((b.slots.zip rs).map Prod.fst).filterMap id, s.IsSingle i := by
      rw [zip_members hlen]
      exact hfits.single
    rw [hsplit] at hsingle ⊢
    exact answerSlots_first hfits.wellFormed hsingle hbefore hm hsink
      (fun i sh' hs => hfits.alone j i k sh sh' hsink' hs) hk
  have hj : j ∈ b.members := List.mem_filterMap.mpr ⟨some j, List.mem_of_getElem? hi, rfl⟩
  unfold answerBlock
  cases hd : b.done with
  | none => exact hslots
  | some done =>
      -- the completer of the batch is another one
      have hne : done.completion ≠ k := by
        rintro rfl
        exact hfits.apart j hj _ done.shape sh hd hsink'
      dsimp only
      rw [deliver_completion, if_neg hne]
      exact hslots

/-- The completer of the batch gives its success. -/
theorem answerBlock_success {b : Block} {rs : List Reply} (hfits : b.Fits s)
    (hlen : rs.length = b.slots.length) {sh : Shape} (hd : b.done = some ⟨k, sh⟩)
    (hk : s.completions[k]? = some d) :
    (s.answerBlock b rs).completions[k]?
      = some (d.deliver (sh.extract (.status Literal.ok.bytes))) := by
  have hslots := answerSlots_resolves hfits.wellFormed (b.slots.zip rs)
    (by rw [zip_members hlen]; exact hfits.single)
  rw [zip_members hlen] at hslots
  have hkept := hslots.apart hk (fun j hj sh' => hfits.apart j hj k sh sh' hd) List.not_mem_nil
  unfold answerBlock
  rw [hd]
  dsimp only
  rw [deliver_completion, if_pos rfl, hkept]
  rfl

end Store

namespace Connection

variable {c : Connection} {b : Block} {rs : List Reply}

theorem answerBlock_unpacked (c : Connection) (hlen : rs.length = b.slots.length) :
    c.answerBlock b (.multi rs)
      = ((c.answerSlots (b.slots.zip rs)).2.succeed b.done).failWith
          (c.store.failures (b.pairs rs)) := by
  have hres : b.results? (.multi rs) = .ok rs := if_pos hlen
  obtain ⟨n, hspec⟩ := c.answerSlots_spec (b.slots.zip rs)
  have hhead : (c.answerSlots (b.slots.zip rs)).1 = (c.store.failures (b.pairs rs)).head? :=
    congrArg Prod.fst hspec
  unfold answerBlock
  rw [hres]
  dsimp only
  rw [hhead]
  cases c.store.failures (b.pairs rs) with
  | nil =>
      cases b.done with
      | none => rfl
      | some k => rfl
  | cons e more =>
      cases b.done with
      | none => rfl
      | some k => rfl

theorem succeed_store (c : Connection) (b : Block) (rs : List Reply) :
    ((c.answerSlots (b.slots.zip rs)).2.succeed b.done).store = c.store.answerBlock b rs := by
  obtain ⟨n, hspec⟩ := c.answerSlots_spec (b.slots.zip rs)
  rw [hspec]
  unfold succeed Store.answerBlock
  cases b.done with
  | none => rfl
  | some k => rfl

/-- Nothing changes for those who do not wait, also when the connection is torn down. -/
theorem failWith_settled (wf : c.store.WellFormed) {k : CompletionId} {d : Completion}
    (h : c.store.completions[k]? = some d) (hw : ¬ d.Waits) (es : List Error) :
    (c.failWith es).store.completions[k]? = some d := by
  cases es with
  | nil => exact h
  | cons e more =>
      obtain ⟨ids, own, hresolves⟩ :=
        shutdown_resolves wf "a critical command failed" (some e)
      exact hresolves.completion_of_not_waits h hw

/-- What becomes of a completion when the array has been given out is final, whatever fails. -/
theorem answerBlock_settled (hfits : b.Fits c.store) (hlen : rs.length = b.slots.length)
    {k : CompletionId} {d : Completion}
    (h : (c.store.answerBlock b rs).completions[k]? = some d) (hw : ¬ d.Waits) :
    (c.answerBlock b (.multi rs)).store.completions[k]? = some d := by
  rw [answerBlock_unpacked c hlen]
  refine failWith_settled ?_ ?_ hw _
  · rw [succeed_store]
    exact (Store.answerBlock_resolves hfits.wellFormed hlen hfits.single).wellFormed
      hfits.wellFormed
  · rw [succeed_store]
    exact h

/-- An array of the right length is given out. -/
theorem unpacks (hfits : b.Fits c.store) (hlen : rs.length = b.slots.length) :
    c.Unpacks b rs (c.answerBlock b (.multi rs)) := by
  obtain ⟨n, hspec⟩ := c.answerSlots_spec (b.slots.zip rs)
  -- the connection before the failures have their consequence
  obtain ⟨w, hw⟩ : ∃ w, w = (c.answerSlots (b.slots.zip rs)).2.succeed b.done := ⟨_, rfl⟩
  have hstays : w.isShutDown = c.isShutDown ∧ w.state = c.state
      ∧ w.events = c.events.publishAll (c.store.complaints (b.pairs rs)) := by
    rw [hw, hspec]
    cases b.done with
    | none => exact ⟨rfl, rfl, rfl⟩
    | some k => exact ⟨rfl, rfl, rfl⟩
  obtain ⟨hdown, hstate, hevents⟩ := hstays
  have heq := answerBlock_unpacked c hlen
  rw [← hw] at heq
  constructor
  · refine ⟨_, c.serves_answerSlots _, ?_, answerBlock_unpacked c hlen⟩
    rw [hspec]
    exact ⟨rfl, rfl, rfl, rfl, rfl⟩
  · intro i j r m hi hr hfirst hm k sh d hsink hk
    exact answerBlock_settled hfits hlen
      (Store.answerBlock_first hfits hlen hi hr hfirst hm hsink hk) (d.not_waits_deliver _)
  · intro k sh d hd hk
    exact answerBlock_settled hfits hlen (Store.answerBlock_success hfits hlen hd hk)
      (d.not_waits_deliver _)
  · intro hnone
    rw [heq, hnone]
    exact ⟨hdown, hstate, hevents⟩
  · intro e more hsome
    rw [heq, hsome]
    refine ⟨shutdown_down _ _ _, fun hopen => ?_⟩
    have hopen' := hdown.trans hopen
    refine ⟨shutdown_state hopen' _ _, ?_⟩
    rw [← hevents]
    exact shutdown_events hopen' _ e

/-- In every state that a run can reach, the blocks in flight fit. -/
theorem Sound.fits {owned accepted : List MessageId} (hs : c.Sound owned accepted)
    (hb : .exec b ∈ c.ledger.entries) : b.Fits c.store where
  wellFormed := hs.custody.wellFormed
  single j hj := hs.custody.kinds.owned_single j (hs.custody.kinds.block_owned b hb j hj)
  alone j j' k sh sh' h h' := by
    -- the completion knows its message
    obtain ⟨⟨d, hd, ht⟩, -⟩ := hs.custody.completers.target j _ h
    exact hs.custody.target_of_sink hd ht h'
  apart j hj k sh sh' hdone h := by
    obtain ⟨-, d, id, ms, hd, ht, hbatch, -⟩ := hs.custody.completers.done b hb _ hdone
    obtain rfl := hs.custody.target_of_sink hd ht h
    exact (hs.custody.kinds.owned_single j
      (hs.custody.kinds.block_owned b hb j hj)).not_isBatch ms hbatch

end Connection

end RespMux
