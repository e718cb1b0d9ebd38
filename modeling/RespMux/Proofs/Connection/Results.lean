import RespMux.Proofs.Connection.Replies

/-!
# What an answer reaches

Which outcome a completion gets is decided by the message that has its completer. Only that message
matters: an answer to any other leaves the completion alone (`Resolves.apart`). A single message
that is answered gives its completion what its request makes of the reply (`answer_member`).

An answer that does not tear the connection down does nothing else (`processReply_resolves`).
-/

set_option autoImplicit false

namespace RespMux

/-- The outcome of a message that gets the reply `r` at the time `now`, in the given shape. -/
def Message.outcome (m : Message) (now : Duration) (r : Reply) (shape : Shape) : Outcome :=
  shape.extract (m.timedReply now (m.request.judge r))

namespace Store

variable {s s' : Store} {k : CompletionId} {c : Completion}

/-- A completion stays as it is when its completer is not with those that get outcomes. -/
theorem Resolves.apart {P : Outcome → Prop} {ids : List MessageId} {own : List CompletionId}
    (h : Resolves P ids own s s') (hk : s.completions[k]? = some c)
    (hids : ∀ j ∈ ids, ∀ sh, s.sink j ≠ .assigned ⟨k, sh⟩) (hown : k ∉ own) :
    s'.completions[k]? = some c := by
  rcases h.completion k c hk with hsame | ⟨-, ⟨j, hj, sh, hsink⟩ | hmem⟩
  · exact hsame
  · exact absurd hsink (hids j hj sh)
  · exact absurd hmem hown

/-! ## What an answer reaches -/

/-- The messages that a reply to a frame reaches: the acknowledgment of an envelope is a matter of
the envelope, and leaves the message inside alone. -/
def touched (s : Store) (f : InFlight) (r : Reply) : List MessageId :=
  match f with
  | .message id => if ((s.requestOf id).judge r).isError then s.scopeOf id else [id]
  | .exec b => b.members.flatMap s.scopeOf

theorem touched_congr (h : ∀ id, s'.draft? id = s.draft? id) (f : InFlight) (r : Reply) :
    s'.touched f r = s.touched f r := by
  have hscope : s'.scopeOf = s.scopeOf := funext fun id => scopeOf_congr (h id)
  have hrequest : s'.requestOf = s.requestOf := funext fun id => requestOf_congr (h id)
  unfold touched
  rw [hscope, hrequest]

theorem touched_of_ack {id : MessageId} {r : Reply}
    (h : ((s.requestOf id).judge r).isError = false) :
    s.touched (.message id) r = [id] := by
  unfold touched
  dsimp only
  rw [if_neg (by rw [h]; decide)]

theorem requestOf_of_get {id : MessageId} {m : Message} (h : s.messages[id]? = some m) :
    s.requestOf id = m.request := by
  unfold requestOf
  rw [h]

/-- The reply to a message that is no envelope is a matter of this message alone. -/
theorem answer_eq_finish {id : MessageId} {m : Message} {r : Reply}
    (hm : s.messages[id]? = some m)
    (h : (∀ inner, m.body ≠ .envelope inner) ∨ ∀ t, m.request.judge r ≠ .error t) :
    s.answer id r = s.finish id (m.outcome s.now r) := by
  unfold answer
  rw [requestOf_of_get hm]
  exact complete_eq_finish hm h

/-- An answer to a message that is no batch gives outcomes only to what it reaches. -/
theorem answer_touches (wf : s.WellFormed) {id : MessageId} (hb : ∀ ms, ¬ s.IsBatch id ms)
    (r : Reply) :
    Resolves (fun _ => True) (s.touched (.message id) r) [] s (s.answer id r) := by
  cases herror : ((s.requestOf id).judge r).isError with
  | true =>
      have hall : s.touched (.message id) r = s.scopeOf id := if_pos herror
      rw [hall]
      exact answer_resolves wf hb r
  | false =>
      rw [touched_of_ack herror]
      cases hm : s.messages[id]? with
      | none =>
          have hnone : s.answer id r = s := by
            unfold answer complete
            rw [hm]
          rw [hnone]
          exact (Resolves.refl _ s).mono (fun _ h => h) (fun _ h => by cases h) fun _ h => h
      | some m =>
          rw [requestOf_of_get hm] at herror
          rw [answer_eq_finish hm (Or.inr fun t ht => by rw [ht] at herror; cases herror)]
          exact finish_resolves (fun _ => trivial) fun ms h => absurd h (hb ms)

/-- A single message gives its completion what its request makes of the reply. -/
theorem answer_member {j : MessageId} {m : Message} {r : Reply} {sh : Shape}
    (hj : s.IsSingle j) (hm : s.messages[j]? = some m) (hsink : m.sink = .assigned ⟨k, sh⟩)
    (hk : s.completions[k]? = some c) :
    (s.answer j r).completions[k]?
      = some (c.deliver (m.outcome s.now r sh)) := by
  have hbody : ∀ inner, m.body ≠ .envelope inner := fun inner hb =>
    hj.not_isEnvelope inner ⟨m.draft, draft?_of_get hm, hb⟩
  rw [answer_eq_finish hm (Or.inl hbody),
    finish_completion_self ((sink_of_get hm).trans hsink), hk]
  rfl

end Store

/-! ## Answers that leave the connection alive -/

namespace Connection

variable {owned accepted : List MessageId} {c : Connection} {fs : List InFlight} {r : Reply}

/-- A reply that counts as no error completes the message and does nothing else. -/
theorem answer_of_ack {id : MessageId} (h : ((c.store.requestOf id).judge r).isError = false) :
    c.answer id r = (none, { c with store := c.store.answer id r }) := by
  unfold answer Store.answer
  dsimp only
  cases hr : (c.store.requestOf id).judge r with
  | error t =>
      rw [hr] at h
      cases h
  | _ => rfl

/-- The answer to a message completes it. -/
theorem processReply_message {id : MessageId} (h : c.ledger.entries = .message id :: fs) :
    (c.processReply r).2.store = c.store.answer id r := by
  obtain ⟨n, events, heq⟩ := (c.popped fs).answer_eq id r
  rw [processReply_cons h]
  show ((c.popped fs).answer id r).2.store = _
  rw [heq]
  rfl

/-- An answer to a block is given to the block, and an error is made known besides. -/
theorem processReply_exec {b : Block} (h : c.ledger.entries = .exec b :: fs) :
    ∃ n events, (c.processReply r).2
      = { (c.popped fs).answerBlock b r with counters := n, events := events } := by
  rw [processReply_cons h]
  unfold answerInFlight
  dsimp only
  split
  · exact ⟨_, _, rfl⟩
  · exact ⟨_, _, rfl⟩

/-- An array is a matter of the block alone. -/
theorem processReply_array {b : Block} (h : c.ledger.entries = .exec b :: fs) (rs : List Reply) :
    c.processReply (.multi rs) = (none, (c.popped fs).answerBlock b (.multi rs)) := by
  rw [processReply_cons h]
  rfl

/-- An array of the right length is given out, slot by slot. -/
theorem processReply_results {b : Block} {rs : List Reply}
    (h : c.ledger.entries = .exec b :: fs) (hlen : rs.length = b.slots.length)
    (hopen : (c.processReply (.multi rs)).2.isShutDown = false) :
    (c.processReply (.multi rs)).2.store = c.store.answerBlock b rs := by
  have hres : b.results? (.multi rs) = .ok rs := if_pos hlen
  obtain ⟨n, events, heq⟩ := (c.popped fs).answerBlock_eq hres
  rw [processReply_array h] at hopen ⊢
  dsimp only at hopen ⊢
  rw [heq] at hopen ⊢
  split at hopen
  · rw [shutdown_down] at hopen
    cases hopen
  · rfl

/-- Any other answer fails the block. -/
theorem processReply_failure {b : Block} {e : Error} (h : c.ledger.entries = .exec b :: fs)
    (hres : b.results? r = .error e) :
    (c.processReply r).2.store = c.store.failBlock b e := by
  obtain ⟨n, events, heq⟩ := processReply_exec (r := r) h
  rw [heq]
  unfold answerBlock
  rw [hres]
  rfl

/-- An answer gives outcomes only to what it reaches. -/
theorem processReply_resolves (hs : c.Sound owned accepted) {f : InFlight}
    (h : c.ledger.entries = f :: fs) (hopen : (c.processReply r).2.isShutDown = false) :
    c.store.Resolves (fun _ => True) (c.store.touched f r) f.own (c.processReply r).2.store := by
  have hc := hs.custody
  rw [h] at hc
  cases f with
  | message id =>
      have hbatch : ∀ ms, ¬ c.store.IsBatch id ms := hc.message_not_batch List.mem_cons_self
      rw [processReply_message h]
      exact Store.answer_touches hc.wellFormed hbatch r
  | exec b =>
      have hblock := hc.kinds.block_owned b List.mem_cons_self
      cases hres : b.results? r with
      | error e =>
          rw [processReply_failure h hres]
          exact (Store.failBlock_resolves hc.wellFormed b e).mono (fun _ _ => trivial)
            (fun _ hj => hj) fun _ hk => hk
      | ok rs =>
          obtain ⟨rfl, hlen⟩ := results?_ok hres
          rw [processReply_results h hlen hopen]
          refine (Store.answerBlock_resolves hc.wellFormed hlen fun j hj =>
            hc.kinds.owned_single j (hblock j hj)).mono (fun _ h => h) (fun j hj => ?_) fun _ h => h
          show j ∈ c.store.reach (.exec b)
          rw [hc.reach_block hblock]
          exact hj

end Connection

end RespMux
