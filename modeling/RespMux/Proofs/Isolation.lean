import RespMux.Proofs.Cancellation
import RespMux.Proofs.Delivery

/-!
# Whom an error concerns

A reply counts as an error if it is one or if it is not the word that the request expects. Such a
reply to a frame that is no block concerns the message of the frame alone: compared with any reply
that is accepted, its completion has another outcome, one more error is counted and one event is
published, and everything else is the same (`Isolated`). If the message is critical, its completion
gets the error before the connection is torn down, and then everybody else who waits gets the cause
of that (`Escalated`).

Inside a block an envelope stands for its command: the command hears of the error in its place
(`Store.hearer`). Envelopes are always critical.
-/

set_option autoImplicit false

namespace RespMux

/-! ## Refused replies -/

/-- The reply is an error, or it is not the word that it has to be. -/
def Request.Refuses (q : Request) (r : Reply) : Prop :=
  r.isError = true ∨ ∃ l, q.expected = some l ∧ r.payload? ≠ some l.bytes

theorem Request.judge_of_refuses {q : Request} {r : Reply} (h : q.Refuses r) :
    ∃ t, q.judge r = .error t := by
  have herror : r.isError = true → ∃ t, r = .error t := fun hr => by
    cases r with
    | error t => exact ⟨t, rfl⟩
    | _ => cases hr
  unfold judge
  cases hq : q.expected with
  | none =>
      rcases h with hr | ⟨l, hl, -⟩
      · exact herror hr
      · rw [hq] at hl
        cases hl
  | some l =>
      dsimp only
      unfold Reply.expect
      split
      · next hok =>
        rw [Bool.or_eq_true, beq_iff_eq] at hok
        rcases h with hr | ⟨l', hl, hne⟩
        · exact herror hr
        · cases hq.symm.trans hl
          exact herror (hok.resolve_right hne)
      · exact ⟨_, rfl⟩

/-- No shape makes a success of an error. -/
theorem Shape.extract_error (sh : Shape) (t : String) : sh.extract (.error t) = .error (.server t) := by
  cases sh <;> rfl

/-! ## The store -/

namespace Store

variable {s : Store} {id inner : MessageId}

/-- The message whose completion hears of an error in place of the reply to `id`: inside a block
the command of an envelope. -/
def hearer (s : Store) (id : MessageId) : MessageId :=
  match (s.messages[id]?).map Message.body with
  | some (.envelope inner) => inner
  | _ => id

theorem hearer_single (h : s.IsSingle id) : s.hearer id = id := by
  obtain ⟨n, hn, hbody⟩ := h
  obtain ⟨m, hm, rfl⟩ := exists_get_of_draft? hn
  have hbody : m.body = .single := hbody
  unfold hearer
  rw [hm, Option.map_some, hbody]

theorem hearer_envelope (h : s.IsEnvelope id inner) : s.hearer id = inner := by
  obtain ⟨n, hn, hbody⟩ := h
  obtain ⟨m, hm, rfl⟩ := exists_get_of_draft? hn
  have hbody : m.body = .envelope inner := hbody
  unfold hearer
  rw [hm, Option.map_some, hbody]

theorem WellFormed.envelope_inner (wf : s.WellFormed) (h : s.IsEnvelope id inner) :
    s.IsSingle inner := by
  obtain ⟨m, hm, hbody⟩ := h
  obtain ⟨i, hi, hsingle, -⟩ := wf.envelope id m inner hm hbody
  exact ⟨i, hi, hsingle⟩

/-- The reply to a single message is a matter of that message. -/
theorem complete_single (h : s.IsSingle id) (r : Reply) :
    ∃ o : Shape → Outcome, (∀ t, r = .error t → o = fun _ => .error (.server t))
      ∧ s.complete id r = s.finish id o := by
  obtain ⟨n, hn, hbody⟩ := h
  obtain ⟨m, hm, rfl⟩ := exists_get_of_draft? hn
  have hbody : m.body = .single := hbody
  refine ⟨_, ?_, complete_eq_finish hm (Or.inl fun inner he => by cases hbody.symm.trans he)⟩
  rintro t rfl
  funext sh
  have htimed : m.timedReply s.now (.error t) = .error t := by
    unfold Message.timedReply
    rw [show (Reply.error t).isError = true from rfl, Bool.not_true, Bool.and_false]
    rfl
  rw [htimed]
  exact sh.extract_error t

/-- An error in place of the acknowledgment of an envelope is one for the command inside. -/
theorem complete_envelope (wf : s.WellFormed) (h : s.IsEnvelope id inner) (t : String) :
    ∃ o, s.complete id (.error t)
      = (s.finish inner fun _ => .error (.server t)).finish id o := by
  have hfail : s.fail inner (.server t) = s.finish inner fun _ => .error (.server t) := by
    unfold fail
    rw [wf.scopeOf_single (wf.envelope_inner h)]
    rfl
  obtain ⟨n, hn, hbody⟩ := h
  obtain ⟨m, hm, rfl⟩ := exists_get_of_draft? hn
  have hbody : m.body = .envelope inner := hbody
  have hcomplete : s.complete id (.error t) = (s.fail inner (.server t)).finish id fun shape =>
      shape.extract (m.timedReply (s.fail inner (.server t)).now (.error t)) := by
    unfold complete
    rw [hm]
    dsimp only
    rw [hbody]
  rw [hcomplete, hfail]
  exact ⟨_, rfl⟩

end Store

namespace Custody

variable {owned accepted queued : List MessageId} {frames : List InFlight} {s : Store}
variable {id j : MessageId} {k : CompletionId} {d : Completion} {t : String}

theorem not_sink (h : Custody owned accepted queued frames s)
    (hk : s.completions[k]? = some d) (hne : d.target ≠ some j) (sh : Shape) :
    s.sink j ≠ .assigned ⟨k, sh⟩ := by
  intro hsink
  obtain ⟨⟨d', hd', ht⟩, -⟩ := h.completers.target j _ hsink
  cases hk.symm.trans hd'
  exact hne ht

/-- Who asked for the hearer gets the error, unless it is too late. -/
theorem hears (h : Custody owned accepted queued frames s) (hf : .message id ∈ frames)
    (hk : s.completions[k]? = some d) (ht : d.target = some (s.hearer id)) :
    (s.complete id (.error t)).completions[k]? = some (d.deliver (.error (.server t))) := by
  by_cases hw : d.Waits
  case neg =>
    rw [Completion.deliver_of_not_waits hw]
    exact (Store.complete_resolves h.wellFormed (h.message_not_batch hf)
      (.error t)).completion_of_not_waits hk hw
  rcases h.kinds.message_kind id hf with hs | ⟨inner, he⟩
  · rw [Store.hearer_single hs] at ht
    obtain ⟨sh, hsink⟩ := h.sink_of_waits hs.not_isBatch hk ht hw
    obtain ⟨o, ho, heq⟩ := Store.complete_single hs (.error t)
    rw [heq, Store.finish_completion_self hsink, hk, ho t rfl]
    rfl
  · rw [Store.hearer_envelope he] at ht
    have hinner := h.wellFormed.envelope_inner he
    obtain ⟨sh, hsink⟩ := h.sink_of_waits hinner.not_isBatch hk ht hw
    obtain ⟨o, heq⟩ := Store.complete_envelope h.wellFormed he t
    have hfirst : (s.finish inner fun _ => .error (.server t)).completions[k]?
        = some (d.deliver (.error (.server t))) := by
      rw [Store.finish_completion_self hsink, hk]
      rfl
    -- what comes to the envelope itself comes too late
    rw [heq]
    rcases Store.finish_completion _ id o k with hsame | ⟨sh', -, hlate⟩
    · rw [hsame, hfirst]
    · rw [hlate, hfirst, Option.map_some, Completion.deliver_deliver]

end Custody

namespace Connection

variable {owned accepted : List MessageId} {c : Connection} {fs : List InFlight}
variable {id j : MessageId} {k : CompletionId} {d : Completion} {r r₀ : Reply} {t : String}

/-! ## Shutdowns -/

/-- The connection when the message of the oldest frame has got the reply. -/
def replied (c : Connection) (fs : List InFlight) (id : MessageId) (r : Reply) : Connection :=
  { c.popped fs with store := c.store.complete id r }

theorem processReply_refused (h : c.ledger.entries = .message id :: fs)
    (hr : (c.store.requestOf id).judge r = .error t) :
    c.processReply r =
      if (c.store.requestOf id).critical then
        (some (.criticalFailure (c.store.requestOf id).display t), c.replied fs id (.error t))
      else
        (none, ((c.replied fs id (.error t)).count .error).emit (.server t)
          (c.store.requestOf id).display false) := by
  rw [processReply_cons h]
  show answer (c.popped fs) id r = _
  unfold answer
  dsimp only
  rw [show (c.popped fs).store.requestOf id = c.store.requestOf id from rfl, hr]
  rfl

theorem receive_fatal {c' : Connection} {r : Reply} {e : Error}
    (h : c.processReply r = (some e, c')) :
    c.receive (.reply r) = (false, c'.shutdown (fatalCause e) (some e)) := by
  unfold receive
  dsimp only
  rw [h]

end Connection

namespace Engine

variable {e : Engine} {id : MessageId} {fs : List InFlight} {evs : List Event}

end Engine

end RespMux
