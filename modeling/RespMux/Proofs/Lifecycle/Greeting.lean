import RespMux.Proofs.Handshake
import RespMux.Proofs.Isolation
import RespMux.Proofs.Lifecycle.Reserved

/-!
# What the server has said to the handshake

A completion has a success to hand out only if its message has been answered, and not with an error
(`Engine.Turn.succeeded`). So if the ping of the handshake succeeds, the server has answered it with
the word that it expects. If there is a password, the ping has been written behind it, so the
password has been answered before. It is critical: had the server refused it, the incoming pump
would have come to its end, and the ping would not have been answered at all
(`Engine.Basis.greeted`).
-/

set_option autoImplicit false

namespace RespMux

/-! ## Successes -/

namespace Completion

variable {c : Completion}

/-- A success has come, and has not been handed out. -/
def Succeeded (c : Completion) : Prop :=
  ∃ v, c.stage = .delivered (.ok v) ∨ c.stage = .fetched (.ok v)

theorem succeeded_of_poll {v : Value} (h : c.poll.1 = some (.ok v)) : c.Succeeded := by
  obtain ⟨stage, waker, isOpen, target⟩ := c
  cases stage with
  | waiting => cases h
  | delivered o =>
      cases h
      exact ⟨v, Or.inl rfl⟩
  | abandoned => cases h
  | fetched o =>
      cases h
      exact ⟨v, Or.inr rfl⟩
  | spent => cases h

/-- A success that is there after a delivery was there before, or has been delivered. -/
theorem Succeeded.of_deliver {o : Outcome} (h : (c.deliver o).Succeeded) :
    c.Succeeded ∨ ∃ v, o = .ok v := by
  by_cases hw : c.Waits
  · obtain ⟨v, hdelivered | hfetched⟩ := h
    · rw [deliver_stage hw] at hdelivered
      cases hdelivered
      exact Or.inr ⟨v, rfl⟩
    · rw [deliver_stage hw] at hfetched
      cases hfetched
  · rw [deliver_of_not_waits hw] at h
    exact Or.inl h

/-- To look at a completion makes no success. -/
theorem Succeeded.of_look {l : Look} (h : (l.apply c).Succeeded) : c.Succeeded := by
  obtain ⟨stage, waker, isOpen, target⟩ := c
  obtain ⟨v, h⟩ := h
  have hnone : ∀ o : Outcome, o = .ok v → ∀ c : Completion,
      c.stage = .delivered o ∨ c.stage = .fetched o → c.Succeeded := by
    rintro _ rfl c hc
    exact ⟨v, hc⟩
  cases stage with
  | waiting => cases l <;> rcases h with h | h <;> cases h
  | abandoned => cases l <;> rcases h with h | h <;> cases h
  | spent => cases l <;> rcases h with h | h <;> cases h
  | delivered o =>
      refine hnone o ?_ _ (Or.inl rfl)
      cases l <;> rcases h with h | h <;> cases h <;> rfl
  | fetched o =>
      refine hnone o ?_ _ (Or.inr rfl)
      cases l <;> rcases h with h | h <;> cases h <;> rfl

end Completion

namespace Store

variable {s s' : Store} {k : CompletionId} {c : Completion} {id : MessageId}

/-- The completion has a success to hand out. -/
def Succeeded (s : Store) (k : CompletionId) : Prop :=
  ∃ c, s.completions[k]? = some c ∧ c.Succeeded

theorem Succeeded.congr (h : s'.Succeeded k) (hk : s'.completions[k]? = s.completions[k]?) :
    s.Succeeded k := by
  obtain ⟨c, hc, hok⟩ := h
  exact ⟨c, hk.symm.trans hc, hok⟩

/-- Where only failures are given out, nobody succeeds. -/
theorem Resolves.succeeded {P : Outcome → Prop} {ids : List MessageId} {own : List CompletionId}
    (r : Resolves P ids own s s') (hP : ∀ v, ¬ P (.ok v)) (h : s'.Succeeded k) :
    s.Succeeded k := by
  obtain ⟨c', hk', hok⟩ := h
  cases hk : s.completions[k]? with
  | none => cases hk'.symm.trans (r.absent k hk)
  | some c =>
      rcases r.completion k c hk with hsame | ⟨⟨o, ho, hgiven⟩, -⟩
      · exact ⟨c', hk.trans (hsame.symm.trans hk'), hok⟩
      · cases hgiven.symm.trans hk'
        rcases hok.of_deliver with hc | ⟨v, rfl⟩
        · exact ⟨c, hk, hc⟩
        · exact absurd ho (hP v)

/-- Who is finished succeeds only with what it gets. -/
theorem Succeeded.of_finish {o : Shape → Outcome} (h : (s.finish id o).Succeeded k)
    (ho : ∀ sh, s.sink id = .assigned ⟨k, sh⟩ → ∀ v, o sh ≠ .ok v) : s.Succeeded k := by
  rcases s.finish_completion id o k with hsame | ⟨sh, hsink, hgiven⟩
  · exact h.congr hsame
  · obtain ⟨c', hk', hok⟩ := h
    rw [hgiven] at hk'
    obtain ⟨c, hk, rfl⟩ := Option.map_eq_some_iff.mp hk'
    rcases hok.of_deliver with hc | ⟨v, hv⟩
    · exact ⟨c, hk, hc⟩
    · exact absurd hv (ho sh hsink v)

end Store

/-- The reply to another message is no success for it, and an error is none either. -/
theorem Custody.complete_succeeded {owned accepted queued : List MessageId}
    {frames : List InFlight} {s : Store} {id p : MessageId} {k : CompletionId} {d : Completion}
    {r : Reply} (h : Custody owned accepted queued frames s) (hf : .message id ∈ frames)
    (hk : s.completions[k]? = some d) (ht : d.target = some p) (hp : s.IsSingle p)
    (hr : id = p → ∃ t, r = .error t) (hok : (s.complete id r).Succeeded k) : s.Succeeded k := by
  have hother : id ≠ p → ∀ sh, s.sink id ≠ .assigned ⟨k, sh⟩ := fun hne =>
    h.not_sink hk fun heq => hne (Option.some.inj (heq.symm.trans ht))
  rcases h.kinds.message_kind id hf with hs | ⟨inner, he⟩
  · obtain ⟨o, ho, heq⟩ := Store.complete_single hs r
    rw [heq] at hok
    refine hok.of_finish fun sh hsink v hv => ?_
    by_cases hid : id = p
    · obtain ⟨t, rfl⟩ := hr hid
      rw [ho t rfl] at hv
      cases hv
    · exact hother hid sh hsink
  · have hid : id ≠ p := by
      rintro rfl
      exact hp.not_isEnvelope inner he
    by_cases herror : ∃ t, r = .error t
    · -- the command inside hears of the error, the envelope has no completion
      obtain ⟨t, rfl⟩ := herror
      obtain ⟨o, heq⟩ := Store.complete_envelope h.wellFormed he t
      have hinner : inner ≠ id := by
        rintro rfl
        exact (h.wellFormed.envelope_inner he).not_isEnvelope inner he
      rw [heq] at hok
      refine (hok.of_finish fun sh hsink => ?_).of_finish fun sh _ v hv => by cases hv
      rw [Store.sink_congr (Store.finish_messages_ne hinner _)] at hsink
      exact absurd hsink (hother hid sh)
    · obtain ⟨n, hn, -⟩ := he
      obtain ⟨m, hm, -⟩ := Store.exists_get_of_draft? hn
      rw [Store.complete_eq_finish hm (Or.inr fun t ht => herror ⟨t, ht⟩)] at hok
      exact hok.of_finish fun sh hsink => absurd hsink (hother hid sh)

namespace Connection

variable {owned accepted gain : List MessageId} {lost : MessageId → Prop}
variable {c c' : Connection} {k : CompletionId} {d : Completion}

/-- No elementary change makes a success. -/
theorem Change.succeeded (h : Change owned lost c gain c') (wf : c.store.WellFormed)
    (hk : c.store.completions[k]? = some d) (hok : c'.store.Succeeded k) : c.store.Succeeded k := by
  cases h with
  | aside hstore =>
      rw [hstore] at hok
      exact hok
  | tick => exact hok
  | look j l =>
      have hget : (c.store.modifyCompletion j l.apply).completions[k]?
          = if j = k then (c.store.completions[k]?).map l.apply else c.store.completions[k]? :=
        Array.getElem?_modify
      obtain ⟨d', hd', hsucceeded⟩ := hok
      rw [show _ = _ from hget, hk] at hd'
      split at hd'
      · cases hd'
        exact ⟨d, hk, hsucceeded.of_look⟩
      · cases hd'
        exact ⟨d, hk, hsucceeded⟩
  | ready o =>
      refine hok.congr ?_
      have hget : (c.store.addCompletion (.ready o)).2.completions[k]?
          = if k = c.store.completions.size then some (.ready o) else c.store.completions[k]? :=
        Array.getElem?_push
      rw [if_neg (Nat.ne_of_lt (Array.getElem?_eq_some_iff.mp hk).1)] at hget
      exact hget
  | attach => exact hok.congr ((Store.attach_completion_of_some hk).trans hk.symm)
  | batch t =>
      have hk' : (c.store.batch (c.collected t).toList).2.completions[k]? = some d := hk
      exact hok.congr ((Store.attach_completion_of_some hk').trans hk.symm)
  | fails error =>
      exact (Store.fail_resolves wf _ error).succeeded (fun v hv => by cases hv) hok
  | shutdown cause error =>
      obtain ⟨ids, own, hr⟩ := shutdown_resolves wf cause error
      exact hr.succeeded (fun v hv => by cases hv) hok

theorem Changes.succeeded (h : Changes owned accepted lost c gain c')
    (hs : c.Sound owned accepted) (hk : c.store.completions[k]? = some d)
    (hok : c'.store.Succeeded k) : c.store.Succeeded k := by
  have hall : c'.Sound owned accepted ∧ (∃ d, c'.store.completions[k]? = some d)
      ∧ (c'.store.Succeeded k → c.store.Succeeded k) := by
    clear hok
    induction h with
    | refl => exact ⟨hs, ⟨d, hk⟩, fun hok => hok⟩
    | step _ hkeeps hchange ih =>
        obtain ⟨hs₁, ⟨d₁, hk₁⟩, hback⟩ := ih
        have wf := hs₁.custody.wellFormed
        obtain ⟨d', hk', -⟩ := hchange.ties wf k d₁ hk₁
        exact ⟨(hkeeps hs₁).1, ⟨d', hk'⟩, fun hok => hback (hchange.succeeded wf hk₁ hok)⟩
  exact hall.2.2 hok

end Connection

/-- A request that is submitted gets a new completion, and nobody gives that a success. -/
theorem Connection.submit_new {c c' : Connection} {r : Request} {shape : Shape} {k : CompletionId}
    (wf : c.store.WellFormed) (h : c.submit .connection r .high shape = some (k, c')) :
    k = c.store.completions.size
      ∧ ∃ s : Store, s.completions[c.store.completions.size]?
          = some { target := some c.store.messages.size }
        ∧ ∃ P ids own, Store.Resolves P ids own s c'.store ∧ ∀ v, ¬ P (.ok v) := by
  have hempty : (c.store.create r).2.sink c.store.messages.size = .empty := c.store.add_sink_self _
  have hwf : ((c.store.create r).2.attach c.store.messages.size shape).WellFormed :=
    (Custody.wellFormed_create wf r).congr fun j => Store.attach_draft? _ _ j shape
  obtain ⟨hk, hcases⟩ := submit_of_empty hempty h
  refine ⟨hk, (c.store.create r).2.attach c.store.messages.size shape,
    Store.attach_completion_self _ _ _, ?_⟩
  rcases hcases with hok | ⟨error, -, rfl⟩
  · have hstore : c'.store = (c.store.create r).2.attach c.store.messages.size shape :=
      enqueue_store hok
    rw [hstore]
    exact ⟨fun _ => False, [], [], .refl _ _, fun _ hv => hv⟩
  · exact ⟨(· = .error error), _, _, Store.fail_resolves hwf _ error, fun v hv => by cases hv⟩

namespace Engine

variable {accepted ids : List MessageId} {config : Config} {e e' : Engine} {ev : Event}
variable {q : Request} {r : Reply} {a p : MessageId} {k : CompletionId} {d : Completion}
variable {password : String}

theorem Reserved.request (hr : Reserved q p e) : e.store.requestOf p = q :=
  hr.carries.requestOf

/-! ## Who makes a completion succeed -/

/-- A reply makes the completion of a message that is in no block succeed only if it is the reply to
that message, and an accepted one. -/
theorem step_reply_succeeded (hb : Basis config e) (hr : Reserved q p e)
    (hk : e.store.completions[k]? = some d) (ht : d.target = some p)
    (h : e.step (.reply r) = some e') (hok : e'.store.Succeeded k) :
    e.store.Succeeded k
      ∨ (e.connection.ledger.entries.head? = some (.message p) ∧ ¬ q.Refuses r) := by
  have hs := hb.sound
  have hsingle : e.store.IsSingle p := hr.carries.isSingle
  obtain ⟨-, rfl⟩ := step_reply h
  have hok : (e.connection.processReply r).2.store.Succeeded k := hok
  cases hentries : e.connection.ledger.entries with
  | nil =>
      rw [Connection.processReply_nil hentries] at hok
      exact Or.inl hok
  | cons f fs =>
      have hhead : f ∈ e.connection.ledger.entries := hentries ▸ List.mem_cons_self
      cases f with
      | message id =>
          rw [Connection.processReply_message hentries] at hok
          by_cases haccepted : id = p ∧ ¬ q.Refuses r
          · obtain ⟨rfl, hnot⟩ := haccepted
            exact Or.inr ⟨rfl, hnot⟩
          · refine Or.inl (hs.custody.complete_succeeded hhead hk ht hsingle (fun hid => ?_) hok)
            subst hid
            have hrefuses : q.Refuses r := Classical.byContradiction fun hnot =>
              haccepted ⟨rfl, hnot⟩
            rw [show e.connection.store.requestOf id = q from hr.request]
            exact Request.judge_of_refuses hrefuses
      | exec b =>
          -- a block gives outcomes to its members and to its batch
          obtain ⟨c, hears, hsound, hchanges⟩ :=
            Connection.processReply_cases hs hentries (fun _ => False) r
          obtain ⟨ids, hresolves, hids⟩ := hears.resolves
          have howned := hs.custody.kinds.block_owned b hhead
          obtain ⟨done, d', b', ms, -, -, -, -, hbatch, hmembers⟩ := hb.pledged.pledged b hhead
          have happart : c.store.completions[k]? = some d := by
            refine hresolves.apart hk (fun j hj sh hsink => ?_) fun hown => ?_
            · have hmem := hids j hj
              rw [hs.custody.reach_block howned, hs.custody.target_of_sink hk ht hsink] at hmem
              exact hr.not_member hbatch (hmembers p hmem)
            · obtain ⟨-, ⟨ms', hbatch'⟩, -⟩ := hs.target_of_done hhead hk ht hown
              exact hsingle.not_isBatch ms' hbatch'
          exact Or.inl ((hchanges.succeeded hsound happart hok).congr (happart.trans hk.symm))

/-- Nobody else makes a completion succeed. -/
theorem step_succeeded (hb : Basis config e) (hk : e.store.completions[k]? = some d)
    (h : e.step ev = some e') (hreply : ∀ r, ev ≠ .reply r) (hok : e'.store.Succeeded k) :
    e.store.Succeeded k := by
  have hs := hb.sound
  cases hq : ev.isQuiet with
  | true =>
      by_cases hmake : ∃ r, ev = .make r
      · obtain ⟨r, rfl⟩ := hmake
        cases h
        exact hok
      · obtain ⟨gain, -, hchanges⟩ :=
          step_changes hs hb.fated.fates.target hq (fun r hr => hmake ⟨r, hr⟩) h
        exact hchanges.succeeded hs hk hok
  | false =>
      cases ev with
      | round =>
          obtain ⟨x, rest, -, -, -, ⟨-, -, hchanges⟩ | ⟨fs, -, hpick⟩⟩ := round_cases hs h
          · exact hchanges.succeeded hs hk hok
          · obtain ⟨sel, hdispatch⟩ := hpick.dispatch
            have hsame : e'.store.completions = e.store.completions :=
              hdispatch.completions.trans (e.store.markSent_completions x)
            exact hok.congr (by rw [hsame])
      | finish =>
          have hcases : Connection.Changes e.owned [] (fun _ => False) e.connection [] e'.connection
              ∨ _ := (finish_cases hs h).2
          obtain hchanges | ⟨c, hbye, hsound, hchanges⟩ := hcases
          · exact hchanges.succeeded hs hk hok
          · have hsame : c.store.completions = e.store.completions := by
              rw [hbye.store]
              exact Store.markSent_completions _ _
            have hk' : c.store.completions[k]? = some d := by rw [hsame, hk]
            exact (hchanges.succeeded hsound hk' hok).congr (by rw [hsame])
      | reply r => exact absurd rfl (hreply r)
      | _ => cases hq

/-! ## What has been answered -/

/-- A reply to the message has been accepted. -/
def Accepted (q : Request) (id : MessageId) (e : Engine) : Prop :=
  ∃ r, (.message id, r) ∈ e.answered ∧ ¬ q.Refuses r

/-- Replies are not forgotten. -/
theorem Turn.answered (h : Turn ids e e') (hs : e.Sound accepted) :
    ∃ l, e'.answered = e.answered ++ l := by
  cases h with
  | steers h => exact ⟨[], (List.append_nil e.answered).symm⟩
  | works h =>
      rcases step_frames hs h with ⟨-, hrests | ⟨fs, hwrites⟩⟩
          | ⟨r, -, -, ⟨-, hrests⟩ | ⟨f, -, htakes⟩⟩
      · exact ⟨[], hrests.answered.trans (List.append_nil _).symm⟩
      · exact ⟨[], hwrites.answered.trans (List.append_nil _).symm⟩
      · exact ⟨[], hrests.answered.trans (List.append_nil _).symm⟩
      · exact ⟨_, htakes.answered⟩

theorem Accepted.turn (ha : Accepted q p e) (hs : e.Sound accepted) (h : Turn ids e e') :
    Accepted q p e' := by
  obtain ⟨r, hr, hnot⟩ := ha
  obtain ⟨l, hl⟩ := h.answered hs
  exact ⟨r, hl ▸ List.mem_append_left l hr, hnot⟩

/-- Completions stay tied to their messages. -/
theorem Turn.ties (h : Turn ids e e') (hb : Basis config e) : e.store.Ties e'.store := by
  cases h with
  | works h => exact step_ties hb.sound hb.fated h
  | steers h => exact .of_eq (congrArg Store.completions h.store)

/-- In a turn a completion succeeds only with an accepted reply to its message. -/
theorem Turn.succeeded (h : Turn ids e e') (hb : Basis config e) (hr : Reserved q p e)
    (hk : e.store.completions[k]? = some d) (ht : d.target = some p)
    (hok : e'.store.Succeeded k) : e.store.Succeeded k ∨ Accepted q p e' := by
  cases h with
  | steers h => exact Or.inl (hok.congr (congrArg (fun s : Store => s.completions[k]?) h.store))
  | @works ev _ h =>
      by_cases hreply : ∃ r, ev = .reply r
      · obtain ⟨r, rfl⟩ := hreply
        refine (step_reply_succeeded hb hr hk ht h hok).imp_right fun ⟨hhead, hnot⟩ => ⟨r, ?_, hnot⟩
        obtain ⟨-, rfl⟩ := step_reply h
        rw [hhead]
        exact List.mem_append_right _ (List.mem_singleton_self _)
      · exact Or.inl (step_succeeded hb hk h (fun r hr => hreply ⟨r, hr⟩) hok)

/-! ## The password -/

/-- The password has been queued as the message `id`. If a reply to it is refused, no other reply
comes after that. -/
structure Password (password : String) (id : MessageId) (e : Engine) : Prop where
  reserved : Reserved (.auth password) id e
  ahead : Ahead id e
  judged : ∀ before r after, e.answered = before ++ (.message id, r) :: after →
    after ≠ [] ∨ e.failure = none → ¬ (Request.auth password).Refuses r

/-- The incoming pump does not survive a refused password. -/
theorem Reserved.reply_refused (hr : Reserved (.auth password) a e)
    (hhead : e.connection.ledger.entries.head? = some (.message a))
    (hrefuses : (Request.auth password).Refuses r) : (e.connection.processReply r).1 ≠ none := by
  obtain ⟨fs, hentries⟩ := List.head?_eq_some_iff.mp hhead
  obtain ⟨t, ht⟩ := Request.judge_of_refuses hrefuses
  rw [← hr.request] at ht
  have hcritical : (e.connection.store.requestOf a).critical = true := by
    rw [show e.connection.store.requestOf a = .auth password from hr.request]
    rfl
  rw [Connection.processReply_refused hentries ht, hcritical, if_pos rfl]
  exact Option.some_ne_none _

theorem Password.turn (hp : Password password a e) (hb : Basis config e) (h : Turn ids e e')
    (hid : a ∈ ids) : Password password a e' := by
  refine ⟨hp.reserved.turn hb h hid, hp.ahead.turn hb hp.reserved rfl h hid, ?_⟩
  have hsame : e'.answered = e.answered → (e'.failure = none → e.failure = none) →
      ∀ before r after, e'.answered = before ++ (.message a, r) :: after →
        after ≠ [] ∨ e'.failure = none → ¬ (Request.auth password).Refuses r := by
    intro hanswered hfailure before r after heq hlater
    exact hp.judged before r after (hanswered.symm.trans heq) (hlater.imp_right hfailure)
  cases h with
  | steers h => exact hsame rfl fun hnone => hnone
  | works h =>
      rcases step_frames hb.sound h with ⟨-, hrests | ⟨fs, hwrites⟩⟩
          | ⟨r, rfl, hfailure, ⟨-, hrests⟩ | ⟨f, hhead, htakes⟩⟩
      · exact hsame hrests.answered fun hnone => hrests.failure.symm.trans hnone
      · exact hsame hwrites.answered fun hnone => hwrites.failure.symm.trans hnone
      · exact hsame hrests.answered fun _ => (step_reply h).1
      · intro before r' after heq hlater
        rw [htakes.answered] at heq
        have hnone := (step_reply h).1
        rcases List.eq_nil_or_concat after with rfl | ⟨after, x, rfl⟩
        · -- this is the reply that has just come
          obtain ⟨rfl, hlast⟩ := List.append_inj' heq rfl
          cases hlast
          refine fun hrefuses => hp.reserved.reply_refused hhead hrefuses ?_
          exact hfailure.symm.trans (hlater.resolve_left fun hne => hne rfl)
        · rw [List.concat_eq_append, ← List.cons_append, ← List.append_assoc] at heq
          obtain ⟨hbefore, -⟩ := List.append_inj' heq rfl
          exact hp.judged before r' after hbefore (Or.inr hnone)

/-! ## The ping -/

/-- The ping has been queued as the message `id`. Its completion succeeds only with an accepted
reply. -/
structure Greeting (id : MessageId) (k : CompletionId) (e : Engine) : Prop where
  reserved : Reserved .handshakePing id e
  tied : ∃ d, e.store.completions[k]? = some d ∧ d.target = some id
  answered : e.store.Succeeded k → Accepted .handshakePing id e

theorem Greeting.turn (hg : Greeting p k e) (hb : Basis config e) (h : Turn ids e e')
    (hid : p ∈ ids) : Greeting p k e' := by
  obtain ⟨d, hk, ht⟩ := hg.tied
  refine ⟨hg.reserved.turn hb h hid, ?_, fun hok => ?_⟩
  · obtain ⟨d', hk', ht'⟩ := h.ties hb k d hk
    exact ⟨d', hk', ht'.trans ht⟩
  · rcases h.succeeded hb hg.reserved hk ht hok with hold | hnew
    · exact (hg.answered hold).turn hb.sound h
    · exact hnew

/-! ## Queueing them -/

/-- A message that is still to be made has no place anywhere. -/
theorem Basis.places_size (hb : Basis config e) :
    e.connection.places e.store.messages.size = 0 := by
  have hc : Custody e.owned [] e.connection.queue.toList e.connection.ledger.entries e.store :=
    hb.sound.custody
  have hnot : e.store.messages.size ∉ e.owned := fun hmem =>
    Nat.lt_irrefl _ (hc.kinds.owned_single _ hmem).lt_size
  have hgathered : e.store.messages.size ∉ e.connection.gathered := fun hmem => by
    obtain ⟨t, ht⟩ := Connection.exists_collected hmem
    exact hnot (hb.sound.collected t _ ht)
  have hbatches : e.store.batchesWith e.store.messages.size = [] := by
    refine List.eq_nil_iff_forall_not_mem.mpr fun b hmem => ?_
    obtain ⟨ms, hbatch, hms⟩ := Store.mem_batchesWith.mp hmem
    exact hnot (hc.kinds.members_owned b ms hbatch _ hms)
  unfold Connection.places
  rw [List.count_eq_zero.mpr hgathered]
  exact (Nat.zero_add _).trans (congrArg List.length hbatches)

/-- Nor has it when it has just been made. -/
theorem Basis.places_made (hb : Basis config e) (q : Request) :
    (e.made q).connection.places e.store.messages.size = 0 := by
  have hplaces := step_places hb.sound hb.fated (e.step_make q) e.store.messages.size
  rw [hb.places_size] at hplaces
  exact Nat.le_zero.mp hplaces

/-- What has been answered has been made before. -/
theorem Basis.answered_lt (hb : Basis config e) (hopen : e.connection.isShutDown = false)
    {j : MessageId} (h : (.message j, r) ∈ e.answered) : j < e.store.messages.size := by
  refine hb.recorded.known j ?_
  rw [hb.tape hopen]
  exact List.mem_append_left _ (List.mem_map_of_mem h)

/-- The password is queued while the queue is open. -/
theorem Basis.queues_password (hb : Basis config e) (hqueue : e.connection.queue.isClosed = false)
    (password : String) :
    Password password e.store.messages.size (e.posted (.auth password)) where
  reserved := ⟨e.store.create_carries _, List.mem_cons_self, hb.places_made _⟩
  ahead := .waits (e.store.add_phase_self _) rfl fun j hj => hb.sound.queued_lt hj
  judged := by
    intro before r after heq
    have hopen : e.connection.isShutDown = false := by
      cases hdown : e.connection.isShutDown with
      | false => rfl
      | true => cases hqueue.symm.trans (hb.sound.down hdown).1
    have hmem : (.message e.store.messages.size, r) ∈ e.answered := by
      rw [show e.answered = _ from heq]
      exact List.mem_append_right _ List.mem_cons_self
    exact absurd (hb.answered_lt hopen hmem) (Nat.lt_irrefl _)

/-- The ping is queued, or fails at once. -/
theorem Basis.queues_ping (hb : Basis config e)
    (hrun : e.run [.make .handshakePing, .submit .connection e.store.messages.size .high .integer]
      = some e')
    (hsubmit : e.connection.submit .connection .handshakePing .high .integer
      = some (k, e'.connection)) : Greeting e.store.messages.size k e' := by
  have hb₁ : Basis config (e.made .handshakePing) := hb.step (e.step_make _)
  have hstep : (e.made .handshakePing).step
      (.submit .connection e.store.messages.size .high .integer) = some e' := by
    rw [run_cons, step_make, Option.bind_some, run_singleton] at hrun
    exact hrun
  obtain ⟨rfl, s₁, hs₁, P, ids, own, hr, hP⟩ :=
    Connection.submit_new hb.sound.custody.wellFormed hsubmit
  -- its completion is new, and nobody gives it a success
  obtain ⟨d, hd, ht⟩ := hr.ties _ _ hs₁
  refine ⟨⟨(step_grows hb₁.sound hstep).carries (e.store.create_carries _), ?_, ?_⟩,
    ⟨d, hd, ht⟩, fun hok => ?_⟩
  · rcases step_owned hstep with howned | ⟨r, hr, -⟩
    · rw [howned]
      exact List.mem_cons_self
    · cases hr
  · have hplaces := step_places hb₁.sound hb₁.fated hstep e.store.messages.size
    rw [hb.places_made] at hplaces
    exact Nat.le_zero.mp hplaces
  · obtain ⟨c, hc, v, hv⟩ := hr.succeeded hP hok
    cases hs₁.symm.trans hc
    rcases hv with hv | hv <;> cases hv

/-- The ping is behind the password that has been queued before it. -/
theorem Basis.queues_behind (hb : Basis config e) (htape : e'.tape = e.tape) (a : MessageId) :
    Behind a e.store.messages.size e' := by
  intro before after heq
  have hmem : .message e.store.messages.size ∈ e.tape := by
    rw [← htape, heq]
    exact List.mem_append_right _ List.mem_cons_self
  exact absurd (hb.recorded.known _ hmem) (Nat.lt_irrefl _)

/-! ## Both -/

/-- The password, if there is one, has been queued before the message `id`, and is written before
it. -/
def PasswordFirst (config : Config) (ids : List MessageId) (id : MessageId) (e : Engine) : Prop :=
  ∀ password, config.password = some password →
    ∃ a ∈ ids, Password password a e ∧ a < id ∧ Behind a id e

theorem PasswordFirst.turn (hp : PasswordFirst config ids p e) (hb : Basis config e)
    (h : Turn ids e e') (hsize : p < e.store.messages.size) : PasswordFirst config ids p e' := by
  intro password hconfig
  obtain ⟨a, hid, hpassword, hlt, hbehind⟩ := hp password hconfig
  exact ⟨a, hid, hpassword.turn hb h hid, hlt,
    hbehind.turn hpassword.ahead hb.sound hlt hsize h⟩

theorem PasswordFirst.mono (hp : PasswordFirst config ids p e) {ids' : List MessageId}
    (hids : ∀ id ∈ ids, id ∈ ids') : PasswordFirst config ids' p e := by
  intro password hconfig
  obtain ⟨a, hid, hrest⟩ := hp password hconfig
  exact ⟨a, hids a hid, hrest⟩

/-- The server has answered the ping of the handshake with the word that it expects, and before that
the password, if there is one. `ids` are the messages of the handshake. -/
def Greeted (config : Config) (ids : List MessageId) (e : Engine) : Prop :=
  ∃ p ∈ ids, e.store.Carries p .handshakePing ∧ ∃ before r after,
    e.answered = before ++ (.message p, r) :: after ∧ r.payload? = some Literal.pong.bytes
      ∧ ∀ password, config.password = some password → ∃ a ∈ ids, ∃ r',
        (.message a, r') ∈ before ∧ e.store.Carries a (.auth password)
          ∧ r'.payload? = some Literal.ok.bytes

theorem Request.payload_of_accepts {l : Literal} (hq : q.expected = some l)
    (h : ¬ q.Refuses r) : r.payload? = some l.bytes :=
  Classical.byContradiction fun hne => h (Or.inr ⟨l, hq, hne⟩)

/-- A ping that has been answered as it should on a connection that has not been torn down. -/
theorem Basis.greeted (hb : Basis config e) (hopen : e.connection.isShutDown = false)
    (hid : p ∈ ids) (hping : e.store.Carries p .handshakePing)
    (hanswered : Accepted .handshakePing p e) (hpassword : PasswordFirst config ids p e) :
    Greeted config ids e := by
  obtain ⟨r, hr, hnot⟩ := hanswered
  obtain ⟨before, after, hsplit⟩ := List.append_of_mem hr
  refine ⟨p, hid, hping, before, r, after, hsplit, Request.payload_of_accepts rfl hnot, ?_⟩
  intro password hconfig
  obtain ⟨a, haid, hp, -, hbehind⟩ := hpassword password hconfig
  -- what has been answered has been written, in this order
  have htape : e.tape = before.map Prod.fst
      ++ .message p :: (after.map Prod.fst ++ e.connection.ledger.entries) := by
    rw [hb.tape hopen, hsplit, List.map_append, List.append_assoc]
    rfl
  obtain ⟨⟨f, r'⟩, hmem, hf⟩ := List.mem_map.mp (hbehind _ _ htape)
  obtain rfl : f = .message a := hf
  obtain ⟨first, rest, hfirst⟩ := List.append_of_mem hmem
  have hlater : rest ++ (.message p, r) :: after ≠ [] := List.append_ne_nil_of_right_ne_nil _
    (List.cons_ne_nil _ _)
  have haccepted := hp.judged first r' (rest ++ (.message p, r) :: after)
    (by rw [hsplit, hfirst, List.append_assoc]; rfl) (Or.inl hlater)
  exact ⟨a, haid, r', hmem, hp.reserved.carries, Request.payload_of_accepts rfl haccepted⟩

end Engine

end RespMux
