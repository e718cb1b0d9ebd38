import RespMux.Proofs.Lifecycle.Calls
import RespMux.Proofs.Lifecycle.Greeting

/-!
# The lifecycle of a connection

Calls open, close and tear down a connection, the pumps send, receive and fail, and any of them may
be interrupted by the others between two of its steps. Whatever comes of that, the lifecycle only
goes forward, a connection that is closed stays closed, at most one call begins to open it, and it
becomes open only when the server has answered the ping of the handshake, and the password before
that (`Life.forward`).

`Life.Proceeds` says once what a move can do. So the lifecycle drifts, or a call that has found the
connection fresh begins to open it, or one that knows the ping to be answered completes that. What a
call knows (`Progress.Sound`) it has seen itself or comes from the queue, and nobody can undo it
(`Progress.Sound.turns`).
-/

set_option autoImplicit false

namespace RespMux

namespace Engine

variable {ids : List MessageId} {config : Config} {e e₁ e' : Engine} {ev : Event}

/-- Any number of turns. -/
inductive Turns (ids : List MessageId) (e : Engine) : Engine → Prop where
  | refl : Turns ids e e
  | step {e₁ e' : Engine} (h : Turns ids e e₁) (hturn : Turn ids e₁ e') : Turns ids e e'

theorem Turn.turns (h : Turn ids e e') : Turns ids e e' := .step .refl h

theorem Turns.preserves {P : Engine → Prop} (h : Turns ids e e') (hb : Basis config e)
    (hturn : ∀ e e', Basis config e → Turn ids e e' → P e → P e') (hp : P e) :
    Basis config e' ∧ P e' := by
  induction h with
  | refl => exact ⟨hb, hp⟩
  | step _ h ih => exact ⟨ih.1.turn h, hturn _ _ ih.1 h ih.2⟩

theorem Turn.size_le (h : Turn ids e e') (hb : Basis config e) :
    e.store.messages.size ≤ e'.store.messages.size := by
  cases h with
  | works h => exact (step_grows hb.sound h).size_le
  | steers h => exact Nat.le_of_eq (congrArg (fun s : Store => s.messages.size) h.store.symm)

theorem Turns.size_le (h : Turns ids e e') (hb : Basis config e) :
    e.store.messages.size ≤ e'.store.messages.size :=
  (h.preserves hb (fun _ _ hb ht h => Nat.le_trans h (ht.size_le hb)) (Nat.le_refl _)).2

theorem Turns.basis (h : Turns ids e e') (hb : Basis config e) : Basis config e' :=
  (h.preserves hb (fun _ _ hb ht _ => hb.turn ht) hb).1

/-- A new message is made and handed in by somebody who leaves the older ones alone. -/
theorem turns_of_made {q : Request} (hids : ∀ id ∈ ids, id < e.store.messages.size)
    (h : e.run [.make q, ev] = some e') (hev : ev.steersLifecycle = false)
    (htouches : ∀ id, (e.made q).touches ev id = decide (e.store.messages.size = id)) :
    Turns ids e e' := by
  rw [run_cons, step_make, Option.bind_some, run_singleton] at h
  have hmake : Turn ids e (e.made q) := .works (e.step_make q) rfl fun _ _ => rfl
  refine .step hmake.turns (.works h hev fun id hid => ?_)
  rw [htouches, decide_eq_false_iff_not]
  exact Nat.ne_of_gt (hids id hid)

end Engine

/-! ## What a call knows -/

open Engine

namespace Progress

variable {ids ids' : List MessageId} {config : Config} {e e' : Engine} {s : Progress}

/-- What a call knows of the handshake with the messages `ids`. -/
def Sound (config : Config) (ids : List MessageId) (e : Engine) : Progress → Prop
  | .greets => ∀ password, config.password = some password → ∃ a ∈ ids, Password password a e
  | .awaits k => ∃ p ∈ ids, Greeting p k e ∧ PasswordFirst config ids p e
  | .concludes (.ok _) => ∃ p ∈ ids, (∃ k, Greeting p k e) ∧ Accepted .handshakePing p e
      ∧ PasswordFirst config ids p e
  | _ => True

/-- It knows nothing. -/
def Blank (s : Progress) : Prop := ∀ config ids e, s.Sound config ids e

/-- Nobody can undo what a call knows. -/
theorem Sound.turn (h : s.Sound config ids e) (hb : Basis config e) (ht : Engine.Turn ids e e') :
    s.Sound config ids e' := by
  cases s with
  | greets =>
      intro password hpassword
      obtain ⟨a, ha, hp⟩ := h password hpassword
      exact ⟨a, ha, hp.turn hb ht ha⟩
  | awaits k =>
      obtain ⟨p, hp, hg, hfirst⟩ := h
      exact ⟨p, hp, hg.turn hb ht hp, hfirst.turn hb ht hg.reserved.lt_size⟩
  | concludes outcome =>
      cases outcome with
      | ok v =>
          obtain ⟨p, hp, ⟨k, hg⟩, hanswered, hfirst⟩ := h
          exact ⟨p, hp, ⟨k, hg.turn hb ht hp⟩, hanswered.turn hb.sound ht,
            hfirst.turn hb ht hg.reserved.lt_size⟩
      | error error => trivial
  | _ => trivial

theorem Sound.turns (h : s.Sound config ids e) (hb : Basis config e) (ht : Turns ids e e') :
    s.Sound config ids e' :=
  (ht.preserves hb (fun _ _ hb ht h => Sound.turn h hb ht) h).2

theorem Sound.mono (h : s.Sound config ids e) (hids : ∀ id ∈ ids, id ∈ ids') :
    s.Sound config ids' e := by
  cases s with
  | greets =>
      intro password hpassword
      obtain ⟨a, ha, hp⟩ := h password hpassword
      exact ⟨a, hids a ha, hp⟩
  | awaits k =>
      obtain ⟨p, hp, hg, hfirst⟩ := h
      exact ⟨p, hids p hp, hg, hfirst.mono hids⟩
  | concludes outcome =>
      cases outcome with
      | ok v =>
          obtain ⟨p, hp, hg, hanswered, hfirst⟩ := h
          exact ⟨p, hids p hp, hg, hanswered, hfirst.mono hids⟩
      | error error => trivial
  | _ => trivial

end Progress

namespace Life

variable {config : Config} {l l' : Life} {s s' : Progress} {m : Move}

/-! ## What a move can do -/

/-- The call at `s` comes to `s'`. It makes a step of the opening, or it knows nothing of the
handshake then, and the lifecycle drifts. -/
inductive Proceeds (l : Life) : Progress → Progress → Life → Prop where
  | begins (hfresh : l.state = .fresh) :
      Proceeds l .opens .connects
        { l.withConnection { l.engine.connection with state := .opening } with
          starts := l.starts + 1 }
  | skips (hpassword : l.engine.connection.config.password = none) :
      Proceeds l .connects .greets l
  | authenticates {password : String}
      (hpassword : l.engine.connection.config.password = some password)
      (hqueue : l.engine.connection.queue.isClosed = false) :
      Proceeds l .connects .greets (l.queued (l.engine.posted (.auth password)))
  | pings {k : CompletionId} {e : Engine}
      (hrun : l.engine.run [.make .handshakePing,
        .submit .connection l.engine.store.messages.size .high .integer] = some e)
      (hsubmit : l.engine.connection.submit .connection .handshakePing .high .integer
        = some (k, e.connection)) :
      Proceeds l .greets (.awaits k) (l.queued e)
  | looks {k : CompletionId} {d : Completion} {e : Engine}
      (hk : l.engine.store.completions[k]? = some d)
      (hstep : l.engine.step (.look k .poll) = some e) :
      Proceeds l (.awaits k) ((d.poll.1.map .concludes).getD (.awaits k)) (l.withEngine e)
  | opens {v : Value} (hopening : l.state = .opening) :
      Proceeds l (.concludes (.ok v)) .returned
        (l.withConnection { l.engine.connection with state := .established })
  | drifts {s s' : Progress} {l' : Life}
      (hblank : s'.Blank)
      (hturns : Turns l.handshake l.engine l'.engine)
      (hdrifts : l.engine.connection.Drifts l'.engine.connection)
      (hstarts : l'.starts = l.starts) (hhandshake : l'.handshake = l.handshake) :
      Proceeds l s s' l'

/-- To steer the lifecycle forward is to let it drift. -/
theorem Proceeds.steers {c : Connection} {claimed : Bool}
    (hblank : s'.Blank)
    (hsteers : l.engine.connection.Steers c) (hdrifts : l.engine.connection.Drifts c) :
    Proceeds l s s' { l.withConnection c with claimed := claimed } :=
  .drifts hblank (Engine.Turn.steers hsteers).turns hdrifts rfl rfl

theorem Proceeds.stays {claimed : Bool} (hblank : s'.Blank) :
    Proceeds l s s' { l with claimed := claimed } :=
  .drifts hblank .refl (.refl _) rfl rfl

theorem proceed_connects_cases (hids : ∀ id ∈ l.handshake, id < l.engine.store.messages.size)
    (h : l.proceed .connects = some (s', l')) : Proceeds l .connects s' l' := by
  cases hpassword : l.engine.connection.config.password with
  | none =>
      unfold proceed at h
      dsimp only at h
      rw [hpassword] at h
      cases h
      exact .skips hpassword
  | some password =>
      obtain ⟨e, hrun, ⟨hpost, heq⟩ | ⟨error, hpost, heq⟩⟩ := l.proceed_connects hpassword
      · cases heq.symm.trans h
        have hqueue := Connection.post_open hpost
        cases hrun.symm.trans (run_post hqueue (.auth password))
        exact .authenticates hpassword hqueue
      · cases heq.symm.trans h
        have hturns : Turns l.handshake l.engine e := turns_of_made hids hrun rfl fun _ => rfl
        refine .drifts (fun _ _ _ => trivial) hturns ?_ rfl rfl
        rcases post_cases l.engine.connection (.auth password) .high with
          ⟨-, hnone⟩ | ⟨c, -, hok⟩ | ⟨error', -, herror⟩
        · cases hpost.symm.trans hnone
        · cases hpost.symm.trans hok
        · have hc := congrArg Prod.snd (Option.some.inj (hpost.symm.trans herror))
          show l.engine.connection.Drifts e.connection
          rw [show e.connection = _ from hc]
          exact .of_eq rfl rfl rfl

theorem proceed_acts_cases {abort : Bool} {seen : Lifecycle}
    (h : l.proceed (.acts abort seen) = some (s', l')) : Proceeds l (.acts abort seen) s' l' := by
  have hcloses : Proceeds l (.acts abort seen) .seals
      (l.withConnection (l.engine.connection.transition [.opening, .established] .closing).2) :=
    .steers (fun _ _ _ => trivial) (l.engine.connection.steers_transition _ _)
      l.engine.connection.drifts_closing
  cases seen with
  | fresh =>
      cases h
      exact .stays fun _ _ _ => trivial
  | opening =>
      cases h
      exact hcloses
  | established =>
      cases h
      exact hcloses
  | closing =>
      cases h
      exact .stays fun _ _ _ => by cases abort <;> trivial
  | closed =>
      cases h
      exact .stays fun _ _ _ => by cases abort <;> trivial

theorem proceed_tearsDown_cases {done : Teardown} {cause : String} {error : Option Error}
    (h : l.proceed (.tearsDown done cause error) = some (s', l')) :
    Proceeds l (.tearsDown done cause error) s' l' := by
  cases done with
  | nothing =>
      unfold proceed at h
      dsimp only at h
      split at h
      · cases h
        exact .stays fun _ _ _ => trivial
      · cases h
        exact .stays fun _ _ _ => trivial
  | claimed =>
      cases h
      exact .steers (fun _ _ _ => trivial) l.engine.connection.steers_abort
        l.engine.connection.drifts_abort
  | aborting =>
      cases h
      exact .steers (fun _ _ _ => trivial) l.engine.connection.steers_closeQueue
        (.of_eq rfl rfl rfl)
  | sealed =>
      cases h
      exact .steers (fun _ _ _ => trivial) (l.engine.connection.steers_state .closed)
        l.engine.connection.drifts_closed
  | ended =>
      -- the rest of a shutdown is all of it, of which some has been done before
      cases h
      have hstep : l.engine.step (.shutdown cause error)
          = some (l.engine.withConnection (l.engine.connection.shutdown cause error)) := rfl
      exact .drifts (fun _ _ _ => trivial) (Engine.Turn.works hstep rfl fun _ _ => rfl).turns
        (l.engine.connection.drifts_shutdown cause error) rfl rfl

/-- The next step of a call. -/
theorem proceed_cases (hids : ∀ id ∈ l.handshake, id < l.engine.store.messages.size)
    (h : l.proceed s = some (s', l')) : Proceeds l s s' l' := by
  cases s with
  | opens =>
      unfold proceed Connection.beginOpening at h
      dsimp only at h
      by_cases hfresh : l.engine.connection.state ∈ [Lifecycle.fresh]
      · rw [Connection.transition_of_mem hfresh] at h
        cases h
        exact .begins (List.mem_singleton.mp hfresh)
      · rw [Connection.transition_of_not_mem hfresh] at h
        cases h
        exact .stays fun _ _ _ => trivial
  | connects => exact proceed_connects_cases hids h
  | greets =>
      obtain ⟨k, e, hrun, hsubmit, heq⟩ := l.proceed_greets
      cases heq.symm.trans h
      exact .pings hrun hsubmit
  | awaits k =>
      unfold proceed at h
      dsimp only at h
      split at h
      · next hk hstep =>
        cases h
        exact .looks hk hstep
      · cases h
  | concludes outcome =>
      cases outcome with
      | ok v =>
          cases h
          -- somebody may have closed the connection since the ping was answered
          by_cases hopening : l.engine.connection.state ∈ [Lifecycle.opening]
          · rw [Connection.transition_of_mem hopening]
            exact .opens (List.mem_singleton.mp hopening)
          · rw [Connection.transition_of_not_mem hopening]
            exact .stays fun _ _ _ => trivial
      | error error =>
          cases h
          exact .stays fun _ _ _ => trivial
  | closes abort =>
      cases h
      cases abort with
      | true =>
          exact .steers (fun _ _ _ => trivial) l.engine.connection.steers_abort
            l.engine.connection.drifts_abort
      | false => exact .stays fun _ _ _ => trivial
  | looks abort =>
      cases h
      exact .stays fun _ _ _ => trivial
  | acts abort seen => exact proceed_acts_cases h
  | seals =>
      cases h
      exact .steers (fun _ _ _ => trivial) l.engine.connection.steers_closeQueue
        (.of_eq rfl rfl rfl)
  | tearsDown done cause error => exact proceed_tearsDown_cases h
  | returned => cases h

/-- A move takes the engine some turns further. -/
theorem Proceeds.turns (h : Proceeds l s s' l')
    (hids : ∀ id ∈ l.handshake, id < l.engine.store.messages.size) :
    Turns l.handshake l.engine l'.engine := by
  cases h with
  | begins => exact (Engine.Turn.steers (l.engine.connection.steers_state .opening)).turns
  | skips => exact .refl
  | authenticates hpassword hqueue =>
      exact turns_of_made hids (run_post hqueue _) rfl fun _ => rfl
  | pings hrun => exact turns_of_made hids hrun rfl fun _ => rfl
  | looks hk hstep => exact (Engine.Turn.works hstep rfl fun _ _ => rfl).turns
  | opens => exact (Engine.Turn.steers (l.engine.connection.steers_state .established)).turns
  | drifts hblank hturns => exact hturns

/-- What a move does to the lifecycle. -/
inductive Moves (l : Life) (s : Progress) (l' : Life) : Prop where
  | drifts (hdrifts : l.engine.connection.Drifts l'.engine.connection)
      (hstarts : l'.starts = l.starts)
  | begins (hfresh : l.state = .fresh) (hopening : l'.state = .opening)
      (hdown : l'.engine.connection.isShutDown = l.engine.connection.isShutDown)
      (hstarts : l'.starts = l.starts + 1)
  | opens {v : Value} (hs : s = .concludes (.ok v)) (hopening : l.state = .opening)
      (hestablished : l'.state = .established)
      (hdown : l'.engine.connection.isShutDown = l.engine.connection.isShutDown)
      (hstarts : l'.starts = l.starts)

theorem Proceeds.moves (h : Proceeds l s s' l') : Moves l s l' := by
  cases h with
  | begins hfresh => exact .begins hfresh rfl rfl rfl
  | skips => exact .drifts (.refl _) rfl
  | authenticates => exact .drifts (.of_eq rfl rfl rfl) rfl
  | pings hrun hsubmit =>
      have hmade : l.engine.connection.Drifts { l.engine.connection with
          store := (l.engine.store.create .handshakePing).2 } := .of_eq rfl rfl rfl
      exact .drifts (hmade.trans (Connection.drifts_submit hsubmit)) rfl
  | looks hk hstep =>
      cases hstep
      exact .drifts (.of_eq rfl rfl rfl) rfl
  | opens hopening => exact .opens rfl hopening rfl rfl rfl
  | drifts hblank hturns hdrifts hstarts => exact .drifts hdrifts hstarts

/-- The lifecycle goes forward. -/
theorem Moves.rank_le (h : Moves l s l') : l.state.rank ≤ l'.state.rank := by
  cases h with
  | drifts hdrifts => exact hdrifts.rank_le
  | begins hfresh hopening =>
      rw [hfresh, hopening]
      decide
  | opens hs hopening hestablished =>
      rw [hopening, hestablished]
      decide

/-! ## What holds of every life -/

/-- The engine is sound, whatever is torn down is closed, and only who has found the connection
fresh has begun to open it. The calls know what they know. -/
structure Sound (config : Config) (l : Life) : Prop where
  basis : Basis config l.engine
  known : ∀ id ∈ l.handshake, id < l.engine.store.messages.size
  closed : l.engine.connection.isShutDown = true → l.state = .closed
  fresh : l.state = .fresh → l.starts = 0
  once : l.starts ≤ 1
  calls : ∀ s ∈ l.calls, s.Sound config l.handshake l.engine

/-- The ping is queued behind the password. -/
theorem Sound.pings {k : CompletionId} {e : Engine} (hl : l.Sound config)
    (hs : Progress.Sound config l.handshake l.engine .greets)
    (hrun : l.engine.run [.make .handshakePing,
      .submit .connection l.engine.store.messages.size .high .integer] = some e)
    (hsubmit : l.engine.connection.submit .connection .handshakePing .high .integer
      = some (k, e.connection)) :
    Greeting l.engine.store.messages.size k e
      ∧ PasswordFirst config l.handshake l.engine.store.messages.size e := by
  refine ⟨hl.basis.queues_ping hrun hsubmit, fun password hpassword => ?_⟩
  have hturns := (Proceeds.pings hrun hsubmit).turns hl.known
  obtain ⟨a, ha, hp⟩ := hs.turns hl.basis hturns password hpassword
  have htape : e.tape = (l.engine.made .handshakePing).tape := by
    rw [run_cons, step_make, Option.bind_some, run_singleton] at hrun
    exact step_tape (hl.basis.step (l.engine.step_make _)).sound Event.noConfusion
      Event.noConfusion hrun
  exact ⟨a, ha, hp, hl.known a ha, hl.basis.queues_behind htape a⟩

/-- What the call knows afterwards. -/
theorem Sound.proceeds (hl : l.Sound config) (hs : s.Sound config l.handshake l.engine)
    (h : Proceeds l s s' l') :
    s'.Sound config l'.handshake l'.engine
      ∧ (∀ id ∈ l.handshake, id ∈ l'.handshake)
      ∧ ∀ id ∈ l'.handshake, id < l'.engine.store.messages.size := by
  have hturns := h.turns hl.known
  have hold : ∀ id ∈ l.handshake, id < l'.engine.store.messages.size := by
    intro id hid
    exact Nat.lt_of_lt_of_le (hl.known id hid) (hturns.size_le hl.basis)
  -- a message that has been queued joins the handshake
  have hcons : ∀ {e : Engine}, l.engine.store.messages.size < e.store.messages.size →
      l' = l.queued e → (∀ id ∈ l.handshake, id ∈ l'.handshake)
        ∧ ∀ id ∈ l'.handshake, id < l'.engine.store.messages.size := by
    rintro e hlt rfl
    refine ⟨fun id hid => List.mem_cons_of_mem _ hid, fun id hid => ?_⟩
    rcases List.mem_cons.mp hid with rfl | hid
    · exact hlt
    · exact hold id hid
  cases h with
  | begins => exact ⟨trivial, fun _ hid => hid, hold⟩
  | skips hnone =>
      refine ⟨fun password hpassword => ?_, fun _ hid => hid, hold⟩
      rw [hl.basis.config, hpassword] at hnone
      cases hnone
  | @authenticates password hpassword hqueue =>
      refine ⟨fun password' hpassword' => ?_, hcons ?_ rfl⟩
      · rw [hl.basis.config, hpassword'] at hpassword
        cases hpassword
        exact ⟨_, List.mem_cons_self, hl.basis.queues_password hqueue _⟩
      · rw [posted_size]
        exact Nat.lt_succ_self _
  | pings hrun hsubmit =>
      obtain ⟨hg, hfirst⟩ := hl.pings hs hrun hsubmit
      have hall := hcons hg.reserved.lt_size rfl
      exact ⟨⟨_, List.mem_cons_self, hg, hfirst.mono hall.1⟩, hall⟩
  | @looks k d e hk hstep =>
      refine ⟨?_, fun _ hid => hid, hold⟩
      cases hpoll : d.poll.1 with
      | none => exact hs.turns hl.basis hturns
      | some outcome =>
          cases outcome with
          | error error => trivial
          | ok v =>
              -- who has seen a success knows that the ping has been answered
              obtain ⟨p, hp, hg, hfirst⟩ := hs
              have hanswered := hg.answered ⟨d, hk, Completion.succeeded_of_poll hpoll⟩
              have hturn : Engine.Turn l.handshake l.engine e := .works hstep rfl fun _ _ => rfl
              exact ⟨p, hp, ⟨k, hg.turn hl.basis hturn hp⟩, hanswered.turn hl.basis.sound hturn,
                hfirst.turn hl.basis hturn hg.reserved.lt_size⟩
  | opens => exact ⟨trivial, fun _ hid => hid, hold⟩
  | drifts hblank _ _ _ hhandshake =>
      rw [hhandshake]
      exact ⟨hblank _ _ _, fun _ hid => hid, hold⟩

/-- A move is a step of a call, or lets the lifecycle drift while the calls stay where they are. -/
theorem Sound.step_cases (hl : l.Sound config) (h : l.step m = some l') :
    ∃ s s' l₁ calls, Proceeds l s s' l₁ ∧ (s ∈ l.calls ∨ s = .returned)
      ∧ l' = { l₁ with calls := calls } ∧ ∀ x ∈ calls, x = s' ∨ x ∈ l.calls := by
  cases m with
  | work ev =>
      unfold Life.step at h
      dsimp only at h
      split at h
      · next hadmits =>
        obtain ⟨e, hstep, rfl⟩ := Option.map_eq_some_iff.mp h
        unfold admits at hadmits
        rw [Bool.and_eq_true, Bool.not_eq_true', List.all_eq_true] at hadmits
        obtain ⟨hev, hfree⟩ := hadmits
        have hturn : Engine.Turn l.handshake l.engine e := .works hstep hev fun id hid =>
          (Bool.not_eq_true' _).mp (hfree id hid)
        exact ⟨.returned, .returned, { l with
            engine := e, claimed := l.claimed || e.connection.isShutDown }, l.calls,
          .drifts (fun _ _ _ => trivial) hturn.turns (step_drifts hl.basis.sound hev hstep) rfl rfl,
          Or.inr rfl, rfl, fun x hx => Or.inr hx⟩
      · cases h
  | calls c =>
      cases h
      refine ⟨.returned, c.start, l, l.calls ++ [c.start], .stays fun _ _ _ => ?_, Or.inr rfl, rfl,
        fun x hx => ?_⟩
      · cases c <;> trivial
      · exact (List.mem_append.mp hx).symm.imp_left List.mem_singleton.mp
  | proceeds i =>
      obtain ⟨s, hs, hmap⟩ := Option.bind_eq_some_iff.mp h
      obtain ⟨⟨s', l₁⟩, hproceed, rfl⟩ := Option.map_eq_some_iff.mp hmap
      exact ⟨s, s', l₁, l.calls.set i s', proceed_cases hl.known hproceed,
        Or.inl (List.mem_of_getElem? hs), rfl, fun x hx => (List.mem_or_eq_of_mem_set hx).symm⟩
  | fails i cause error =>
      obtain ⟨s, hs, hfails⟩ := Option.bind_eq_some_iff.mp h
      have hl' : l' = { l with
          calls := l.calls.set i (.tearsDown .nothing cause (some error)) } := by
        cases s <;> cases hfails <;> rfl
      exact ⟨.returned, .tearsDown .nothing cause (some error), l, _,
        .stays fun _ _ _ => trivial, Or.inr rfl, hl',
        fun x hx => (List.mem_or_eq_of_mem_set hx).symm⟩
  | departs =>
      cases h
      exact ⟨.returned, .returned, _, l.calls, .steers (fun _ _ _ => trivial)
        (l.engine.connection.steers_transition _ _) l.engine.connection.drifts_closing, Or.inr rfl,
        rfl, fun x hx => Or.inr hx⟩

/-- Whatever is torn down is closed. -/
theorem Sound.moves_closed (hl : l.Sound config) (h : Moves l s l')
    (hdown' : l'.engine.connection.isShutDown = true) : l'.state = .closed := by
  cases h with
  | drifts hdrifts =>
      rcases hdrifts.down hdown' with hdown | hclosed
      · exact hdrifts.closed (hl.closed hdown)
      · exact hclosed
  | begins hfresh _ hdown => cases hfresh.symm.trans (hl.closed (hdown.symm.trans hdown'))
  | opens _ hopening _ hdown => cases hopening.symm.trans (hl.closed (hdown.symm.trans hdown'))

/-- Nobody begins to open a connection that somebody has begun to open. -/
theorem Sound.moves_starts (hl : l.Sound config) (h : Moves l s l') :
    (l'.state = .fresh → l'.starts = 0) ∧ l'.starts ≤ 1 := by
  refine ⟨fun hfresh' => ?_, ?_⟩
  · -- who is fresh now was so before, for the lifecycle goes forward
    have hrank := h.rank_le
    rw [hfresh'] at hrank
    have hfresh : l.state = .fresh := Lifecycle.rank_injective (Nat.le_zero.mp hrank)
    cases h with
    | drifts _ hstarts => exact hstarts.trans (hl.fresh hfresh)
    | begins _ hopening => cases hfresh'.symm.trans hopening
    | opens _ hopening => cases hfresh.symm.trans hopening
  · cases h with
    | drifts _ hstarts => exact hstarts ▸ hl.once
    | begins hfresh _ _ hstarts =>
        have hnone := hl.fresh hfresh
        omega
    | opens _ _ _ _ hstarts => exact hstarts ▸ hl.once

theorem Sound.step (hl : l.Sound config) (h : l.step m = some l') : l'.Sound config := by
  obtain ⟨s, s', l₁, calls, hp, hs, rfl, hcalls⟩ := hl.step_cases h
  have hsound : s.Sound config l.handshake l.engine := by
    rcases hs with hmem | rfl
    · exact hl.calls s hmem
    · trivial
  have hturns := hp.turns hl.known
  obtain ⟨hs', hids, hknown⟩ := hl.proceeds hsound hp
  have hclosed := hl.moves_closed hp.moves
  have hstarts := hl.moves_starts hp.moves
  constructor
  case basis => exact hturns.basis hl.basis
  case known => exact hknown
  case closed => exact hclosed
  case fresh => exact hstarts.1
  case once => exact hstarts.2
  case calls =>
    intro x hx
    rcases hcalls x hx with rfl | hold
    · exact hs'
    · exact ((hl.calls x hold).turns hl.basis hturns).mono hids

theorem new_sound (config : Config) : (new config).Sound config where
  basis := new_basis config
  known _ hid := by cases hid
  closed hdown := by cases hdown
  fresh _ := rfl
  once := Nat.zero_le 1
  calls _ hs := by cases hs

theorem run_cons (l : Life) (m : Move) (ms : List Move) :
    l.run (m :: ms) = (l.step m).bind fun l' => l'.run ms := rfl

/-- Along a life everything stays sound, and the lifecycle goes forward. -/
theorem Sound.run {ms : List Move} (hl : l.Sound config) (h : l.run ms = some l') :
    l'.Sound config ∧ l.state.rank ≤ l'.state.rank := by
  induction ms generalizing l with
  | nil =>
      cases h
      exact ⟨hl, Nat.le_refl _⟩
  | cons m ms ih =>
      rw [run_cons] at h
      obtain ⟨l₁, hstep, hrest⟩ := Option.bind_eq_some_iff.mp h
      obtain ⟨hl', hrank⟩ := ih (hl.step hstep) hrest
      obtain ⟨s, s', l₂, calls, hp, -, rfl, -⟩ := hl.step_cases hstep
      exact ⟨hl', Nat.le_trans hp.moves.rank_le hrank⟩

/-- The connection becomes open only when the server has answered the handshake. -/
theorem Sound.established (hl : l.Sound config) (h : l.step m = some l')
    (hbefore : l.state ≠ .established) (hafter : l'.state = .established) :
    Greeted config l.handshake l.engine := by
  obtain ⟨s, s', l₁, calls, hp, hs, rfl, -⟩ := hl.step_cases h
  cases hp.moves with
  | drifts hdrifts => exact absurd (hdrifts.established hafter) hbefore
  | begins _ hopening => cases hafter.symm.trans hopening
  | @opens v hsees hopening =>
      subst hsees
      have hmem : .concludes (.ok v) ∈ l.calls := hs.resolve_right Progress.noConfusion
      obtain ⟨p, hid, ⟨k, hg⟩, hanswered, hfirst⟩ := hl.calls _ hmem
      have hopen : l.engine.connection.isShutDown = false := by
        cases hdown : l.engine.connection.isShutDown with
        | false => rfl
        | true => cases hopening.symm.trans (hl.closed hdown)
      exact hl.basis.greeted hopen hid hg.reserved.carries hanswered hfirst

/-- In every life, whoever opens, closes and tears down the connection and whatever happens between
two steps of theirs: the lifecycle goes forward, nobody brings a closed connection back, at most one
call begins to open it, and it becomes open only when the server has answered the handshake. -/
theorem lifecycle_forward {before after : List Move}
    (hbefore : (new config).run before = some l) (hafter : l.run after = some l') :
    l.state.rank ≤ l'.state.rank
      ∧ (l.state = .closed → l'.state = .closed)
      ∧ l'.starts ≤ 1
      ∧ ∀ m l'', l'.step m = some l'' → l'.state ≠ .established → l''.state = .established →
        Greeted config l'.handshake l'.engine := by
  obtain ⟨hl, -⟩ := (new_sound config).run hbefore
  obtain ⟨hl', hrank⟩ := hl.run hafter
  refine ⟨hrank, fun hclosed => ?_, hl'.once, fun m l'' hstep => hl'.established hstep⟩
  rw [hclosed] at hrank
  exact Lifecycle.rank_injective (Nat.le_antisymm l'.state.rank_le hrank)

/-- A connection with a password is opened: the password and the ping are sent and answered. -/
def answering : Life :=
  ((new { password := some "s3cret" }).run
    [.calls .openUp, .proceeds 0, .proceeds 0, .proceeds 0, .work .round, .work .round,
      .work (.reply (.status Literal.ok.bytes)), .work (.reply (.status Literal.pong.bytes))]).get
    (by decide)

/-- The call that opens it has seen the success of the ping. -/
def concluding : Life := (answering.run [.proceeds 0]).get (by decide)

theorem lifecycle_forward_concluding :
    concluding.starts ≤ 1 ∧ (concluding.step (.proceeds 0)).any (·.state = .established) = true
      ∧ Greeted { password := some "s3cret" } concluding.handshake concluding.engine := by
  have hbefore : (new { password := some "s3cret" }).run
      [.calls .openUp, .proceeds 0, .proceeds 0, .proceeds 0, .work .round, .work .round,
        .work (.reply (.status Literal.ok.bytes)), .work (.reply (.status Literal.pong.bytes))]
      = some answering := (Option.some_get _).symm
  have hafter : answering.run [.proceeds 0] = some concluding := (Option.some_get _).symm
  have hopens : (concluding.step (.proceeds 0)).any (·.state = .established) = true := by decide
  obtain ⟨l, hstep, hopen⟩ := (Option.any_eq_true _ _).mp hopens
  obtain ⟨-, -, honce, hgreeted⟩ := lifecycle_forward hbefore hafter
  exact ⟨honce, hopens, hgreeted _ l hstep (by decide) (of_decide_eq_true hopen)⟩

end Life

end RespMux
