import RespMux.Proofs.Lifecycle.Forward
import RespMux.Proofs.Transactions

/-!
# Messages that nobody else touches

The messages of the handshake are not known to anybody but the one who opens the connection. Nobody
else hands them in, gives them up or cancels them (`Engine.touches`), and they come into no block.
So such a message waits in the high lane until the outgoing pump comes to it, behind messages that
are older than itself, and is written then, unless the connection is aborted (`Engine.Ahead`).

This is to hold for any way in which the connection is opened and closed meanwhile. What opening and
closing do to the state, bit by bit, is to steer it: they change the lifecycle, the wish to abort
and the entrance to the queue, and nothing else (`Connection.Steers`). So a turn is a step of
anybody who leaves the messages alone, or a bit of steering (`Engine.Turn`).
-/

set_option autoImplicit false

namespace RespMux

namespace Connection

variable {owned accepted gain : List MessageId} {lost : MessageId → Prop}
variable {c c₁ c' : Connection} {id : MessageId}

/-! ## Steering -/

/-- Only the lifecycle, the wish to abort and the entrance to the queue have changed. Whoever wants
the connection to be aborted keeps wanting it, and a queue that has been closed stays so. -/
structure Steers (c c' : Connection) : Prop where
  config : c'.config = c.config
  store : c'.store = c.store
  high : c'.queue.high = c.queue.high
  standard : c'.queue.standard = c.queue.standard
  ledger : c'.ledger = c.ledger
  transactions : c'.transactions = c.transactions
  down : c'.isShutDown = c.isShutDown
  aborting : c.aborting = true → c'.aborting = true
  closed : c.queue.isClosed = true → c'.queue.isClosed = true

theorem Steers.refl (c : Connection) : Steers c c :=
  ⟨rfl, rfl, rfl, rfl, rfl, rfl, rfl, fun h => h, fun h => h⟩

theorem steers_state (c : Connection) (state : Lifecycle) : Steers c { c with state := state } :=
  ⟨rfl, rfl, rfl, rfl, rfl, rfl, rfl, fun h => h, fun h => h⟩

theorem steers_transition (c : Connection) (origins : List Lifecycle) (target : Lifecycle) :
    Steers c (c.transition origins target).2 := by
  obtain ⟨state, heq⟩ := c.transition_eq origins target
  rw [heq]
  exact c.steers_state state

theorem steers_abort (c : Connection) : Steers c { c with aborting := true } :=
  ⟨rfl, rfl, rfl, rfl, rfl, rfl, rfl, fun _ => rfl, fun h => h⟩

theorem steers_closeQueue (c : Connection) : Steers c { c with queue := c.queue.close } :=
  ⟨rfl, rfl, rfl, rfl, rfl, rfl, rfl, fun h => h, fun _ => rfl⟩

theorem Steers.queue (h : Steers c c') : c'.queue.toList = c.queue.toList := by
  unfold PriorityQueue.toList
  rw [h.high, h.standard]

theorem Steers.sound (h : Steers c c') (hs : c.Sound owned accepted) :
    c'.Sound owned accepted where
  custody := by
    rw [h.queue, h.ledger, h.store]
    exact hs.custody
  collected t j hj := by
    unfold collected at hj
    rw [h.transactions] at hj
    exact hs.collected t j hj
  recording hd := by
    rw [h.ledger]
    exact hs.recording (h.down.symm.trans hd)
  down hd := by
    obtain ⟨hclosed, hqueue, hledger, haborting⟩ := hs.down (h.down.symm.trans hd)
    rw [h.queue, h.ledger]
    exact ⟨h.closed hclosed, hqueue, hledger, h.aborting haborting⟩

theorem Steers.places (h : Steers c c') (id : MessageId) : c'.places id = c.places id := by
  unfold Connection.places gathered
  rw [h.transactions, h.store]

end Connection

namespace Engine

variable {accepted ids : List MessageId} {config : Config} {e e' : Engine} {ev : Event}
variable {c : Connection} {r : Request} {id x : MessageId}

/-! ## Turns -/

/-- The step hands the message in, asks for its outcome, or gives it up. -/
def touches (e : Engine) : Event → MessageId → Bool
  | .attach j _, id => j = id
  | .put _ j _, id => j = id
  | .submit _ j _ _, id => j = id
  | .fail j _, id => j = id
  | .cancel j, id => j = id
  | .cancelThrough k, id => (e.store.completions[k]?).bind Completion.target = some id
  | _, _ => false

theorem deals_of_touches (h : e.touches ev id = false) : ev.deals id = false := by
  cases ev with
  | put target j priority => exact h
  | submit target j priority shape => exact h
  | fail j error => exact h
  | _ => rfl

/-- A message that is not touched does not fail by itself. -/
theorem not_struck (h : e.touches ev id = false) (hplaces : e.connection.places id = 0)
    (hlt : id < e.store.messages.size) : ¬ e.Struck ev id := by
  rintro (hstrikes | ⟨k, d, rfl, hk, ht⟩ | hplace | hle)
  · cases ev with
    | submit target j priority shape => exact of_decide_eq_false h hstrikes
    | fail j error => exact of_decide_eq_false h hstrikes
    | cancel j => exact of_decide_eq_false h hstrikes
    | _ => exact hstrikes
  · refine of_decide_eq_false h ?_
    rw [hk]
    exact ht
  · rw [hplaces] at hplace
    exact absurd hplace (Nat.lt_irrefl 0)
  · exact absurd hlt (Nat.not_lt.mpr hle)

/-- A step of somebody who leaves the messages alone, and neither opens nor closes the connection as
a whole, or a bit of steering. -/
inductive Turn (ids : List MessageId) (e : Engine) : Engine → Prop where
  | works {ev : Event} {e' : Engine} (h : e.step ev = some e') (hev : ev.steersLifecycle = false)
      (hfree : ∀ id ∈ ids, e.touches ev id = false) : Turn ids e e'
  | steers {c : Connection} (h : e.connection.Steers c) : Turn ids e (e.withConnection c)

/-- What holds however the connection is opened and closed: everything is in custody, the blocks
hold the completers of their batches, and what has been written is what has been answered and what
is in flight. -/
structure Basis (config : Config) (e : Engine) : Prop extends Kept (fun _ => True) e where
  pledged : e.Pledged fun _ => True
  config : e.connection.config = config
  tape : e.connection.isShutDown = false →
    e.tape = e.answered.map Prod.fst ++ e.connection.ledger.entries

theorem new_basis (config : Config) : Basis config (new config) where
  toKept := new_kept _ config
  pledged := new_pledged _ config
  config := rfl
  tape _ := rfl

theorem Basis.step_tape (hb : Basis config e) (h : e.step ev = some e')
    (hopen : e'.connection.isShutDown = false) :
    e'.tape = e'.answered.map Prod.fst ++ e'.connection.ledger.entries := by
  rcases step_frames hb.sound h with ⟨-, hrests | ⟨fs, hwrites⟩⟩
      | ⟨r, -, -, ⟨-, hrests⟩ | ⟨f, -, htakes⟩⟩
  · rw [hrests.tape, hrests.answered, hrests.continues.ledger hopen]
    exact hb.tape (hrests.continues.open hopen)
  · have htape : e'.tape = e.tape ++ fs := hwrites.tape
    rw [htape, hwrites.answered, hwrites.entries hopen, hb.tape (hwrites.open hopen),
      List.append_assoc]
  · have htape : e'.tape = e.tape := hrests.tape
    have hledger : e'.connection.ledger = e.connection.ledger := hrests.continues.ledger hopen
    have hanswered : e'.answered = e.answered := hrests.answered
    rw [htape, hledger, hanswered]
    exact hb.tape (hrests.continues.open hopen)
  · rw [htakes.tape, htakes.answered, hb.tape (htakes.open hopen), htakes.entries hopen,
      List.map_append, List.append_assoc]
    rfl

theorem Basis.step (hb : Basis config e) (h : e.step ev = some e') : Basis config e' where
  toKept := hb.toKept.step (fun _ _ => trivial) h
  pledged := step_pledged hb.sound hb.fated hb.pledged h
  config := (step_config hb.sound h).trans hb.config
  tape := hb.step_tape h

theorem Basis.steer (hb : Basis config e) (h : e.connection.Steers c) :
    Basis config (e.withConnection c) := by
  have hstore : (e.withConnection c).store = e.store := h.store
  have hledger : (e.withConnection c).connection.ledger = e.connection.ledger := h.ledger
  have hframes : (e.withConnection c).framesOf = e.framesOf := by
    unfold framesOf
    rw [hstore]
    rfl
  have hspares : Connection.Spares (fun _ => True) e.owned [] e.connection c :=
    Connection.spares_of_eq h.store (fun j hj => h.queue ▸ hj) h.transactions
  constructor
  case toKept =>
    refine ⟨h.sound hb.sound, (hspares hb.sound hb.fated).1, ?_⟩
    constructor
    · rw [hstore]
      exact hb.recorded.known
    · rw [hframes]
      exact hb.recorded.once
    · rw [hframes, hstore]
      exact hb.recorded.unsent
    · rw [hframes, hstore]
      exact hb.recorded.cause
  case pledged =>
    unfold Pledged
    rw [hstore, hledger]
    exact hb.pledged
  case config => exact h.config.trans hb.config
  case tape =>
    intro hopen
    rw [hledger]
    exact hb.tape (h.down.symm.trans hopen)

theorem Basis.turn (hb : Basis config e) (h : Turn ids e e') : Basis config e' := by
  cases h with
  | works h => exact hb.step h
  | steers h => exact hb.steer h

/-- Nobody changes his mind about aborting the connection. -/
theorem Turn.aborting (h : Turn ids e e') (hs : e.Sound accepted)
    (ha : e.connection.aborting = true) : e'.connection.aborting = true := by
  cases h with
  | works h hev => exact (step_drifts hs hev h).aborting ha
  | steers h => exact h.aborting ha

/-! ## Reserved messages -/

/-- A message of a caller with the request `r`, which is not meant for a block. -/
structure Reserved (r : Request) (id : MessageId) (e : Engine) : Prop where
  carries : e.store.Carries id r
  owned : id ∈ e.owned
  apart : e.connection.places id = 0

theorem Reserved.lt_size (hr : Reserved r id e) : id < e.store.messages.size :=
  hr.carries.isSingle.lt_size

theorem Reserved.turn (hr : Reserved r id e) (hb : Basis config e) (h : Turn ids e e')
    (hid : id ∈ ids) : Reserved r id e' := by
  cases h with
  | works h hev hfree =>
      have hnone := Event.not_gathers_of_deals (deals_of_touches (hfree id hid))
      have hplaces := step_places hb.sound hb.fated h id
      rw [List.count_eq_zero.mpr hnone, hr.apart] at hplaces
      exact ⟨(step_grows hb.sound h).carries hr.carries, step_owns h hr.owned,
        Nat.le_zero.mp hplaces⟩
  | steers h =>
      refine ⟨?_, hr.owned, (h.places id).trans hr.apart⟩
      rw [show (e.withConnection _).store = e.store from h.store]
      exact hr.carries

/-- It is in no batch. -/
theorem Reserved.not_member (hr : Reserved r id e) {b : MessageId} {ms : List MessageId}
    (hbatch : e.store.IsBatch b ms) : id ∉ ms := by
  intro hmem
  have hpos : 0 < e.connection.places id := Connection.places_pos_of_batch hbatch hmem
  rw [hr.apart] at hpos
  exact absurd hpos (Nat.lt_irrefl 0)

/-- So what fails with a message of the queue does not concern it, unless it is that message. -/
theorem Reserved.not_in_scope (hr : Reserved r id e) (hs : e.Sound accepted)
    (hx : x ∈ e.connection.queue.toList) (hne : x ≠ id) : id ∉ e.store.scopeOf x := by
  have wf : e.store.WellFormed := hs.custody.wellFormed
  rcases hs.custody.kinds.queued_kind x hx with ho | ⟨ms, hbatch⟩
  · rw [wf.scopeOf_single (hs.custody.kinds.owned_single x ho), List.mem_singleton]
    exact Ne.symm hne
  · rw [wf.scopeOf_batch hbatch, List.mem_append, List.mem_singleton, not_or]
    exact ⟨hr.not_member hbatch, Ne.symm hne⟩

/-! ## Waiting -/

/-- A round for another message leaves it where it is. -/
theorem Reserved.round_phase (hr : Reserved r id e) (hs : e.Sound accepted)
    (hn : e.store.phase id = .notSent) (h : e.step .round = some e')
    (hopen : e'.connection.isShutDown = false)
    (hnext : ∀ l, e.connection.queue.toList ≠ id :: l) : e'.store.phase id = .notSent := by
  obtain ⟨x, rest, hqueue, -, -, ⟨-, -, hchanges⟩ | ⟨fs, -, hpick⟩⟩ := round_cases hs h
  · have hne : x ≠ id := fun heq => hnext rest (heq ▸ hqueue)
    have hx : x ∈ e.connection.queue.toList := hqueue ▸ List.mem_cons_self
    rcases hchanges.phase hs hr.lt_size (hr.not_in_scope hs hx hne) with hsame | hdown
    · exact hsame.trans hn
    · cases hopen.symm.trans hdown
  · have hne : x ≠ id := fun heq => hnext _ (heq ▸ hpick.queue)
    obtain ⟨sel, hdispatch⟩ := hpick.dispatch
    have hn₁ : (e.store.markSent x).2.phase id = .notSent :=
      (Store.phase_congr (Store.markSent_messages_ne hne)).trans hn
    have hlt : id < (e.store.markSent x).2.messages.size := by
      rw [Store.markSent_size]
      exact hr.lt_size
    refine Classical.byContradiction fun hp => ?_
    obtain ⟨ms, hbatch, hmem⟩ := hdispatch.mem_of_picked hlt hn₁ hp
    exact hr.not_member (Store.markSent_batches.mp hbatch) hmem

/-- Nobody but the outgoing pump picks it up, and nobody else makes it fail. -/
theorem Reserved.step_phase (hr : Reserved r id e) (hb : Basis config e)
    (hn : e.store.phase id = .notSent) (h : e.step ev = some e')
    (hfree : e.touches ev id = false) (hround : ev ≠ .round) (hfinish : ev ≠ .finish)
    (hopen : e'.connection.isShutDown = false) : e'.store.phase id = .notSent := by
  have hgives : ¬ e.GivesUp ev id := fun hgives =>
    not_struck hfree hr.apart hr.lt_size (hgives.struck hb.sound hb.fated.fates.target)
  exact (step_stays hb.sound hn (Or.inl hr.owned) hround hfinish h hopen).resolve_right hgives

/-! ## The way through the queue -/

/-- What a step writes: new messages, and in a round the next message of the queue if this is still
to be sent. -/
theorem step_writes (hs : e.Sound accepted) (h : e.step ev = some e') :
    ∃ fs, e'.tape = e.tape ++ fs ∧ ∀ j, .message j ∈ fs → e.store.messages.size ≤ j
      ∨ (e.connection.aborting = false ∧ ∃ l, e.connection.queue.toList = j :: l) := by
  by_cases hround : ev = .round
  · subst hround
    obtain ⟨x, rest, -, -, -, ⟨-, htape, -⟩ | ⟨fs, htape, hpick⟩⟩ := round_cases hs h
    · exact ⟨[], htape.trans (List.append_nil _).symm, fun j hj => by cases hj⟩
    · obtain ⟨sel, hdispatch⟩ := hpick.dispatch
      refine ⟨fs, htape, fun j hj => ?_⟩
      rcases hdispatch.frames hj with rfl | hle
      · exact Or.inr ⟨hpick.running, _, hpick.queue⟩
      · rw [Store.markSent_size] at hle
        exact Or.inl hle
  by_cases hfinish : ev = .finish
  · subst hfinish
    obtain ⟨hfault, rfl⟩ := step_finish h
    obtain ⟨-, fs, htape, hfs⟩ := finish_frames hs hfault
    exact ⟨fs, htape, fun j hj => Or.inl (hfs j hj).1⟩
  · exact ⟨[], (step_tape hs hround hfinish h).trans (List.append_nil _).symm,
      fun j hj => by cases hj⟩

theorem Turn.writes (h : Turn ids e e') (hs : e.Sound accepted) :
    ∃ fs, e'.tape = e.tape ++ fs ∧ ∀ j, .message j ∈ fs → e.store.messages.size ≤ j
      ∨ (e.connection.aborting = false ∧ ∃ l, e.connection.queue.toList = j :: l) := by
  cases h with
  | works h => exact step_writes hs h
  | steers h => exact ⟨[], (List.append_nil e.tape).symm, fun j hj => by cases hj⟩

/-- The message waits behind older ones in the high lane, or it has been written, unless the
connection is being aborted. -/
inductive Ahead (id : MessageId) (e : Engine) : Prop where
  | aborting (ha : e.connection.aborting = true)
  | written (hf : .message id ∈ e.tape)
  | waits {before after : List MessageId} (hn : e.store.phase id = .notSent)
      (hlane : e.connection.queue.high = before ++ id :: after) (holder : ∀ j ∈ before, j < id)

/-- No younger message is the next one as long as it waits. -/
theorem Ahead.written_of_next (h : Ahead id e) (ha : e.connection.aborting = false)
    {l : List MessageId} (hqueue : e.connection.queue.toList = x :: l) (hlt : id < x) :
    .message id ∈ e.tape := by
  cases h with
  | aborting haborting => cases ha.symm.trans haborting
  | written hf => exact hf
  | @waits before after hn hlane holder =>
      exfalso
      unfold PriorityQueue.toList at hqueue
      rw [hlane] at hqueue
      cases before with
      | nil =>
          cases hqueue
          exact Nat.lt_irrefl _ hlt
      | cons y before =>
          cases hqueue
          exact Nat.lt_asymm hlt (holder x List.mem_cons_self)

/-- A round comes one message nearer to it. -/
theorem Ahead.round {before after : List MessageId} (hn : e.store.phase id = .notSent)
    (hlane : e.connection.queue.high = before ++ id :: after) (holder : ∀ j ∈ before, j < id)
    (hr : Reserved r id e) (hdb : r.db = none) (hs : e.Sound accepted)
    (h : e.step .round = some e') : Ahead id e' := by
  cases ha : e'.connection.aborting with
  | true => exact .aborting ha
  | false =>
      obtain ⟨x, overtook, q, wakes, hnext, hqueue, -, -⟩ := round_handles hs h
      cases before with
      | nil =>
          -- it is the next one, and it is picked up
          have hhead : e.connection.queue.toList = id :: (after ++ e.connection.queue.standard) := by
            unfold PriorityQueue.toList
            rw [hlane]
            rfl
          obtain ⟨y, rest, hy, -, -, ⟨haborting | hne, -⟩ | ⟨fs, htape, hpick⟩⟩ := round_cases hs h
          · cases ha.symm.trans ((drifts_round hs h).aborting haborting)
          · obtain ⟨rfl, -⟩ := List.cons.inj (hhead.symm.trans hy)
            exact absurd hn hne
          · obtain ⟨rfl, -⟩ := List.cons.inj (hhead.symm.trans hpick.queue)
            obtain ⟨sel, hdispatch⟩ := hpick.dispatch
            have hcarries : (e.store.markSent id).2.Carries id r :=
              (Store.markSent_sends e.store id).grows.carries hr.carries
            refine .written ?_
            rw [htape, hdispatch.eq_singleton hcarries hdb]
            exact List.mem_append_right _ (List.mem_singleton_self _)
      | cons y before =>
          have hhead : e.connection.queue.toList
              = y :: (before ++ id :: after ++ e.connection.queue.standard) := by
            unfold PriorityQueue.toList
            rw [hlane]
            rfl
          have hlane' : e'.connection.queue.high = before ++ id :: after := by
            rw [PriorityQueue.next?_high hlane] at hnext
            cases hnext
            rw [hqueue]
            rfl
          have hopen := (step_sound hs h).open_of_not_aborting ha
          refine .waits (hr.round_phase hs hn h hopen fun l heq => ?_) hlane'
            fun j hj => holder j (List.mem_cons_of_mem y hj)
          obtain ⟨rfl, -⟩ := List.cons.inj (hhead.symm.trans heq)
          exact Nat.lt_irrefl _ (holder y List.mem_cons_self)

theorem Ahead.turn (ha : Ahead id e) (hb : Basis config e) (hr : Reserved r id e)
    (hdb : r.db = none) (h : Turn ids e e') (hid : id ∈ ids) : Ahead id e' := by
  cases ha with
  | aborting ha => exact .aborting (h.aborting hb.sound ha)
  | written hf =>
      obtain ⟨fs, htape, -⟩ := h.writes hb.sound
      exact .written (htape ▸ List.mem_append_left fs hf)
  | @waits before after hn hlane holder =>
      cases h with
      | steers h =>
          refine .waits ?_ (h.high.trans hlane) holder
          rw [show (e.withConnection _).store = e.store from h.store]
          exact hn
      | @works ev _ h hev hfree =>
          by_cases hround : ev = .round
          · subst hround
            exact .round hn hlane holder hr hdb hb.sound h
          by_cases hfinish : ev = .finish
          · -- the pump does not come to its end while a message waits
            subst hfinish
            have hqueue := step_finish_empty h
            unfold PriorityQueue.toList at hqueue
            rw [hlane] at hqueue
            simp at hqueue
          cases haborting : e'.connection.aborting with
          | true => exact .aborting haborting
          | false =>
              have hopen := (step_sound hb.sound h).open_of_not_aborting haborting
              obtain ⟨more, hmore⟩ := (step_inLine hb.sound hround hfinish h).lane hopen
              have hlane' : e'.connection.queue.high = before ++ id :: (after ++ more) := by
                rw [← hmore, hlane, List.append_assoc]
                rfl
              exact .waits (hr.step_phase hb hn h (hfree id hid) hround hfinish hopen) hlane' holder

/-- Whenever the second message is written, the first one has been written before. -/
def Behind (first second : MessageId) (e : Engine) : Prop :=
  ∀ before after, e.tape = before ++ .message second :: after → .message first ∈ before

theorem Behind.turn {first second : MessageId} (hbehind : Behind first second e)
    (ha : Ahead first e) (hs : e.Sound accepted) (hlt : first < second)
    (hsize : second < e.store.messages.size) (h : Turn ids e e') : Behind first second e' := by
  obtain ⟨fs, htape, hfs⟩ := h.writes hs
  -- a frame that comes now comes behind everything that has been written
  have hnew : .message second ∈ fs → .message first ∈ e.tape := by
    intro hmem
    rcases hfs second hmem with hle | ⟨hrunning, l, hqueue⟩
    · exact absurd hsize (Nat.not_lt.mpr hle)
    · exact ha.written_of_next hrunning hqueue hlt
  intro before after heq
  rw [htape] at heq
  rcases List.append_eq_append_iff.mp heq with ⟨l, rfl, hsplit⟩ | ⟨l, hsplit, hrest⟩
  · refine List.mem_append_left _ (hnew ?_)
    rw [hsplit]
    exact List.mem_append_right _ List.mem_cons_self
  · cases l with
    | nil =>
        rw [List.append_nil] at hsplit
        rw [← hsplit]
        have hfs' : .message second :: after = fs := hrest
        exact hnew (hfs' ▸ List.mem_cons_self)
    | cons f l =>
        cases hrest
        exact hbehind before l hsplit

end Engine

end RespMux
