import RespMux.Proofs.Connection.Changes
import RespMux.Proofs.Engine.Fates

/-!
# The steps of the pumps

A step of a pump is one move that only the pump makes, and then elementary changes like those of
callers. In a round the outgoing pump picks a message up (`PicksUp`), or it fails or skips it, which
is nothing special. At its end it may record a good-bye. The incoming pump takes a frame out of the
ledger and gives its outcomes; what follows then, if anything, is a shutdown.
-/

set_option autoImplicit false

namespace RespMux

namespace Engine

variable {accepted : List MessageId} {e e' : Engine} {lost : MessageId → Prop}

/-! ## The outgoing pump -/

/-- The pump has taken the message out of the queue, picked it up and recorded the frames for it. -/
structure PicksUp (id : MessageId) (fs : List InFlight) (e : Engine) (c : Connection) : Prop where
  queue : e.connection.queue.toList = id :: c.queue.toList
  running : e.connection.aborting = false
  waiting : e.store.phase id = .notSent
  dispatch : ∃ sel, Dispatches (e.store.markSent id).2 e.writer.selected id c.store fs sel
  entries : c.ledger.entries = e.connection.ledger.entries ++ fs
  transactions : c.transactions = e.connection.transactions

/-- What a round does with the next message of the queue. -/
theorem round_cases (hs : e.Sound accepted) (h : e.step .round = some e') :
    ∃ id rest, e.connection.queue.toList = id :: rest ∧ e'.connection.queue.toList = rest
      ∧ e'.owned = e.owned
      ∧ ((e.connection.aborting = true ∨ e.store.phase id ≠ .notSent) ∧ e'.tape = e.tape
          ∧ Connection.Changes e.owned accepted (· ∈ e.store.scopeOf id) e.connection []
            e'.connection
        ∨ ∃ fs, e'.tape = e.tape ++ fs ∧ PicksUp id fs e e'.connection) := by
  have hsound : e'.Sound accepted := step_sound hs h
  obtain ⟨id, overtook, q, wakes, hnext, hfault, rfl⟩ := step_round h
  have hready := withQueue_ready hs hfault (hs.next_open hnext) q
  refine ⟨id, q.toList, PriorityQueue.next?_toList hnext, ?_⟩
  cases ha : e.connection.aborting with
  | true =>
      have heq : (e.withQueue q).handle id overtook
          = (e.withQueue q).withStore (e.store.fail id .aborted) :=
        Writer.handle_aborting (w := e.withQueue q) ha overtook
      rw [heq] at hsound ⊢
      refine ⟨rfl, rfl, Or.inl ⟨Or.inl rfl, rfl, .step (Connection.changes_fail .aborted fun _ hj => hj)
        (fun _ => ⟨hsound, ⟨.refl _, fun hd => hd, fun _ => rfl⟩⟩) ?_⟩⟩
      exact .aside rfl rfl fun _ => Nat.le_refl _
  | false =>
      by_cases hp : e.store.phase id = .notSent
      · obtain ⟨w, s', fs, sel, hdispatch, ⟨n, rfl⟩, heq⟩ :=
          Writer.handle_picked hready ha hp overtook
        have hconnection : ((e.withQueue q).handle id overtook).connection
            = ((e.withQueue q).after s' sel fs n).connection := by
          rw [heq, Writer.flush_connection]
        have hqueue : ((e.withQueue q).handle id overtook).connection.queue.toList = q.toList := by
          rw [hconnection]
          rfl
        refine ⟨hqueue, rfl, Or.inr ⟨fs, ?_, ?_, ha, hp, ⟨sel, ?_⟩, ?_, ?_⟩⟩
        · show ((e.withQueue q).handle id overtook).written
            ++ ((e.withQueue q).handle id overtook).buffer = _
          rw [heq, Writer.flush_all, Writer.Emits.tape ⟨n, rfl⟩]
          rfl
        · exact (PriorityQueue.next?_toList hnext).trans (congrArg _ hqueue.symm)
        · show Dispatches _ _ _ ((e.withQueue q).handle id overtook).connection.store _ _
          rw [hconnection]
          exact hdispatch
        · show ((e.withQueue q).handle id overtook).connection.ledger.entries = _
          rw [hconnection]
          rfl
        · show ((e.withQueue q).handle id overtook).connection.transactions = _
          rw [hconnection]
          rfl
      · have heq : (e.withQueue q).handle id overtook = (e.withQueue q).count .cancelled :=
          Writer.handle_skipped (w := e.withQueue q) ha hp overtook
        rw [heq] at hsound ⊢
        refine ⟨rfl, rfl, Or.inl ⟨Or.inr hp, rfl, .one
          (fun _ => ⟨hsound, ⟨.refl _, fun hd => hd, fun _ => rfl⟩⟩)
          (.aside rfl rfl fun _ => Nat.le_refl _)⟩⟩

/-- The good-bye has been recorded. -/
structure SaysGoodbye (e : Engine) (c : Connection) : Prop where
  store : c.store = e.store.issue .quit
  entries : c.ledger.entries = e.connection.ledger.entries ++ [.message e.store.messages.size]
  transactions : c.transactions = e.connection.transactions

/-- At its end the pump says good-bye or shuts the connection down. -/
theorem finish_cases (hs : e.Sound accepted) (h : e.step .finish = some e') :
    e'.owned = e.owned ∧
      (Connection.Changes e.owned accepted lost e.connection [] e'.connection
        ∨ ∃ c, SaysGoodbye e c ∧ c.Sound e.owned accepted
          ∧ Connection.Changes e.owned accepted lost c [] e'.connection) := by
  obtain ⟨hfault, rfl⟩ := step_finish h
  refine ⟨rfl, ?_⟩
  cases ha : e.connection.aborting with
  | true =>
      rw [finish_aborting hfault ha]
      exact Or.inl (e.connection.changes_shutdown "connection aborted" none)
  | false =>
      obtain ⟨w, hemit, heq, hsound⟩ := finish_emits hs hfault ha
      obtain ⟨state, hclosing⟩ := e.connection.transition_eq [.opening, .established] .closing
      have hclosing : e.closing.connection = { e.connection with state := state } := hclosing
      obtain ⟨n, rfl⟩ := hemit
      have hflushed : (e.closing.after (e.store.issue .quit) e.writer.selected
          [.message e.store.messages.size] n).flush.connection = _ := Writer.flush_connection _
      refine Or.inr ⟨_, ?_, hsound, ?_⟩
      · rw [hflushed]
        refine ⟨rfl, ?_, ?_⟩
        · show e.closing.connection.ledger.entries ++ _ = _
          rw [hclosing]
        · show e.closing.connection.transactions = _
          rw [hclosing]
      · rw [heq]
        exact changes_settle { e with writer := (e.closing.after (e.store.issue .quit)
          e.writer.selected [.message e.store.messages.size] n).flush }

end Engine

/-! ## The incoming pump -/

namespace Connection

/-- The oldest frame has been taken out of the ledger and has given its outcomes. -/
structure Hears (f : InFlight) (c c' : Connection) : Prop where
  entries : c.ledger.entries = f :: c'.ledger.entries
  resolves : ∃ ids, c.store.Resolves (fun _ => True) ids f.own c'.store
    ∧ ∀ j ∈ ids, j ∈ c.store.reach f
  transactions : c'.transactions = c.transactions

/-- What a reply does to a connection: the oldest frame gives its outcomes, and the connection may
be torn down. -/
theorem processReply_cases {owned accepted : List MessageId} {c : Connection} {f : InFlight}
    {fs : List InFlight} (hs : c.Sound owned accepted) (h : c.ledger.entries = f :: fs)
    (lost : MessageId → Prop) (r : Reply) :
    ∃ c₁, Hears f c c₁ ∧ c₁.Sound owned accepted
      ∧ Changes owned accepted lost c₁ [] (c.processReply r).2 := by
  have hopen := hs.open_of_cons h
  have hc := hs.custody
  rw [h] at hc
  have hsound := (processReply_keeps hs h r).1
  -- without a shutdown this is all
  have hquiet : Hears f c (c.processReply r).2 → ∃ c₁, Hears f c c₁ ∧ c₁.Sound owned accepted
      ∧ Changes owned accepted lost c₁ [] (c.processReply r).2 :=
    fun hears => ⟨_, hears, hsound, .refl⟩
  cases f with
  | message id =>
      have hbatch : ∀ ms, ¬ c.store.IsBatch id ms := hc.message_not_batch List.mem_cons_self
      have hr := Store.answer_resolves hc.wellFormed hbatch r
      obtain ⟨n, events, heq⟩ := (c.popped fs).answer_eq id r
      refine hquiet ?_
      rw [processReply_cons h]
      show Hears _ c (answer _ id r).2
      rw [heq]
      exact ⟨h, ⟨_, hr, fun j hj => hj⟩, rfl⟩
  | exec b =>
      have hsingle : ∀ j ∈ b.members, c.store.IsSingle j := fun j hj =>
        hc.kinds.owned_single j (hc.kinds.block_owned b List.mem_cons_self j hj)
      obtain ⟨n, events, heq⟩ := processReply_exec (r := r) h
      cases hres : b.results? r with
      | error e =>
          have hr := (Store.failBlock_resolves hc.wellFormed b e).mono
            (fun _ _ => trivial) (fun _ hj => hj) fun _ hk => hk
          refine hquiet ?_
          rw [heq]
          unfold answerBlock
          rw [hres]
          exact ⟨h, ⟨_, hr, fun j hj => hj⟩, rfl⟩
      | ok rs =>
          obtain ⟨-, hlen⟩ := results?_ok hres
          have hr := Store.answerBlock_resolves hc.wellFormed hlen hsingle
          have hreach : ∀ j ∈ b.members, j ∈ c.store.reach (.exec b) := fun j hj => by
            rw [hc.reach_block (hc.kinds.block_owned b List.mem_cons_self)]
            exact hj
          obtain ⟨n', events', heq'⟩ := (c.popped fs).answerBlock_eq hres
          rw [heq'] at heq
          split at heq
          · -- a critical command among the results tears the connection down
            next failure _ =>
            have hdropped := (hc.resolve hr).dropBlock
              (Store.answerBlock_phase hc.wellFormed hlen hsingle) (Store.answerBlock_given b rs)
            have hanswered : Sound owned accepted { c with
                ledger := { c.ledger with entries := fs }
                store := c.store.answerBlock b rs
                counters := n'
                events := events' } :=
              sound_of_open hdropped hs.collected hopen (hs.recording hopen)
            refine ⟨_, ?_, hanswered, ?_⟩
            · exact ⟨h, ⟨_, hr, hreach⟩, rfl⟩
            rw [heq] at hsound ⊢
            refine .step (changes_shutdown _ "a critical command failed" (some failure))
              (fun _ => ⟨hsound, ⟨.refl _, fun hd => hd, fun _ => rfl⟩⟩) ?_
            exact .aside rfl rfl fun _ => Nat.le_refl _
          · refine hquiet ?_
            rw [heq]
            exact ⟨h, ⟨_, hr, hreach⟩, rfl⟩

end Connection

namespace Engine

variable {accepted : List MessageId} {stray : MessageId → Prop} {e e' : Engine} {ev : Event}

/-- A reply is heard by the oldest frame, if there is one. -/
theorem reply_cases (hs : e.Sound accepted) (lost : MessageId → Prop) {r : Reply}
    (h : e.step (.reply r) = some e') :
    e'.owned = e.owned ∧
      ((e.connection.ledger.entries = [] ∧ e'.connection = e.connection)
        ∨ ∃ f c, Connection.Hears f e.connection c ∧ c.Sound e.owned accepted
          ∧ Connection.Changes e.owned accepted lost c [] e'.connection) := by
  obtain ⟨-, rfl⟩ := step_reply h
  refine ⟨rfl, ?_⟩
  cases hentries : e.connection.ledger.entries with
  | nil =>
      rw [Connection.processReply_nil hentries]
      exact Or.inl ⟨rfl, rfl⟩
  | cons f fs =>
      obtain ⟨c, hears, hsound, hchanges⟩ :=
        Connection.processReply_cases hs hentries lost r
      exact Or.inr ⟨f, c, hears, hsound, hchanges⟩

/-! ## Every step -/

/-- The move of a pump with which a step begins, if any. -/
inductive Opening (e : Engine) : Connection → Prop where
  | none : Opening e e.connection
  | picksUp {id : MessageId} {fs : List InFlight} {c : Connection} (h : PicksUp id fs e c) :
      Opening e c
  | saysGoodbye {c : Connection} (h : SaysGoodbye e c) : Opening e c
  | hears {f : InFlight} {c : Connection} (h : Connection.Hears f e.connection c) : Opening e c

/-- A step that makes no message is at most one move of a pump, and then elementary changes. -/
theorem step_opening (hs : e.Sound accepted) (hf : e.Fated stray) (h : e.step ev = some e')
    (hmake : ∀ r, ev ≠ .make r) :
    ∃ c gain lost, Opening e c ∧ c.Sound e.owned accepted ∧ gain.Sublist ev.gathers
      ∧ Connection.Changes e.owned accepted lost c gain e'.connection := by
  have hnil := List.nil_sublist ev.gathers
  cases hq : ev.isQuiet with
  | true =>
      obtain ⟨gain, hgain, hchanges⟩ := step_changes hs hf.fates.target hq hmake h
      exact ⟨_, gain, _, .none, hs, hgain, hchanges⟩
  | false =>
      cases ev with
      | round =>
          have hsound := step_sound hs h
          obtain ⟨x, rest, -, -, howned, ⟨-, -, hchanges⟩ | ⟨fs, -, hpick⟩⟩ := round_cases hs h
          · exact ⟨_, [], _, .none, hs, hnil, hchanges⟩
          · have hsound' : e'.connection.Sound e.owned accepted := howned ▸ hsound
            exact ⟨_, [], fun _ => False, .picksUp hpick, hsound', hnil, .refl⟩
      | finish =>
          obtain ⟨-, hchanges | ⟨c, hbye, hsound, hchanges⟩⟩ := finish_cases hs h
          · exact ⟨_, [], fun _ => False, .none, hs, hnil, hchanges⟩
          · exact ⟨c, [], _, .saysGoodbye hbye, hsound, hnil, hchanges⟩
      | reply r =>
          obtain ⟨-, ⟨-, heq⟩ | ⟨f, c, hears, hsound, hchanges⟩⟩ :=
            reply_cases hs (fun _ => False) h
          · rw [heq]
            exact ⟨_, [], fun _ => False, .none, hs, hnil, .refl⟩
          · exact ⟨c, [], _, .hears hears, hsound, hnil, hchanges⟩
      | _ => cases hq

/-- A message that waits goes on to wait, unless the outgoing pump picks it up, or somebody gives it
up, or the connection is torn down. -/
theorem step_stays {id : MessageId} (hs : e.Sound accepted) (hn : e.store.phase id = .notSent)
    (hid : id ∈ e.owned ∨ ∃ ms, e.store.IsBatch id ms) (hround : ev ≠ .round)
    (hfinish : ev ≠ .finish) (h : e.step ev = some e') (hopen : e'.connection.isShutDown = false) :
    e'.store.phase id = .notSent ∨ e.GivesUp ev id := by
  have hlt := Store.lt_size_of_notSent hn
  have hkept : ∀ {c : Connection} {gain : List MessageId} {lost : MessageId → Prop},
      c.Sound e.owned accepted → c.store.phase id = .notSent → ¬ lost id →
      Connection.Changes e.owned accepted lost c gain e'.connection →
      e'.store.phase id = .notSent := by
    intro c gain lost hsound hn₁ hlost hchanges
    rcases hchanges.phase hsound (Store.lt_size_of_notSent hn₁) hlost with hsame | hdown
    · exact hsame.trans hn₁
    · cases hopen.symm.trans hdown
  cases hq : ev.isQuiet with
  | true =>
      by_cases hgives : e.GivesUp ev id
      · exact Or.inr hgives
      left
      by_cases hmake : ∃ r, ev = .make r
      · obtain ⟨r, rfl⟩ := hmake
        cases h
        exact (Store.add_phase_of_lt _ hlt).trans hn
      · obtain ⟨gain, -, hchanges⟩ := step_changes_lost hs (fun _ hlost => hlost) hq
          (fun r hr => hmake ⟨r, hr⟩) h
        exact hkept hs hn (not_or.mpr ⟨hgives, Nat.not_le.mpr hlt⟩) hchanges
  | false =>
      cases ev with
      | round => exact absurd rfl hround
      | finish => exact absurd rfl hfinish
      | reply r =>
          left
          obtain ⟨-, ⟨-, heq⟩ | ⟨f, c, hears, hsound, hchanges⟩⟩ :=
            reply_cases hs (fun _ => False) h
          · show e'.connection.store.phase id = _
            rw [heq]
            exact hn
          · -- what a frame reaches has been picked up
            obtain ⟨ids, hresolves, hids⟩ := hears.resolves
            have hhead : f ∈ e.connection.ledger.entries := hears.entries ▸ List.mem_cons_self
            have hout : id ∉ ids := fun hmem => by
              rcases hid with howned | ⟨ms, hbatch⟩
              · exact hs.custody.phases.reached f hhead id (hids id hmem) howned hn
              · exact hs.custody.reach_not_isBatch hhead (hids id hmem) ms hbatch
            exact hkept hsound ((Store.phase_congr (hresolves.messages id hout)).trans hn)
              (fun hlost => hlost) hchanges
      | _ => cases hq

end Engine

end RespMux
