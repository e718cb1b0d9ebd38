import RespMux.Proofs.Alignment
import RespMux.Proofs.Isolation

/-!
# Refused choices of a database

Before a command for another database the pump writes a choice of that database, which nobody has
asked for. As a command of its own this choice must succeed: when the server refuses it, the
connection is torn down and the listener is told why (`receive_refused`). Inside a block it has a
slot for no message, and the result in such a slot goes to nobody. So nothing follows from a refusal
there. Only the results of the members count (`answerSlots_memberResults`): they decide whether the
connection survives, and a block in which every choice has been refused is given out like one in
which every choice has been accepted.
-/

set_option autoImplicit false

namespace RespMux

/-! ## The results of the members -/

/-- What stands in the other slots does not matter. -/
theorem memberResults_zip {slots : List (Option MessageId)} {rs rs' : List Reply}
    (h : rs.length = slots.length) (h' : rs'.length = slots.length)
    (hsame : ∀ (i : Nat) (j : MessageId), slots[i]? = some (some j) → rs[i]? = rs'[i]?) :
    memberResults (slots.zip rs) = memberResults (slots.zip rs') := by
  induction slots generalizing rs rs' with
  | nil => rfl
  | cons slot slots ih =>
      obtain ⟨r, rs, rfl⟩ := List.exists_cons_of_length_eq_add_one h
      obtain ⟨r', rs', rfl⟩ := List.exists_cons_of_length_eq_add_one h'
      have hrest : memberResults (slots.zip rs) = memberResults (slots.zip rs') :=
        ih (Nat.succ.inj h) (Nat.succ.inj h') fun i j hi => hsame (i + 1) j hi
      cases slot with
      | none => exact hrest
      | some j =>
          have hr : r = r' := by simpa using hsame 0 j rfl
          simp only [List.zip_cons_cons, memberResults_some, hr, hrest]

theorem Request.failure?_isSome {q : Request} {r : Reply} :
    (q.failure? r).isSome = true ↔ q.critical = true ∧ (q.judge r).isError = true := by
  unfold failure?
  cases q.judge r with
  | error t =>
      cases q.critical with
      | true => simp [Reply.isError]
      | false => simp
  | _ => simp [Reply.isError]

theorem EventLog.mem_publishAll {l : EventLog} {xs : List ErrorEvent} {x : ErrorEvent}
    (h : x ∈ (l.publishAll xs).kept) : x ∈ l.kept ∨ x ∈ xs := by
  induction xs generalizing l with
  | nil => exact .inl h
  | cons y xs ih =>
      rcases ih h with hkept | hmem
      · unfold publish at hkept
        split at hkept
        · exact .inl hkept
        · rcases List.mem_append.mp (List.mem_of_mem_drop hkept) with hmem | hmem
          · exact .inl hmem
          · exact .inr (List.mem_singleton.mp hmem ▸ List.mem_cons_self)
      · exact .inr (List.mem_cons_of_mem y hmem)

namespace Store

/-- A member of the block that must succeed has got an error. -/
def MemberFails (s : Store) (b : Block) (rs : List Reply) : Prop :=
  ∃ j r, (j, r) ∈ memberResults (b.slots.zip rs) ∧ (s.requestOf j).critical = true
    ∧ ((s.requestOf j).judge r).isError = true

theorem memberFails_iff {s : Store} {b : Block} {rs : List Reply} :
    s.MemberFails b rs ↔ s.failures (b.pairs rs) ≠ [] := by
  unfold MemberFails failures
  rw [Ne, List.filterMap_eq_nil_iff]
  constructor
  · rintro ⟨j, r, hmem, hfails⟩ hnone
    have hsome := Request.failure?_isSome.mpr hfails
    rw [hnone (j, r) hmem] at hsome
    cases hsome
  · intro hsome
    by_contra hnone
    refine hsome fun x hx => ?_
    rw [← Option.not_isSome_iff_eq_none, Request.failure?_isSome]
    exact fun hfails => hnone ⟨x.1, x.2, hx, hfails⟩

end Store

namespace Connection

variable {c : Connection} {b : Block} {fs : List InFlight} {rs rs' : List Reply}

/-- The results in the slots of no message are passed over. -/
theorem answerSlots_memberResults (c : Connection) (l : List (Option MessageId × Reply)) :
    c.answerSlots l = c.answerSlots ((memberResults l).map fun x => (some x.1, x.2)) := by
  induction l generalizing c with
  | nil => rfl
  | cons x l ih =>
      obtain ⟨slot, r⟩ := x
      cases slot with
      | none => exact ih c
      | some id =>
          simp only [memberResults_some, List.map_cons, answerSlots]
          rw [ih]

theorem answerBlock_congr (c : Connection) (h : rs.length = b.slots.length)
    (h' : rs'.length = b.slots.length)
    (hsame : ∀ (i : Nat) (j : MessageId), b.slots[i]? = some (some j) → rs[i]? = rs'[i]?) :
    c.answerBlock b (.multi rs) = c.answerBlock b (.multi rs') := by
  have hres : b.results? (.multi rs) = .ok rs := if_pos h
  have hres' : b.results? (.multi rs') = .ok rs' := if_pos h'
  have hslots : c.answerSlots (b.slots.zip rs) = c.answerSlots (b.slots.zip rs') := by
    rw [answerSlots_memberResults, memberResults_zip h h' hsame, ← answerSlots_memberResults]
  unfold answerBlock
  rw [hres, hres']
  dsimp only
  rw [hslots]

/-! ## A command of its own -/

/-- A choice of a database that is a command of its own must succeed. -/
theorem receive_refused {x : MessageId} {d : Database} {r : Reply} {t : String}
    (h : c.ledger.entries = .message x :: fs) (hx : c.store.Carries x (.select d))
    (hr : (Request.select d).judge r = .error t) (hopen : c.isShutDown = false) :
    (c.receive (.reply r)).1 = false
      ∧ (c.receive (.reply r)).2.isShutDown = true
      ∧ (c.receive (.reply r)).2.events
        = c.events.publish ⟨.criticalFailure (Request.select d).display t,
          "a critical command failed", true⟩ := by
  have hrequest : c.store.requestOf x = .select d := hx.requestOf
  have hprocessed : c.processReply r = (some (.criticalFailure (Request.select d).display t),
      c.replied fs x (.error t)) := by
    rw [processReply_refused h (hrequest ▸ hr), hrequest]
    rfl
  rw [receive_fatal hprocessed]
  exact ⟨rfl, shutdown_down _ _ _,
    shutdown_events (c := c.replied fs x (.error t)) hopen _ _⟩

end Connection

/-! ## From the queue to the results -/

/-- The slot for no message stands at the place of an envelope around a choice of a database. -/
theorem Layout.switches {s : Store} {db db' : Option Database} {ids : List MessageId}
    {fs : List InFlight} {slots : List (Option MessageId)} (h : Layout s db ids fs slots db')
    {i : Nat} (hi : slots[i]? = some none) :
    ∃ x choice d, fs[i]? = some (.message x) ∧ s.IsEnvelope x choice
      ∧ s.Carries choice (.select d) := by
  induction h generalizing i with
  | nil db => simp at hi
  | stays hm hstay he rest ih =>
      cases i with
      | zero => simp at hi
      | succ i => exact ih hi
  | moves hm hd hne hs hchoice hce he rest ih =>
      rcases i with _ | _ | i
      · exact ⟨_, _, _, rfl, hce, hchoice⟩
      · simp at hi
      · exact ih hi

namespace Engine

variable {accepted : List MessageId} {e e' : Engine} {evs : List Event}
variable {id multi : MessageId} {ms : List MessageId} {fs : List InFlight} {b : Block}

/-- From `e` to `e'` a block has been written for the batch `id` of the messages `ms`, and nobody
hears of the results of the choices of databases in it. -/
structure Unheard (e e' : Engine) (id : MessageId) (ms : List MessageId) (multi : MessageId)
    (fs : List InFlight) (b : Block) : Prop where
  block : WritesBlock e e' id ms multi fs b
  /-- a slot for no message stands at the place of a choice of a database -/
  switches : ∀ i : Nat, b.slots[i]? = some none → ∃ x choice d, fs[i]? = some (.message x)
    ∧ e'.store.IsEnvelope x choice ∧ e'.store.Carries choice (.select d)
  /-- whatever the results in these slots are, the connection is the same afterwards -/
  same : ∀ evs e₁ rest log rs rs' e₂ e₂', e'.run evs = some e₁ →
    e₁.connection.ledger.entries = .exec b :: rest → rs.length = fs.length →
    rs'.length = fs.length →
    (∀ (i : Nat) (j : MessageId), b.slots[i]? = some (some j) → rs[i]? = rs'[i]?) →
    (e₁.listening log).step (.reply (.multi rs)) = some e₂ →
    (e₁.listening log).step (.reply (.multi rs')) = some e₂' →
    e₂.connection = e₂'.connection ∧ e₂.failure = e₂'.failure
  /-- it stays open, the members get their results, and the listener is told of nothing fatal,
  unless a member that must succeed has failed -/
  survives : ∀ evs e₁ rest log rs e₂, e'.run evs = some e₁ →
    e₁.connection.ledger.entries = .exec b :: rest → rs.length = fs.length →
    ¬ e₁.store.MemberFails b rs → (e₁.listening log).step (.reply (.multi rs)) = some e₂ →
    e₂.connection.isShutDown = false ∧ e₂.connection.state = e₁.connection.state
      ∧ e₂.failure = none ∧ GivesOut e₁ e₂ b rs
      ∧ ∀ x ∈ e₂.connection.events.kept, x.fatal = true → x ∈ log.kept
  /-- and only then it is torn down -/
  ends : ∀ evs e₁ rest log rs e₂, e'.run evs = some e₁ →
    e₁.connection.ledger.entries = .exec b :: rest → rs.length = fs.length →
    e₁.store.MemberFails b rs → (e₁.listening log).step (.reply (.multi rs)) = some e₂ →
    e₂.connection.isShutDown = true
  /-- while a choice that is refused as a message of its own ends the connection at once, and the
  listener is told why -/
  alone : ∀ evs e₁ x rest log d r t, e'.run evs = some e₁ →
    e₁.connection.ledger.entries = .message x :: rest → e₁.store.Carries x (.select d) →
    (Request.select d).judge r = .error t →
    ((e₁.listening log).connection.receive (.reply r)).1 = false
      ∧ ((e₁.listening log).connection.receive (.reply r)).2.isShutDown = true
      ∧ ((e₁.listening log).connection.receive (.reply r)).2.events
        = log.publish ⟨.criticalFailure (Request.select d).display t,
          "a critical command failed", true⟩

/-- In every state that a run can reach, and whatever database the pump takes to be selected, the
next batch in the queue is written as a block of which only the results of the members are heard. -/
theorem switches_unheard {config : Config} (h : (new config).run evs = some e)
    (db : Option Database)
    (hnext : (e.connection.queue.next?).map (fun x => x.1.1) = some id)
    (hb : e.store.IsBatch id ms) (hp : e.store.phase id = .notSent)
    (ha : e.connection.aborting = false) (hstep : (e.tracking db).step .round = some e') :
    ∃ multi fs b, Unheard (e.tracking db) e' id ms multi fs b := by
  have hsound : e.Sound [] := run_new_sound h
  have hs : (e.tracking db).Sound [] := hsound
  have hs' := step_sound hs hstep
  obtain ⟨multi, fs, b, hblock⟩ := round_writes_block hs hnext hb hp ha hstep
  refine ⟨multi, fs, b, hblock, ?_, ?_, ?_, ?_, ?_⟩
  · intro i hi
    obtain ⟨db', hlayout⟩ := hblock.store.layout
    exact hlayout.switches hi
  · intro evs e₁ rest log rs rs' e₂ e₂' hrun hentries hlen hlen' hsame hreply hreply'
    obtain ⟨hconnection, hfailure⟩ := step_array (e := e₁.listening log) hentries hreply
    obtain ⟨hconnection', hfailure'⟩ := step_array (e := e₁.listening log) hentries hreply'
    refine ⟨?_, hfailure.trans hfailure'.symm⟩
    rw [hconnection, hconnection']
    exact Connection.answerBlock_congr _ (hlen.trans hblock.length) (hlen'.trans hblock.length)
      hsame
  · intro evs e₁ rest log rs e₂ hrun hentries hlen hnot hreply
    -- another log for the listener changes nothing about what the connection holds
    have hs₁ := (run_sound hs' hrun).listening log
    have hslots := hlen.trans hblock.length
    have hgives := hs₁.gives_out hentries hslots hblock.nodup hreply
    have hnone : e₁.store.failures (b.pairs rs) = [] := by
      by_contra hsome
      exact hnot (Store.memberFails_iff.mpr hsome)
    obtain ⟨hdown, hstate, hevents⟩ := (hs₁.unpacks hentries hslots hreply).survives hnone
    have hfailure := (step_array (e := e₁.listening log) hentries hreply).2
    refine ⟨hdown.trans (hs₁.open_of_cons hentries), hstate, hfailure,
      ⟨hgives.member, hgives.batch, hgives.others⟩, fun x hx hfatal => ?_⟩
    -- what it is told of is not fatal
    rw [hevents] at hx
    refine (EventLog.mem_publishAll hx).resolve_right fun hmem => ?_
    rw [Store.complaints_fatal hmem] at hfatal
    cases hfatal
  · intro evs e₁ rest log rs e₂ hrun hentries hlen hfails hreply
    have hs₁ := (run_sound hs' hrun).listening log
    have hunpacks := hs₁.unpacks hentries (hlen.trans hblock.length) hreply
    obtain ⟨e, more, hsome⟩ := List.exists_cons_of_ne_nil (Store.memberFails_iff.mp hfails)
    exact (hunpacks.ends e more hsome).1
  · intro evs e₁ x rest log d r t hrun hentries hx hr
    have hs₁ := (run_sound hs' hrun).listening log
    exact Connection.receive_refused (c := (e₁.listening log).connection) hentries hx hr
      (hs₁.open_of_cons hentries)

/-- A transaction with a command for another database, up to the results. -/
def otherDatabase : List Event :=
  [.make { command := .get, db := some 99, args := [.text "k"] }, .newTransaction,
   .submit (.transaction 0) 0 .standard .text, .execute 0 .standard, .round,
   .reply (.status Literal.ok.bytes), .reply (.status Literal.queued.bytes),
   .reply (.status Literal.queued.bytes)]

theorem switches_unheard_otherDatabase :
    ∃ multi fs b, Unheard
      ((((new {}).run (otherDatabase.take 4)).get (by decide)).tracking (some 0))
      (((((new {}).run (otherDatabase.take 4)).get (by decide)).tracking (some 0)).step .round
        |>.get (by decide)) 1 [0] multi fs b :=
  switches_unheard (Option.some_get _).symm (some 0) (by decide) ⟨_, rfl, rfl⟩ (by decide)
    (by decide) (Option.some_get _).symm

/-- The server has refused the choice, and has run the command in the wrong database. Whoever waits
for the command gets its result, the connection stays open, and the listener hears of nothing. -/
theorem refused_switch_unheard :
    ∃ e b, ((new {}).listening (EventLog.withCapacity 16).subscribe).run (otherDatabase
        ++ [.reply (.multi [.error "ERR DB index is out of range", .bulk (some [119])])]) = some e
      ∧ e.answered.getLast?.map Prod.fst = some (.exec b) ∧ b.slots = [none, some 0]
      ∧ ((Request.select 99).judge (.error "ERR DB index is out of range")).isError = true
      ∧ e.connection.isShutDown = false ∧ e.failure = none
      ∧ e.connection.events.read.1 = []
      ∧ (e.store.completions[0]?).map Completion.stage
        = some (.delivered (.ok (.text (some "w")))) :=
  ⟨_, _, rfl, rfl, rfl, rfl, rfl, rfl, rfl, rfl⟩

end Engine

end RespMux
