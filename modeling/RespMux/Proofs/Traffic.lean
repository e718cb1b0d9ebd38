import RespMux.Proofs.Engine.Tally

/-!
# The counters of a connection

A connection counts in five places: where a frame is recorded, where a reply is matched, where the
outgoing pump passes a message over, where an error is found in a reply, and where a database is
used. What it has counted can be recovered from what it leaves behind. The tape has the frames that
were sent; the replies that were matched stand beside their frames; and a reply is counted as an
error for each command that it answers with one and that may fail (`Store.replied`), be it a command
of its own, the end of a block, or a member.

`traffic_conserved` says so of every run. As long as the connection has not been torn down, what was
sent and is not answered is in flight, and with a listener every error that is counted has been
published.
-/

set_option autoImplicit false

namespace RespMux

/-! ## Commands and their replies -/

namespace Request

/-- The request to run a block. -/
def exec : Request := { command := .exec }

/-- The reply counts as an error, and the connection survives it. -/
def rejected (q : Request) (r : Reply) : Bool := !q.critical && (q.judge r).isError

theorem length_complaint? (q : Request) (r : Reply) :
    (q.complaint? r).toList.length = if q.rejected r then 1 else 0 := by
  unfold complaint? rejected
  cases q.judge r with
  | error t => cases q.critical <;> rfl
  | _ => cases q.critical <;> rfl

theorem rejected_exec (r : Reply) : exec.rejected r = r.isError := rfl

end Request

namespace Store

/-- The commands that a reply to the frame `f` is for, each with the reply to it. -/
def replied (s : Store) (f : InFlight) (r : Reply) : List (Request × Reply) :=
  match f with
  | .message id => [(s.requestOf id, r)]
  | .exec b =>
      (.exec, r) ::
        match b.results? r with
        | .ok rs => (b.pairs rs).map fun x => (s.requestOf x.1, x.2)
        | .error _ => []

/-- The messages that a frame stands for have been made. -/
def Made (s : Store) (f : InFlight) : Prop :=
  match f with
  | .message id => id < s.messages.size
  | .exec b => ∀ j ∈ b.members, j < s.messages.size

variable {s s' : Store} {f : InFlight}

theorem Grows.made (h : s.Grows s') (hf : s.Made f) : s'.Made f := by
  cases f with
  | message id => exact Nat.lt_of_lt_of_le hf h.size_le
  | exec b => exact fun j hj => Nat.lt_of_lt_of_le (hf j hj) h.size_le

theorem mem_members_of_pairs {b : Block} {rs : List Reply} {x : MessageId × Reply}
    (hx : x ∈ b.pairs rs) : x.1 ∈ b.members := by
  obtain ⟨⟨slot, r⟩, hzip, hslot⟩ := List.mem_filterMap.mp hx
  obtain ⟨id, hid, rfl⟩ := Option.map_eq_some_iff.mp hslot
  exact List.mem_filterMap.mpr ⟨slot, (List.of_mem_zip hzip).1, hid⟩

/-- What a command is stays as it was. -/
theorem Grows.replied (h : s.Grows s') (hf : s.Made f) (r : Reply) :
    s'.replied f r = s.replied f r := by
  cases f with
  | message id =>
    unfold Store.replied
    dsimp only
    rw [h.requestOf hf]
  | exec b =>
    unfold Store.replied
    dsimp only
    cases b.results? r with
    | error error => rfl
    | ok rs =>
      refine congrArg ((Request.exec, r) :: ·) (List.map_congr_left fun x hx => ?_)
      rw [h.requestOf (hf x.1 (mem_members_of_pairs hx))]

theorem length_complaints (s : Store) (l : List (MessageId × Reply)) :
    (s.complaints l).length
      = (l.map fun x => (s.requestOf x.1, x.2)).countP fun x => x.1.rejected x.2 := by
  induction l with
  | nil => rfl
  | cons x l ih =>
    rw [complaints_cons, List.length_append, ih, Request.length_complaint?, List.map_cons,
      List.countP_cons, Nat.add_comm]

end Store

/-- As long as somebody listens, every event is published. -/
theorem EventLog.publishAll_total {l : EventLog} (h : l.listener.isSome = true)
    (xs : List ErrorEvent) : (l.publishAll xs).total = l.total + xs.length := by
  induction xs generalizing l with
  | nil => rfl
  | cons x xs ih =>
    obtain ⟨position, hlistener⟩ := Option.isSome_iff_exists.mp h
    have hpublish : (l.publish x).listener = l.listener ∧ (l.publish x).total = l.total + 1 := by
      unfold publish
      rw [hlistener]
      exact ⟨rfl, rfl⟩
    have hrest := ih (l := l.publish x) (by rw [hpublish.1, h])
    show ((l.publish x).publishAll xs).total = _
    rw [hrest, hpublish.2, List.length_cons]
    omega

/-- The listener is told of each command that has been answered with an error and may fail. -/
theorem Connection.length_replyComplaints (c : Connection) (r : Reply) :
    (c.replyComplaints r).length
      = (c.ledger.entries.head?.toList.flatMap fun f => c.store.replied f r).countP
          fun x => x.1.rejected x.2 := by
  unfold replyComplaints
  cases c.ledger.entries.head? with
  | none => rfl
  | some f =>
    rw [Option.toList_some, List.flatMap_singleton]
    cases f with
    | message id =>
      show ((c.store.requestOf id).complaint? r).toList.length = _
      rw [Request.length_complaint?]
      exact (List.countP_singleton).symm
    | exec b =>
      unfold Store.replied
      dsimp only
      rw [List.countP_cons, Request.rejected_exec]
      cases hres : b.results? r with
      | ok rs =>
        obtain ⟨rfl, -⟩ := Connection.results?_ok hres
        exact c.store.length_complaints _
      | error error => cases r <;> rfl

namespace Engine

variable {accepted : List MessageId} {e e₀ e' : Engine} {ev : Event} {evs : List Event}

/-- The commands that have been answered, each with the reply to it. -/
def replied (e : Engine) : List (Request × Reply) :=
  e.answered.flatMap fun x => e.store.replied x.1 x.2

/-- The messages that the outgoing pump passes over in a run, in order. -/
def skipped (e : Engine) : List Event → List MessageId
  | [] => []
  | ev :: evs =>
      e.skips ev ++
        match e.step ev with
        | some e' => e'.skipped evs
        | none => []

/-! ## Frames -/

/-- The frames on the tape are those that have been answered and those in flight, and a pump that
has not failed has flushed them. -/
structure Taped (e : Engine) : Prop where
  flushed : e.writer.fault = none → e.writer.buffer = []
  inFlight : e.connection.isShutDown = false →
    e.tape = e.answered.map Prod.fst ++ e.connection.ledger.entries

theorem Rests.taped (h : Rests e e') (hl : e.Taped) : e'.Taped where
  flushed hfault := by
    rw [h.buffer]
    exact hl.flushed (h.fault.symm.trans hfault)
  inFlight hopen := by
    rw [h.tape, h.answered, h.continues.ledger hopen]
    exact hl.inFlight (h.continues.open hopen)

theorem Writes.taped {fs : List InFlight} (h : Writes fs e e') (hl : e.Taped) : e'.Taped where
  flushed hfault := h.flushed (hl.flushed h.fault) hfault
  inFlight hopen := by
    have htape : e'.tape = e.tape ++ fs := h.tape
    rw [htape, hl.inFlight (h.open hopen), h.entries hopen, h.answered, List.append_assoc]

theorem Takes.taped {f : InFlight} {r : Reply} (h : Takes f r e e') (hl : e.Taped) :
    e'.Taped where
  flushed hfault := by
    rw [h.buffer]
    exact hl.flushed (h.fault.symm.trans hfault)
  inFlight hopen := by
    calc e'.tape
        = e.answered.map Prod.fst ++ f :: e'.connection.ledger.entries := by
          rw [h.tape, hl.inFlight (h.open hopen), h.entries hopen]
      _ = e'.answered.map Prod.fst ++ e'.connection.ledger.entries := by
          rw [h.answered, List.map_append, List.append_assoc]
          rfl

theorem step_taped (hs : e.Sound accepted) (hl : e.Taped) (h : e.step ev = some e') :
    e'.Taped := by
  have hfailure : ∀ failure, Taped { e with failure := failure } := fun _ =>
    ⟨hl.flushed, hl.inFlight⟩
  rcases step_frames hs h with ⟨-, hrests | ⟨fs, hwrites⟩⟩
      | ⟨r, -, -, ⟨-, hrests⟩ | ⟨f, -, htakes⟩⟩
  · exact hrests.taped hl
  · exact hwrites.taped hl
  · exact hrests.taped (hfailure _)
  · exact htakes.taped hl

/-! ## Errors -/

theorem Sound.made (hs : e.Sound accepted) {f : InFlight} (hf : f ∈ e.connection.ledger.entries) :
    e.store.Made f := by
  have hkinds := hs.custody.kinds
  cases f with
  | message id =>
    rcases hkinds.message_kind id hf with hsingle | ⟨inner, henvelope⟩
    · exact hsingle.lt_size
    · exact henvelope.lt_size
  | exec b =>
    intro j hj
    exact (hkinds.owned_single j (hkinds.block_owned b hf j hj)).lt_size

/-- The errors that have been counted are those among the replies. -/
structure Blamed (e : Engine) : Prop where
  made : ∀ x ∈ e.answered, e.store.Made x.1
  errors : e.connection.counters.errors = e.replied.countP fun x => x.1.rejected x.2

/-- A step answers the oldest frame or none. -/
theorem step_answered (hs : e.Sound accepted) (h : e.step ev = some e') :
    ∃ xs : List (InFlight × Reply), e'.answered = e.answered ++ xs
      ∧ (∀ x ∈ xs, e.store.Made x.1)
      ∧ (xs.flatMap fun x => e.store.replied x.1 x.2).countP (fun x => x.1.rejected x.2)
        = (e.complaints ev).length := by
  rcases step_frames hs h with ⟨hnone, hleft⟩ | ⟨r, rfl, -⟩
  · have hanswered : e'.answered = e.answered := by
      rcases hleft with hrests | ⟨fs, hwrites⟩
      · exact hrests.answered
      · exact hwrites.answered
    have hcomplaints : e.complaints ev = [] := by
      cases ev with
      | reply r => cases hnone
      | _ => rfl
    refine ⟨[], ?_, ?_, ?_⟩
    · rw [hanswered, List.append_nil]
    · simp
    · rw [hcomplaints]
      rfl
  · obtain ⟨-, rfl⟩ := step_reply h
    refine ⟨_, rfl, fun x hx => ?_, ?_⟩
    · obtain ⟨f, hf, rfl⟩ := Option.map_eq_some_iff.mp (Option.mem_toList.mp hx)
      exact hs.made (List.mem_of_mem_head? hf)
    · show _ = (e.connection.replyComplaints r).length
      rw [Connection.length_replyComplaints]
      cases e.connection.ledger.entries.head? <;> rfl

theorem step_blamed (hs : e.Sound accepted) (hb : e.Blamed) (h : e.step ev = some e') :
    e'.Blamed := by
  have hgrows := step_grows hs h
  obtain ⟨xs, hanswered, hmade, hcount⟩ := step_answered hs h
  have hall : ∀ x ∈ e.answered ++ xs, e.store.Made x.1 := by
    intro x hx
    rcases List.mem_append.mp hx with hx | hx
    · exact hb.made x hx
    · exact hmade x hx
  constructor
  · intro x hx
    rw [hanswered] at hx
    exact hgrows.made (hall x hx)
  · have hreplied : e'.replied = e.replied ++ xs.flatMap fun x => e.store.replied x.1 x.2 := by
      calc e'.replied
          = (e.answered ++ xs).flatMap fun x => e'.store.replied x.1 x.2 := by
            rw [← hanswered]
            rfl
        _ = (e.answered ++ xs).flatMap fun x => e.store.replied x.1 x.2 :=
            List.flatMap_congr fun x hx => hgrows.replied (hall x hx) x.2
        _ = e.replied ++ xs.flatMap fun x => e.store.replied x.1 x.2 := List.flatMap_append
    rw [(step_counts hs h).errors, hreplied, List.countP_append, hcount, hb.errors]

/-- What is no matter of life and death for the connection. -/
theorem countP_tells (e : Engine) (ev : Event) :
    (e.tells ev).countP (fun x => !x.fatal) = (e.complaints ev).length := by
  have hcomplaints : (e.complaints ev).countP (fun x => !x.fatal) = (e.complaints ev).length :=
    List.countP_eq_length.mpr fun x hx => by simp [complaints_fatal hx]
  have hfatal : ∀ call, (fatalEvents call).countP (fun x => !x.fatal) = 0 := by
    intro call
    unfold fatalEvents
    split
    · rfl
    · rfl
  unfold tells
  rw [List.countP_append, hcomplaints]
  split
  · rfl
  · rw [hfatal, Nat.add_zero]

/-! ## Runs -/

theorem skipped_cons (h : e.step ev = some e') (evs : List Event) :
    e.skipped (ev :: evs) = e.skips ev ++ e'.skipped evs := by
  rw [skipped, h]

theorem run_cancelled (hs : e.Sound accepted) (h : e.run evs = some e') :
    e'.connection.counters.cancelled
      = e.connection.counters.cancelled + (e.skipped evs).length := by
  induction evs generalizing e with
  | nil =>
    cases h
    rfl
  | cons ev evs ih =>
    obtain ⟨e₁, h₁, hrest⟩ := run_cons_inv h
    rw [ih (step_sound hs h₁) hrest, (step_counts hs h₁).cancelled, skipped_cons h₁,
      List.length_append, Nat.add_assoc]

theorem run_errors (hs : e.Sound accepted) (h : e.run evs = some e') :
    e'.connection.counters.errors
      = e.connection.counters.errors + (e.told evs).countP fun x => !x.fatal := by
  induction evs generalizing e with
  | nil =>
    cases h
    rfl
  | cons ev evs ih =>
    obtain ⟨e₁, h₁, hrest⟩ := run_cons_inv h
    rw [ih (step_sound hs h₁) hrest, (step_counts hs h₁).errors, told_cons h₁, List.countP_append,
      countP_tells, Nat.add_assoc]

/-- The frames and replies of a run are counted. -/
structure Counted (e : Engine) : Prop where
  sent : e.connection.counters.sent = e.tape.length
  received : e.connection.counters.received = e.answered.length

theorem step_counted (hs : e.Sound accepted) (hc : e.Counted) (h : e.step ev = some e') :
    e'.Counted := by
  have hcounts := step_counts hs h
  have hsent := hcounts.sent
  have hreceived := hcounts.received
  rw [hc.sent] at hsent
  rw [hc.received] at hreceived
  constructor <;> omega

/-- The counters at the end of the run `evs` from `e₀` to `e`. -/
structure Conserves (e₀ : Engine) (evs : List Event) (e : Engine) : Prop where
  sent : e.connection.counters.sent = e.tape.length
  /-- unless a write has failed, these frames have been written to the server -/
  written : e.writer.fault = none → e.writer.written = e.tape
  received : e.connection.counters.received = e.answered.length
  inFlight : e.connection.isShutDown = false →
    e.connection.counters.sent = e.connection.counters.received + e.connection.ledger.length
  cancelled : e.connection.counters.cancelled = (e₀.skipped evs).length
  errors : e.connection.counters.errors = e.replied.countP fun x => x.1.rejected x.2
  /-- an error is counted just if the listener is told of it, and the connection survives it -/
  told : e.connection.counters.errors = (e₀.told evs).countP fun x => !x.fatal
  heard : e.connection.events = e₀.connection.events.publishAll (e₀.told evs)
  listened : e₀.connection.events.listener.isSome = true →
    e.connection.events.total = e₀.connection.events.total + (e₀.told evs).length

/-- In every run, whoever listens, the counters are what the traffic was. -/
theorem traffic_conserved {config : Config} {log : EventLog}
    (h : ((new config).listening log).run evs = some e) :
    Conserves ((new config).listening log) evs e := by
  have hs : ((new config).listening log).Sound [] := (new_sound config).listening log
  have htorn : ((new config).listening log).Torn := fun hdown => by cases hdown
  obtain ⟨hcounted, htaped, hblamed⟩ := run_induction_sound
    (P := fun e => e.Counted ∧ e.Taped ∧ e.Blamed) hs
    (fun _ _ _ hs ⟨hcounted, htaped, hblamed⟩ hstep =>
      ⟨step_counted hs hcounted hstep, step_taped hs htaped hstep, step_blamed hs hblamed hstep⟩)
    h ⟨⟨rfl, rfl⟩, ⟨fun _ => rfl, fun _ => rfl⟩, ⟨List.forall_mem_nil _, rfl⟩⟩
  have hcancelled := run_cancelled hs h
  have herrors := run_errors hs h
  have hheard := run_told hs htorn h
  refine ⟨hcounted.sent, fun hfault => ?_, hcounted.received, fun hopen => ?_, ?_,
    hblamed.errors, ?_, hheard, fun hlistener => ?_⟩
  · unfold tape
    rw [htaped.flushed hfault, List.append_nil]
  · have hlength := congrArg List.length (htaped.inFlight hopen)
    rw [List.length_append, List.length_map] at hlength
    rw [hcounted.sent, hcounted.received]
    exact hlength
  · rw [hcancelled]
    exact Nat.zero_add _
  · rw [herrors]
    exact Nat.zero_add _
  · rw [hheard]
    exact EventLog.publishAll_total hlistener _

/-- A command and a block with one, both answered with errors, while another command and another
member are called off. -/
def twiceRefused : List Event :=
  [.make { command := .get, args := [.text "a"] }, .submit .connection 0 .standard .text,
   .make { command := .get, args := [.text "b"] }, .submit .connection 1 .standard .text,
   .make { command := .get, args := [.text "c"] }, .make { command := .get, args := [.text "d"] },
   .newTransaction, .submit (.transaction 0) 2 .standard .text,
   .submit (.transaction 0) 3 .standard .text, .execute 0 .standard, .cancel 1, .cancel 3,
   .round, .round, .round, .reply (.error "ERR"), .reply (.status Literal.ok.bytes),
   .reply (.status Literal.queued.bytes), .reply (.multi [.error "ERR"])]

theorem traffic_conserved_twiceRefused :
    Conserves ((new {}).listening (EventLog.withCapacity 16).subscribe) twiceRefused
      ((((new {}).listening (EventLog.withCapacity 16).subscribe).run twiceRefused).get
        (by decide)) :=
  traffic_conserved (Option.some_get _).symm

example :
    (((new {}).listening (EventLog.withCapacity 16).subscribe).run twiceRefused).map
        (fun e => e.connection.counters)
      = some { sent := 4, received := 4, cancelled := 2, errors := 2 } := by
  decide

end Engine

end RespMux
