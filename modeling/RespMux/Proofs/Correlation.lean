import Mathlib.Data.List.Induction
import RespMux.Proofs.Engine.Sound

/-!
# Replies and frames

Replies carry no names, so everything depends on their order. As long as a connection has not been
torn down and no write has failed, the frames written are those already matched with a reply,
followed by those in the ledger (`InStep`). It is the conservation law of a queue: every step puts
the same frames into the buffer and into the ledger, or takes one frame out of the ledger for a
reply. And each entry of the ledger is one frame on the wire.

So the k-th reply belongs to the k-th frame, and a server that never sends more replies than it has
received frames (`Paced`) never sends one that nobody waits for.
-/

set_option autoImplicit false

namespace RespMux

/-! ## One entry, one frame -/

namespace Store

/-- The command that an entry of the ledger is on the wire. -/
def frameOf? (s : Store) : InFlight → Option Frame
  | .message id => (s.draft? id).bind Message.frame
  | .exec _ => some ⟨.exec, []⟩

theorem wireInFlight_eq {s : Store} {f : InFlight} {fr : Frame} (h : s.frameOf? f = some fr) :
    s.wireInFlight f = fr.encode := by
  cases f with
  | exec b =>
      cases h
      rfl
  | message id =>
      obtain ⟨m, hm, hframe⟩ := Option.bind_eq_some_iff.mp h
      obtain ⟨n, hn, rfl⟩ := exists_get_of_draft? hm
      change n.frame = some fr at hframe
      show ((s.messages[id]?).map Message.wire).getD [] = _
      rw [hn]
      show n.wire = _
      unfold Message.wire
      rw [hframe]

theorem Grows.frameOf? {s s' : Store} (h : s.Grows s') {f : InFlight} {fr : Frame}
    (hf : s.frameOf? f = some fr) : s'.frameOf? f = some fr := by
  cases f with
  | exec b => exact hf
  | message id =>
      obtain ⟨m, hm, hframe⟩ := Option.bind_eq_some_iff.mp hf
      exact Option.bind_eq_some_iff.mpr ⟨m, h id m hm, hframe⟩

/-- The bytes of several entries are those of their frames. -/
theorem flatMap_wireInFlight {s : Store} {fs : List InFlight}
    (h : ∀ f ∈ fs, ∃ fr, s.frameOf? f = some fr) :
    ∃ frames : List Frame, fs.map s.frameOf? = frames.map some
      ∧ fs.flatMap s.wireInFlight = frames.flatMap Frame.encode := by
  induction fs with
  | nil => exact ⟨[], rfl, rfl⟩
  | cons f fs ih =>
      obtain ⟨fr, hfr⟩ := h f List.mem_cons_self
      obtain ⟨frames, hmap, hwire⟩ := ih fun g hg => h g (List.mem_cons_of_mem f hg)
      refine ⟨fr :: frames, ?_, ?_⟩
      · rw [List.map_cons, List.map_cons, hfr, hmap]
      · rw [List.flatMap_cons, List.flatMap_cons, wireInFlight_eq hfr, hwire]

end Store

/-- No batch is in flight as such. -/
theorem Custody.frameOf? {owned accepted queued : List MessageId} {frames : List InFlight}
    {s : Store} (h : Custody owned accepted queued frames s) {f : InFlight} (hf : f ∈ frames) :
    ∃ fr, s.frameOf? f = some fr := by
  cases f with
  | exec b => exact ⟨_, rfl⟩
  | message id =>
      rcases h.kinds.message_kind id hf with ⟨m, hm, hb⟩ | ⟨inner, m, hm, hb⟩
      · exact ⟨_, Option.bind_eq_some_iff.mpr ⟨m, hm, (h.wellFormed.single id m hm hb).1⟩⟩
      · obtain ⟨i, hi, hbi, -, hframe, -⟩ := h.wellFormed.envelope id m inner hm hb
        have hinner := (h.wellFormed.single inner i hi hbi).1
        exact ⟨_, Option.bind_eq_some_iff.mpr ⟨m, hm, hframe.trans hinner⟩⟩

namespace Engine

variable {accepted : List MessageId} {e e' : Engine} {ev : Event}

/-! ## The conservation law -/

/-- What has been written is what has been answered and what is in flight. -/
def InStep (e : Engine) : Prop :=
  e.connection.isShutDown = false → e.writer.fault = none →
    e.writer.buffer = []
      ∧ e.writer.written = e.answered.map Prod.fst ++ e.connection.ledger.entries

theorem Rests.inStep (h : Rests e e') (hi : InStep e) : InStep e' := by
  intro hopen hfault
  rw [h.fault] at hfault
  obtain ⟨hbuffer, hwritten⟩ := hi (h.continues.open hopen) hfault
  rw [h.buffer, h.written, h.answered, h.continues.ledger hopen]
  exact ⟨hbuffer, hwritten⟩

theorem Writes.inStep {fs : List InFlight} (h : Writes fs e e') (hi : InStep e) : InStep e' := by
  intro hopen hfault
  obtain ⟨hbuffer, hwritten⟩ := hi (h.open hopen) h.fault
  have hflushed := h.flushed hbuffer hfault
  have htape := h.tape
  rw [hbuffer, hflushed, List.append_nil, List.append_nil] at htape
  refine ⟨hflushed, ?_⟩
  calc e'.writer.written
      = e.answered.map Prod.fst ++ e.connection.ledger.entries ++ fs := by rw [htape, hwritten]
    _ = e'.answered.map Prod.fst ++ e'.connection.ledger.entries := by
        rw [h.entries hopen, h.answered, List.append_assoc]

theorem Takes.inStep {f : InFlight} {r : Reply} (h : Takes f r e e') (hi : InStep e) :
    InStep e' := by
  intro hopen hfault
  rw [h.fault] at hfault
  obtain ⟨hbuffer, hwritten⟩ := hi (h.open hopen) hfault
  rw [h.buffer, h.written, h.answered]
  refine ⟨hbuffer, ?_⟩
  calc e.writer.written
      = e.answered.map Prod.fst ++ f :: e'.connection.ledger.entries := by
        rw [hwritten, h.entries hopen]
    _ = (e.answered ++ [(f, r)]).map Prod.fst ++ e'.connection.ledger.entries := by
        rw [List.map_append, List.append_assoc]
        rfl

/-- A frame that has been taken for a reply is one frame on the wire, like those in flight. -/
def Framed (e : Engine) : Prop := ∀ x ∈ e.answered, ∃ fr, e.store.frameOf? x.1 = some fr

theorem Rests.framed (h : Rests e e') (hframed : Framed e) : Framed e' := by
  intro x hx
  rw [h.answered] at hx
  obtain ⟨fr, hfr⟩ := hframed x hx
  exact ⟨fr, h.continues.grows.frameOf? hfr⟩

theorem Writes.framed {fs : List InFlight} (h : Writes fs e e') (hframed : Framed e) :
    Framed e' := by
  intro x hx
  rw [h.answered] at hx
  obtain ⟨fr, hfr⟩ := hframed x hx
  exact ⟨fr, h.grows.frameOf? hfr⟩

theorem Takes.framed {f : InFlight} {r : Reply} (h : Takes f r e e')
    (hf : ∃ fr, e.store.frameOf? f = some fr) (hframed : Framed e) : Framed e' := by
  intro x hx
  rw [h.answered] at hx
  rcases List.mem_append.mp hx with hx | hx
  · obtain ⟨fr, hfr⟩ := hframed x hx
    exact ⟨fr, h.grows.frameOf? hfr⟩
  · obtain ⟨fr, hfr⟩ := hf
    rw [List.mem_singleton.mp hx]
    exact ⟨fr, h.grows.frameOf? hfr⟩

/-- As far as the frames are concerned, a step that is no reply is a rest or a writing, and a reply
takes a frame if there is one. -/
theorem step_frames (hs : e.Sound accepted) (h : e.step ev = some e') :
    (replies [ev] = [] ∧ (Rests e e' ∨ ∃ fs, Writes fs e e'))
      ∨ ∃ r, ev = .reply r ∧ e'.failure = (e.connection.processReply r).1
        ∧ ((e.connection.ledger.entries = [] ∧ Rests { e with failure := e'.failure } e')
          ∨ ∃ f, e.connection.ledger.entries.head? = some f ∧ Takes f r e e') := by
  cases hq : ev.isQuiet with
  | true =>
      refine Or.inl ⟨?_, Or.inl (step_quiet hs hq h).2⟩
      cases ev with
      | reply r => cases hq
      | _ => rfl
  | false =>
      cases ev with
      | round =>
          obtain ⟨id, overtook, q, wakes, hnext, hf, rfl⟩ := step_round h
          exact Or.inl ⟨rfl, Or.inr (round_writes hs hf hnext)⟩
      | finish =>
          obtain ⟨hf, rfl⟩ := step_finish h
          exact Or.inl ⟨rfl, Or.inr (finish_writes hs hf).2⟩
      | reply r => exact Or.inr ⟨r, rfl, (reply_takes hs h).2⟩
      | _ => cases hq

/-- A step keeps the frames in step. -/
theorem step_inStep (hs : e.Sound accepted) (h : e.step ev = some e')
    (hi : InStep e ∧ Framed e) : InStep e' ∧ Framed e' := by
  obtain ⟨hin, hframed⟩ := hi
  rcases step_frames hs h with ⟨-, hrests | ⟨fs, hwrites⟩⟩
      | ⟨r, -, -, ⟨-, hrests⟩ | ⟨f, hf, htakes⟩⟩
  · exact ⟨hrests.inStep hin, hrests.framed hframed⟩
  · exact ⟨hwrites.inStep hin, hwrites.framed hframed⟩
  · exact ⟨hrests.inStep hin, hrests.framed hframed⟩
  · have hframe := hs.custody.frameOf? (List.mem_of_mem_head? hf)
    exact ⟨htakes.inStep hin, htakes.framed hframe hframed⟩

/-- They are in step at the end of every run. -/
theorem run_inStep {config : Config} {evs : List Event} (h : (new config).run evs = some e) :
    e.Sound [] ∧ InStep e ∧ Framed e := by
  refine run_induction (P := fun e => e.Sound [] ∧ InStep e ∧ Framed e) ?_ h
    ⟨new_sound config, ?_, ?_⟩
  · rintro e ev e' ⟨hs, hi⟩ hstep
    exact ⟨step_sound hs hstep, step_inStep hs hstep hi⟩
  · exact fun _ _ => ⟨rfl, rfl⟩
  · intro x hx
    cases hx

/-! ## A server that keeps to the order -/

/-- The server sends one reply for each frame it has received, and none before. -/
def Paced (config : Config) (evs : List Event) : Prop :=
  ∀ before r after e, evs = before ++ .reply r :: after → (new config).run before = some e →
    (replies before).length < e.writer.written.length

theorem Paced.prefix {config : Config} {evs evs' : List Event} (h : Paced config (evs ++ evs')) :
    Paced config evs := by
  intro before r after e heq
  refine h before r (after ++ evs') e ?_
  rw [heq, List.append_assoc]
  rfl

theorem replies_append (evs evs' : List Event) :
    replies (evs ++ evs') = replies evs ++ replies evs' :=
  List.filterMap_append

theorem run_concat {evs : List Event} {e₀ : Engine} (h : e₀.run (evs ++ [ev]) = some e') :
    ∃ e, e₀.run evs = some e ∧ e.step ev = some e' := by
  rw [run_append] at h
  obtain ⟨e, he, hstep⟩ := Option.bind_eq_some_iff.mp h
  obtain ⟨e'', hstep, hnil⟩ := run_cons_inv hstep
  cases hnil
  exact ⟨e, he, hstep⟩

/-- A reply that finds a frame in flight is never one that nobody waits for. -/
theorem answerInFlight_expected (c : Connection) (f : InFlight) (r : Reply) (t : String) :
    (c.answerInFlight f r).1 ≠ some (.protocol (.unexpectedReply t)) := by
  cases f with
  | message id =>
      show (c.answer id r).1 ≠ _
      unfold Connection.answer
      dsimp only
      split
      · split
        · simp
        · simp
      · simp
  | exec b =>
      unfold Connection.answerInFlight
      dsimp only
      split
      · simp
      · simp

/-- Against such a server every reply has been matched, and each was expected. -/
theorem Paced.answered {config : Config} {evs : List Event} (hp : Paced config evs)
    (h : (new config).run evs = some e) (hopen : e.connection.isShutDown = false)
    (hfault : e.writer.fault = none) :
    e.answered.map Prod.snd = replies evs
      ∧ ∀ t, e.failure ≠ some (.protocol (.unexpectedReply t)) := by
  induction evs using List.reverseRecOn generalizing e with
  | nil =>
      cases h
      exact ⟨rfl, fun t ht => by cases ht⟩
  | append_singleton evs ev ih =>
      obtain ⟨e₁, hrun, hstep⟩ := run_concat h
      obtain ⟨hs, hin, -⟩ := run_inStep hrun
      rw [replies_append]
      rcases step_frames hs hstep with ⟨hnone, hrests | ⟨fs, hwrites⟩⟩
          | ⟨r, rfl, hfailure, ⟨hempty, hrests⟩ | ⟨f, hf, htakes⟩⟩
      · -- a step without a reply that writes nothing
        obtain ⟨hanswered, hexpected⟩ := ih hp.prefix hrun (hrests.continues.open hopen)
          (hrests.fault.symm.trans hfault)
        rw [hnone, hrests.answered, hrests.failure, List.append_nil]
        exact ⟨hanswered, hexpected⟩
      · -- a step of the pump that writes
        obtain ⟨hanswered, hexpected⟩ := ih hp.prefix hrun (hwrites.open hopen) hwrites.fault
        rw [hnone, hwrites.answered, hwrites.failure, List.append_nil]
        exact ⟨hanswered, hexpected⟩
      · -- the ledger cannot be empty: a frame without a reply has been written
        have hopen₁ := hrests.continues.open hopen
        have hfault₁ := hrests.fault.symm.trans hfault
        obtain ⟨hanswered, -⟩ := ih hp.prefix hrun hopen₁ hfault₁
        have hpaced := hp evs r [] e₁ rfl hrun
        have hwritten := (hin hopen₁ hfault₁).2
        rw [hempty, List.append_nil] at hwritten
        rw [hwritten, ← hanswered, List.length_map, List.length_map] at hpaced
        exact absurd hpaced (Nat.lt_irrefl _)
      · -- a reply for the first frame of the ledger
        obtain ⟨hanswered, -⟩ := ih hp.prefix hrun (htakes.open hopen)
          (htakes.fault.symm.trans hfault)
        refine ⟨?_, fun t => ?_⟩
        · rw [htakes.answered, List.map_append, hanswered]
          rfl
        · obtain ⟨fs, hcons⟩ := List.head?_eq_some_iff.mp hf
          rw [hfailure, Connection.processReply_cons hcons]
          exact answerInFlight_expected _ f r t

/-! ## The k-th reply and the k-th frame -/

/-- What holds of the frames and the replies of the run `evs` when it has come to `e`. -/
structure Correlated (config : Config) (evs : List Event) (e : Engine) : Prop where
  /-- what was written has been answered or is in the ledger, in the same order -/
  sequence : e.writer.written = e.answered.map Prod.fst ++ e.connection.ledger.entries
  /-- each of these entries is one frame on the wire -/
  frames : ∃ frames : List Frame, e.writer.written.map e.store.frameOf? = frames.map some
    ∧ e.writer.wire = frames.flatMap Frame.encode
  /-- the k-th reply was matched with the k-th frame -/
  matched : ∀ (k : Nat) f r, e.answered[k]? = some (f, r) → e.writer.written[k]? = some f
  /-- and the next one will go to the next frame -/
  next : ∀ f, e.writer.written[e.answered.length]? = some f →
    ∃ fs, e.connection.ledger.entries = f :: fs ∧ ∀ r, e.connection.processReply r
      = ({ e.connection with ledger := { e.connection.ledger with entries := fs } }.count
          .received).answerInFlight f r
  /-- a server that keeps to the order has all its replies matched, and none is unexpected -/
  paced : Paced config evs → e.answered.map Prod.snd = replies evs
    ∧ (∀ t, e.failure ≠ some (.protocol (.unexpectedReply t)))
    ∧ ((replies evs).length < e.writer.written.length →
        ∀ r t, (e.connection.processReply r).1 ≠ some (.protocol (.unexpectedReply t)))

/-- In every run, as long as the connection has not been torn down and no write has failed, replies
and frames correspond in their order. -/
theorem replies_follow_frames {config : Config} {evs : List Event}
    (h : (new config).run evs = some e) (hopen : e.connection.isShutDown = false)
    (hfault : e.writer.fault = none) : Correlated config evs e := by
  obtain ⟨hs, hin, hframed⟩ := run_inStep h
  obtain ⟨-, hwritten⟩ := hin hopen hfault
  -- the next frame to be answered is the first one in the ledger
  have hnext : ∀ f, e.writer.written[e.answered.length]? = some f →
      ∃ fs, e.connection.ledger.entries = f :: fs := by
    intro f hf
    have hlen : (e.answered.map Prod.fst).length ≤ e.answered.length :=
      Nat.le_of_eq (List.length_map _)
    rw [hwritten, List.getElem?_append_right hlen, List.length_map, Nat.sub_self] at hf
    cases hentries : e.connection.ledger.entries with
    | nil =>
        rw [hentries] at hf
        cases hf
    | cons g fs =>
        rw [hentries] at hf
        cases hf
        exact ⟨fs, rfl⟩
  constructor
  · exact hwritten
  · refine Store.flatMap_wireInFlight fun f hf => ?_
    rw [hwritten] at hf
    rcases List.mem_append.mp hf with hf | hf
    · obtain ⟨x, hx, rfl⟩ := List.mem_map.mp hf
      exact hframed x hx
    · exact hs.custody.frameOf? hf
  · intro k f r hk
    have hlt : k < (e.answered.map Prod.fst).length := by
      rw [List.length_map]
      exact (List.getElem?_eq_some_iff.mp hk).1
    rw [hwritten, List.getElem?_append_left hlt, List.getElem?_map, hk]
    rfl
  · intro f hf
    obtain ⟨fs, hfs⟩ := hnext f hf
    exact ⟨fs, hfs, Connection.processReply_cons hfs⟩
  · intro hp
    obtain ⟨hanswered, hexpected⟩ := hp.answered h hopen hfault
    refine ⟨hanswered, hexpected, fun hlt r t => ?_⟩
    rw [← hanswered, List.length_map] at hlt
    obtain ⟨fs, hfs⟩ := hnext _ (List.getElem?_eq_getElem hlt)
    rw [Connection.processReply_cons hfs]
    exact answerInFlight_expected _ _ r t

/-- A command for another database, and a transaction in front of it. -/
def twoCommands : List Event :=
  [.make { command := .get, db := some 1, args := [.text "k"] }, .put .connection 0 .standard,
   .newTransaction, .make { command := .incr, args := [.text "n"] },
   .submit (.transaction 0) 1 .standard .integer, .execute 0 .high, .round, .round,
   .reply (.status Literal.ok.bytes)]

theorem replies_follow_frames_twoCommands :
    Correlated {} twoCommands (((new {}).run twoCommands).get (by decide)) :=
  replies_follow_frames (Option.some_get _).symm (by decide) (by rfl)

end Engine

end RespMux
