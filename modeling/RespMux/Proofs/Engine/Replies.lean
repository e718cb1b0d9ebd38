import RespMux.Proofs.Connection.Unpacking
import RespMux.Proofs.Correlation

/-!
# Replies in a row

As long as the connection stays alive, each reply takes the oldest frame out of the ledger and gives
outcomes only to what it reaches; a row of replies reaches what each of them does (`run_replies`).
Replies that are no errors keep it alive (`Alive.acknowledged`).

The custody says where the completer of a completion can be. So the array of results of a block
reaches everybody who waits for one of its members with the result in the slot of that member, and
everybody who waits for the batch (`Sound.gives_out`). This does not depend on how the engine got
where it is, nor on what the results are: one of them may well end the connection.
-/

set_option autoImplicit false

namespace RespMux

namespace Engine

variable {accepted : List MessageId} {e e' : Engine} {ev : Event} {evs : List Event}
variable {f : InFlight} {fs : List InFlight} {r : Reply}

/-! ## One reply after the other -/

/-- Nothing brings a connection back that has been torn down. -/
theorem step_down (hs : e.Sound accepted) (h : e.step ev = some e')
    (hd : e.connection.isShutDown = true) : e'.connection.isShutDown = true := by
  rcases step_frames hs h with ⟨-, hrests | ⟨fs, hwrites⟩⟩ | ⟨r, -, -, ⟨-, hrests⟩ | ⟨f, -, htakes⟩⟩
  · exact hrests.continues.down hd
  · exact hwrites.down hd
  · exact hrests.continues.down hd
  · exact htakes.down hd

/-- A step adds messages and leaves those that exist as they were created. -/
theorem step_grows (hs : e.Sound accepted) (h : e.step ev = some e') : e.store.Grows e'.store := by
  rcases step_frames hs h with ⟨-, hrests | ⟨fs, hwrites⟩⟩ | ⟨r, -, -, ⟨-, hrests⟩ | ⟨f, -, htakes⟩⟩
  · exact hrests.continues.grows
  · exact hwrites.grows
  · exact hrests.continues.grows
  · exact htakes.grows

theorem run_grows (hs : e.Sound accepted) (h : e.run evs = some e') : e.store.Grows e'.store :=
  run_induction_sound (P := fun e₁ => e.store.Grows e₁.store) hs
    (fun _ _ _ hs₁ hgrows hstep => hgrows.trans (step_grows hs₁ hstep)) h (.refl e.store)

theorem run_singleton (e : Engine) (ev : Event) : e.run [ev] = e.step ev := by
  rw [run_cons]
  cases e.step ev with
  | none => rfl
  | some e' => rfl

theorem run_open (hs : e.Sound accepted) (h : e.run evs = some e')
    (hopen : e'.connection.isShutDown = false) : e.connection.isShutDown = false := by
  cases hd : e.connection.isShutDown with
  | false => rfl
  | true =>
      have hend := run_induction_sound (P := fun e => e.connection.isShutDown = true) hs
        (fun _ _ _ hs₁ hd₁ hstep => step_down hs₁ hstep hd₁) h hd
      rw [hend] at hopen
      cases hopen

/-- A reply after which the connection is still alive takes the oldest frame out of the ledger, and
gives outcomes to what it reaches. -/
theorem run_reply (hs : e.Sound accepted) (hentries : e.connection.ledger.entries = f :: fs)
    (h : e.run (.reply r :: evs) = some e') (hopen : e'.connection.isShutDown = false) :
    ∃ e₁ : Engine, e₁.run evs = some e' ∧ e₁.Sound accepted ∧ e₁.connection.ledger.entries = fs
      ∧ e.store.Resolves (fun _ => True) (e.store.touched f r) f.own e₁.store := by
  obtain ⟨e₁, hstep, hrun⟩ := run_cons_inv h
  obtain ⟨hs₁, -, ⟨hempty, -⟩ | ⟨g, hg, htakes⟩⟩ := reply_takes hs hstep
  · -- the ledger is not empty
    rw [hentries] at hempty
    cases hempty
  · have hopen₁ := run_open hs₁ hrun hopen
    have hrest : f :: fs = g :: e₁.connection.ledger.entries := by
      rw [← hentries]
      exact htakes.entries hopen₁
    obtain ⟨-, rfl⟩ := step_reply hstep
    have hprocessed : (e.connection.processReply r).2.isShutDown = false := hopen₁
    exact ⟨_, hrun, hs₁, (List.cons.inj hrest).2.symm,
      Connection.processReply_resolves hs hentries hprocessed⟩

/-- So does a row of replies. -/
theorem run_replies (hs : e.Sound accepted) {xs : List (InFlight × Reply)}
    (hentries : e.connection.ledger.entries = xs.map Prod.fst ++ fs)
    (h : e.run (xs.map fun x => .reply x.2) = some e') (hopen : e'.connection.isShutDown = false) :
    e'.Sound accepted ∧ e'.connection.ledger.entries = fs
      ∧ e.store.Resolves (fun _ => True) (xs.flatMap fun x => e.store.touched x.1 x.2)
        (xs.flatMap fun x => x.1.own) e'.store := by
  induction xs generalizing e with
  | nil =>
      cases h
      exact ⟨hs, hentries, .refl _ _⟩
  | cons x xs ih =>
      obtain ⟨e₁, hrun, hs₁, hentries₁, hfirst⟩ := run_reply hs hentries h hopen
      obtain ⟨hs', hentries', hrest⟩ := ih hs₁ hentries₁ hrun
      have htouched : e₁.store.touched = e.store.touched := by
        funext f r
        exact Store.touched_congr hfirst.draft? f r
      rw [htouched] at hrest
      exact ⟨hs', hentries', hfirst.trans hrest⟩

/-! ## Replies that are no errors -/

/-- The connection is open, and its incoming pump has not failed. -/
structure Alive (e : Engine) : Prop where
  up : e.connection.isShutDown = false
  reading : e.failure = none

/-- Every reply is read as long as the incoming pump has not failed. -/
theorem exists_step_reply (h : e.failure = none) (r : Reply) :
    ∃ e', e.step (.reply r) = some e' := by
  unfold step
  dsimp only
  rw [h]
  exact ⟨_, rfl⟩

/-- A reply to a message that is no error keeps the connection alive. -/
theorem Alive.acknowledged (ha : e.Alive) {x : MessageId}
    (hentries : e.connection.ledger.entries = .message x :: fs)
    (hack : ((e.store.requestOf x).judge r).isError = false) :
    ∃ e', e.step (.reply r) = some e' ∧ e'.Alive ∧ e'.connection.ledger.entries = fs
      ∧ e'.store = e.store.answer x r := by
  have hprocessed : e.connection.processReply r
      = (none, { e.connection.popped fs with store := e.store.answer x r }) :=
    (Connection.processReply_cons hentries r).trans (Connection.answer_of_ack hack)
  obtain ⟨e', hstep⟩ := exists_step_reply ha.reading r
  refine ⟨e', hstep, ?_⟩
  obtain ⟨-, rfl⟩ := step_reply hstep
  rw [hprocessed]
  exact ⟨⟨ha.up, rfl⟩, rfl, rfl⟩

/-- So does a row of such replies. -/
theorem Alive.acknowledged_all {xs : List (InFlight × Reply)} (ha : e.Alive)
    (hentries : e.connection.ledger.entries = xs.map Prod.fst ++ fs)
    (hacks : ∀ x ∈ xs, ∃ id, x.1 = .message id
      ∧ ((e.store.requestOf id).judge x.2).isError = false) :
    ∃ e', e.run (xs.map fun x => .reply x.2) = some e' ∧ e'.Alive := by
  induction xs generalizing e with
  | nil => exact ⟨e, rfl, ha⟩
  | cons x xs ih =>
      obtain ⟨f, r⟩ := x
      obtain ⟨id, hid, hack⟩ := hacks (f, r) List.mem_cons_self
      obtain rfl : f = .message id := hid
      obtain ⟨e₁, hstep, ha₁, hentries₁, hstore⟩ := ha.acknowledged hentries hack
      -- what has been asked is the same as before
      have hrequest : e₁.store.requestOf = e.store.requestOf := by
        rw [hstore]
        exact e.store.answer_requestOf id r
      obtain ⟨e', hrun, ha'⟩ := ih ha₁ hentries₁ fun y hy => by
        rw [hrequest]
        exact hacks y (List.mem_cons_of_mem _ hy)
      refine ⟨e', ?_, ha'⟩
      rw [List.map_cons, run_cons, hstep]
      exact hrun

/-! ## The array of results -/

/-- The completer of a block comes from a batch that has been picked up. -/
theorem Sound.target_of_done (hs : e.Sound accepted) {b : Block}
    (hb : .exec b ∈ e.connection.ledger.entries) {j : MessageId} {k : CompletionId}
    {c : Completion} (hk : e.store.completions[k]? = some c) (ht : c.target = some j)
    (hown : k ∈ InFlight.own (.exec b)) :
    b.done = some ⟨k, .unit⟩ ∧ (∃ ms, e.store.IsBatch j ms) ∧ e.store.phase j ≠ .notSent := by
  rw [InFlight.own_exec] at hown
  cases hd : b.done with
  | none =>
      rw [hd] at hown
      cases hown
  | some d =>
      rw [hd] at hown
      obtain rfl : k = d.completion := List.mem_singleton.mp hown
      obtain ⟨hshape, c', i, ms, hc', hi, hbatch, hp⟩ := hs.custody.completers.done b hb d hd
      cases hc'.symm.trans hk
      cases hi.symm.trans ht
      rw [← hshape]
      exact ⟨rfl, ⟨ms, hbatch⟩, hp⟩

/-- The array for a block is given to the block. -/
theorem step_array {b : Block} {rs : List Reply}
    (h : e.connection.ledger.entries = .exec b :: fs)
    (hstep : e.step (.reply (.multi rs)) = some e') :
    e'.connection = (e.connection.popped fs).answerBlock b (.multi rs)
      ∧ e'.failure = none := by
  have harray := Connection.processReply_array h rs
  obtain ⟨-, rfl⟩ := step_reply hstep
  exact ⟨congrArg Prod.snd harray, congrArg Prod.fst harray⟩

/-- The array `rs` has been given out to the block `b`. -/
structure GivesOut (e e' : Engine) (b : Block) (rs : List Reply) : Prop where
  /-- whoever waits for a member gets the result in the slot of that member -/
  member : ∀ (i : Nat) j r m, b.slots[i]? = some (some j) → rs[i]? = some r →
    e.store.messages[j]? = some m → ∀ (k : CompletionId) c, e.store.completions[k]? = some c →
      c.target = some j → c.Waits → ∃ sh, m.sink = .assigned ⟨k, sh⟩
        ∧ e'.store.completions[k]? = some (c.deliver (m.outcome e.store.now r sh))
  /-- whoever waits for the batch gets to know that it has been given out -/
  batch : ∀ (k : CompletionId) c, b.done = some ⟨k, .unit⟩ → e.store.completions[k]? = some c →
    e'.store.completions[k]? = some (c.deliver (.ok .unit))
  /-- and nothing changes for the others -/
  others : ∀ (k : CompletionId) c, e.store.completions[k]? = some c → ¬ c.Waits →
    e'.store.completions[k]? = some c

/-- The blocks in flight are such that everybody has their own. -/
theorem Sound.fits_head (hs : e.Sound accepted) {b : Block}
    (hentries : e.connection.ledger.entries = .exec b :: fs) : b.Fits e.store := by
  refine Connection.Sound.fits hs ?_
  rw [hentries]
  exact List.mem_cons_self

/-- An array of the right length is given out, whatever the results are. -/
theorem Sound.unpacks (hs : e.Sound accepted) {b : Block} {rs : List Reply}
    (hentries : e.connection.ledger.entries = .exec b :: fs) (hlen : rs.length = b.slots.length)
    (hstep : e.step (.reply (.multi rs)) = some e') :
    (e.connection.popped fs).Unpacks b rs e'.connection := by
  rw [(step_array hentries hstep).1]
  exact Connection.unpacks (hs.fits_head hentries) hlen

/-- So everybody who waits has the outcome. -/
theorem Sound.gives_out (hs : e.Sound accepted) {b : Block} {rs : List Reply}
    (hentries : e.connection.ledger.entries = .exec b :: fs)
    (hlen : rs.length = b.slots.length) (hnodup : b.members.Nodup)
    (hstep : e.step (.reply (.multi rs)) = some e') : GivesOut e e' b rs := by
  have hfits := hs.fits_head hentries
  have hunpacks := hs.unpacks hentries hlen hstep
  constructor
  · intro i j r m hi hr hm k c hk ht hw
    have hj : e.store.IsSingle j :=
      hfits.single j (List.mem_filterMap.mpr ⟨some j, List.mem_of_getElem? hi, rfl⟩)
    obtain ⟨sh, hsink⟩ := hs.custody.sink_of_waits hj.not_isBatch hk ht hw
    have hmsink : m.sink = .assigned ⟨k, sh⟩ := (Store.sink_of_get hm).symm.trans hsink
    exact ⟨sh, hmsink, hunpacks.member i j r m hi hr (Block.first_of_nodup hnodup hi) hm k sh c
      hmsink hk⟩
  · intro k c hd hk
    exact hunpacks.batch k .unit c hd hk
  · intro k c hk hw
    have hkept : (e.store.answerBlock b rs).completions[k]? = some c :=
      (Store.answerBlock_resolves hfits.wellFormed hlen hfits.single).completion_of_not_waits hk hw
    have hstore : e'.store = ((e.connection.popped fs).answerBlock b (.multi rs)).store :=
      congrArg Connection.store (step_array hentries hstep).1
    rw [hstore]
    exact Connection.answerBlock_settled (c := e.connection.popped fs) hfits hlen hkept hw

end Engine

end RespMux
