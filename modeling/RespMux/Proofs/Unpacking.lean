import RespMux.Proofs.Alignment

/-!
# A block is answered as a whole

The reply to a block is one array with a result for each of its commands, or anything else. An
array of the right length is given out to the members (`Connection.Unpacks`).

Whatever else comes fails the block as a whole (`FailsWhole`): there is one error, everybody who
still waits for a member or for the batch gets it, and nobody gets a result.
-/

set_option autoImplicit false

namespace RespMux

/-! ## Failing as a whole -/

/-- The block `b` fails with the error `e`, from the store `s` to the store `s'`. -/
structure Store.FailsWhole (s : Store) (b : Block) (e : Error) (s' : Store) : Prop where
  complete : ∀ j ∈ b.members, s'.phase j = .complete
  /-- every member that still has its completer gives the error -/
  member : ∀ j ∈ b.members, ∀ (k : CompletionId) sh d, s.sink j = .assigned ⟨k, sh⟩ →
    s.completions[k]? = some d → s'.completions[k]? = some (d.deliver (.error e))
  batch : ∀ (k : CompletionId) sh d, b.done = some ⟨k, sh⟩ → s.completions[k]? = some d →
    s'.completions[k]? = some (d.deliver (.error e))
  /-- and nobody is given anything else -/
  only : ∀ (k : CompletionId) d, s.completions[k]? = some d →
    s'.completions[k]? = some d ∨ s'.completions[k]? = some (d.deliver (.error e))

namespace Store

variable {s : Store}

theorem foldl_finish_sink (l : List MessageId) (o : Shape → Outcome) (j : MessageId) :
    (l.foldl (fun s id => s.finish id o) s).sink j
      = if j ∈ l then .consumed else s.sink j := by
  induction l generalizing s with
  | nil => rfl
  | cons i l ih =>
      rw [List.foldl_cons, ih]
      by_cases hj : j ∈ l
      · rw [if_pos hj, if_pos (List.mem_cons_of_mem i hj)]
      · rw [if_neg hj]
        by_cases hi : i = j
        · subst hi
          rw [if_pos List.mem_cons_self, finish_sink_self]
        · rw [sink_congr (finish_messages_ne hi o), if_neg (by simp [hj, Ne.symm hi])]

theorem foldl_fail_sink (l : List MessageId) (e : Error) (j : MessageId) :
    (l.foldl (fun s id => s.fail id e) s).sink j
      = if j ∈ l.flatMap s.scopeOf then .consumed else s.sink j := by
  induction l generalizing s with
  | nil => rfl
  | cons i l ih =>
      have hscope : (s.fail i e).scopeOf = s.scopeOf :=
        funext fun id => scopeOf_congr (s.fail_draft? i id e)
      have hfirst : (s.fail i e).sink j = if j ∈ s.scopeOf i then .consumed else s.sink j :=
        foldl_finish_sink (s.scopeOf i) (fun _ => .error e) j
      rw [List.foldl_cons, ih, hscope, hfirst, List.flatMap_cons]
      by_cases hl : j ∈ l.flatMap s.scopeOf
      · rw [if_pos hl, if_pos (List.mem_append_right _ hl)]
      · rw [if_neg hl]
        simp [hl]

/-- A message is among those that fail with it. -/
theorem WellFormed.self_mem_scopeOf (wf : s.WellFormed) {j : MessageId} {m : Message}
    (hm : s.messages[j]? = some m) : j ∈ s.scopeOf j := by
  have hd := draft?_of_get hm
  rw [scopeOf_of_draft? hd]
  cases hb : m.draft.body with
  | single => simp [(wf.single j _ hd hb).2]
  | envelope inner =>
      obtain ⟨-, -, -, -, -, hscope⟩ := wf.envelope j _ inner hd hb
      simp [hscope]
  | batch ms => simp [(wf.batch j _ ms hd hb).2.1]

theorem exists_get_of_assigned {j : MessageId} {c : Completer} (h : s.sink j = .assigned c) :
    ∃ m, s.messages[j]? = some m := by
  unfold sink at h
  split at h
  · next m hm => exact ⟨m, hm⟩
  · cases h

/-- The failure of a block uses the completers of its members up. -/
theorem failBlock_sink (wf : s.WellFormed) {b : Block} {j : MessageId} {m : Message}
    (hj : j ∈ b.members) (hm : s.messages[j]? = some m) (e : Error) :
    (s.failBlock b e).sink j = .consumed := by
  have hmem : j ∈ b.members.flatMap s.scopeOf :=
    List.mem_flatMap.mpr ⟨j, hj, wf.self_mem_scopeOf hm⟩
  have hfold : (b.members.foldl (fun s id => s.fail id e) s).sink j = .consumed := by
    rw [foldl_fail_sink, if_pos hmem]
  unfold failBlock
  cases b.done with
  | none => exact hfold
  | some done => exact hfold

/-- The failure of a block is one for everybody. -/
theorem failsWhole (wf : s.WellFormed) (b : Block) (e : Error) :
    s.FailsWhole b e (s.failBlock b e) := by
  have hresolves := failBlock_resolves wf b e
  constructor
  · intro j hj
    cases hm : s.messages[j]? with
    | none =>
        have hnone : s.phase j = .complete := by
          unfold phase
          rw [hm]
        exact hresolves.complete hnone
    | some m =>
        exact failBlock_phase wf b e j (List.mem_flatMap.mpr ⟨j, hj, wf.self_mem_scopeOf hm⟩)
  · intro j hj k sh d hsink hk
    obtain ⟨m, hm⟩ := exists_get_of_assigned hsink
    exact hresolves.given_of_consumed hk hsink (failBlock_sink wf hj hm e)
  · intro k sh d hd hk
    refine hresolves.given hk (failBlock_given b e k ?_)
    rw [InFlight.own_exec, hd]
    exact List.mem_singleton_self k
  · intro k d hk
    rcases hresolves.completion k d hk with hsame | ⟨⟨o, rfl, hd⟩, -⟩
    · exact .inl hsame
    · exact .inr hd

end Store

namespace Connection

variable {c : Connection} {b : Block} {r : Reply}

/-- A reply that is no array of the right length is an error for the block. -/
theorem results?_error (h : ∀ rs, r = .multi rs → rs.length ≠ b.slots.length) :
    ∃ e, b.results? r = .error e := by
  cases hres : b.results? r with
  | error e => exact ⟨e, rfl⟩
  | ok rs =>
      obtain ⟨rfl, hlen⟩ := results?_ok hres
      exact absurd hlen (h rs rfl)

/-- It leaves the connection as it is, apart from what is counted and published. -/
theorem answerInFlight_refused (c : Connection) {e : Error} (h : b.results? r = .error e) :
    ∃ n events, c.answerInFlight (.exec b) r
      = (none, { c with store := c.store.failBlock b e, counters := n, events := events }) := by
  have hblock : c.answerBlock b r = { c with store := c.store.failBlock b e } := by
    unfold answerBlock
    rw [h]
  unfold answerInFlight
  dsimp only
  rw [hblock]
  split
  · exact ⟨_, _, rfl⟩
  · exact ⟨_, _, rfl⟩

/-- What comes of the block `b` on the connection `c`. -/
structure AllOrNothing (c : Connection) (b : Block) : Prop where
  /-- an array with exactly one result for each slot is given out -/
  results : ∀ rs, rs.length = b.slots.length →
    ∃ c', c.answerInFlight (.exec b) (.multi rs) = (none, c') ∧ c.Unpacks b rs c'
  /-- any other reply fails the block and is otherwise only counted and published -/
  refused : ∀ r, (∀ rs, r = .multi rs → rs.length ≠ b.slots.length) →
    ∃ e s n events, b.results? r = .error e ∧ c.store.FailsWhole b e s
      ∧ c.answerInFlight (.exec b) r
        = (none, { c with store := s, counters := n, events := events })
  /-- so does a failure of the frame -/
  failure : ∀ e, c.store.FailsWhole b e (c.store.failInFlight (.exec b) e)
  /-- and any reply at all, if the connection is gone -/
  orphan : ∀ r, ∃ e, c.store.FailsWhole b e (c.store.answerOrphan b r)

/-- Whatever is delivered to a block, all its members are given their results or none is. -/
theorem exec_all_or_nothing (c : Connection) (b : Block) (hfits : b.Fits c.store) :
    c.AllOrNothing b where
  results rs hlen := ⟨_, rfl, unpacks hfits hlen⟩
  refused r hr := by
    obtain ⟨e, he⟩ := results?_error hr
    obtain ⟨n, events, heq⟩ := c.answerInFlight_refused he
    exact ⟨e, _, n, events, he, Store.failsWhole hfits.wellFormed b e, heq⟩
  failure e := Store.failsWhole hfits.wellFormed b e
  orphan r := by
    unfold Store.answerOrphan
    split
    · exact ⟨_, Store.failsWhole hfits.wellFormed b _⟩
    · exact ⟨_, Store.failsWhole hfits.wellFormed b _⟩

/-- The second choice is the caller's, and it is refused. -/
theorem exec_all_or_nothing_mixed :
    ∃ e b, (Engine.new {}).run (Engine.mixed ++ [.round]) = some e
      ∧ .exec b ∈ e.connection.ledger.entries ∧ b.slots = [none, some 0, some 2, none, some 3]
      ∧ e.connection.AllOrNothing b
      ∧ e.store.failures (b.pairs Engine.mixedResults)
        = [.criticalFailure "7: SELECT" "ERR DB index is out of range"] := by
  have hrun : (Engine.new {}).run (Engine.mixed ++ [.round])
      = some (((Engine.new {}).run (Engine.mixed ++ [.round])).get (by decide)) :=
    (Option.some_get _).symm
  have hmem : .exec ⟨[none, some 0, some 2, none, some 3], some ⟨4, .unit⟩⟩
      ∈ (((Engine.new {}).run (Engine.mixed ++ [.round])).get
        (by decide)).connection.ledger.entries := by decide
  exact ⟨_, _, hrun, hmem, rfl, exec_all_or_nothing _ _ ((Engine.run_new_sound hrun).fits hmem),
    by decide⟩

end Connection

end RespMux
