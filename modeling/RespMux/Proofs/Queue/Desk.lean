import Mathlib.Data.Fintype.EquivFin
import RespMux.Proofs.Queue.Threads

/-!
# No wake-up is lost

Nobody sleeps at a queue without need, however threads take turns there (`Threads.asleep_blocked`).

At a desk, whenever an operation wakes the sleepers, they try again in the order in which they fell
asleep, round after round, until none of them wakes the others. This is one way for threads to take
turns, so all that holds in every run of the threads holds at the desk (`QueueDesk.session_run`).
And the rounds do not end too early: a round that wakes others has let somebody through, and after
one that wakes nobody all that still sleep are blocked (`QueueDesk.session_blocked`).
-/

set_option autoImplicit false

namespace RespMux

variable {α : Type}

/-- What somebody gets at a queue: the result of a call, or all items. -/
abbrev Gain (α : Type) := QueueResult α ⊕ List α

/-- What a thread has got. -/
def Deed.gain? : Deed α → Option (Gain α)
  | .returned _ result => some (.inl result)
  | .drained items => some (.inr items)
  | .closed | .reopened => none

namespace Threads

variable {t t' : Threads α} {n : Nat} {c : QueueCall α}

/-- The call in which a thread sleeps. -/
def callOf (t : Threads α) (n : Nat) : Option (QueueCall α) := (t.asleep n).map Sleeper.call

/-- What the threads have got, the oldest first. -/
def gains (t : Threads α) : List (Gain α) := t.history.filterMap (·.deed.gain?)

/-- Nobody that sleeps has been notified. -/
def Rested (t : Threads α) : Prop := ∀ n s, t.asleep n = some s → s.notified = false

theorem run_append (t : Threads α) (moves moves' : List (Move α)) :
    t.run (moves ++ moves') = (t.run moves).bind (·.run moves') :=
  List.foldlM_append

theorem run_of_step {m : Move α} {moves : List (Move α)} (h : t.step m = some t') :
    t.run (m :: moves) = t'.run moves := by
  rw [run, List.foldlM_cons, h]
  rfl

theorem callOf_sleep (t : Threads α) (n m : Nat) (c : QueueCall α) :
    (t.sleep n c).callOf m = if m = n then some c else t.callOf m := by
  show (Function.update t.asleep n (some { call := c }) m).map Sleeper.call = _
  rw [Function.update_apply]
  split <;> rfl

theorem callOf_rouse (t : Threads α) (n m : Nat) :
    (t.rouse n).callOf m = if m = n then none else t.callOf m := by
  show (Function.update t.asleep n none m).map Sleeper.call = _
  rw [Function.update_apply]
  split <;> rfl

@[simp] theorem callOf_finish (t : Threads α) (deed : Deed α) (q : PriorityQueue α) (wakes : Bool)
    (m : Nat) : (t.finish deed q wakes).callOf m = t.callOf m := by
  unfold callOf finish
  rw [Option.map_map]
  rfl

theorem gains_finish (t : Threads α) (deed : Deed α) (q : PriorityQueue α) (wakes : Bool) :
    (t.finish deed q wakes).gains = t.gains ++ deed.gain?.toList := by
  unfold gains finish
  rw [List.filterMap_append]
  cases h : deed.gain? with
  | none => simp [h]
  | some gain => simp [h]

/-- A thread that sleeps can wake up and try again. -/
theorem step_wake (h : t.callOf n = some c) : t.step (.wake n) = some (t.attempt n c) := by
  obtain ⟨s, hs, rfl⟩ := Option.map_eq_some_iff.mp h
  show (t.asleep n).map (fun s => t.attempt n s.call) = _
  rw [hs]
  rfl

theorem rouse_of_none (h : t.callOf n = none) : t.rouse n = t := by
  unfold rouse
  rw [← Option.map_eq_none_iff.mp h, Function.update_eq_self]

/-- Who falls asleep now has not been notified. -/
theorem Rested.sleep (h : t.Rested) (n : Nat) (c : QueueCall α) : (t.sleep n c).Rested := by
  intro m s hs
  rcases asleep_sleep hs with ⟨-, rfl⟩ | ⟨-, hold⟩
  · rfl
  · exact h m s hold

theorem isNone_asleep (h : t.callOf n = none) : (t.asleep n).isNone = true := by
  rw [Option.map_eq_none_iff.mp h]
  rfl

end Threads

namespace QueueDesk

variable {t t' : Threads α} {desk desk' : QueueDesk α}

/-- What the released callers get. -/
def gains (released : Released α) : List (Gain α) := released.map fun p => .inl p.2

theorem gains_append (released released' : Released α) :
    gains (released ++ released') = gains released ++ gains released' :=
  List.map_append

/-- The callers that sleep at the desk are the threads that sleep. -/
structure Seats (desk : QueueDesk α) (t : Threads α) : Prop where
  queue : t.queue = desk.queue
  apart : (desk.sleepers.map Prod.fst).Nodup
  asleep : ∀ n c, t.callOf n = some c ↔ (n, c) ∈ desk.sleepers

/-! ## A round -/

/-- What a round comes to, from the point of view of the threads: who of the callers sleeps again,
what the others have got, and that a notification is an old one if nobody has woken the others. -/
structure Served (t t' : Threads α) (callers : List (Nat × QueueCall α)) (wakes : Bool)
    (outcome : PriorityQueue α × Bool × List (Nat × QueueCall α) × Released α) : Prop where
  queue : t'.queue = outcome.1
  asleep : ∀ n c, t'.callOf n = some c ↔
    (n, c) ∈ outcome.2.2.1 ∨ n ∉ callers.map Prod.fst ∧ t.callOf n = some c
  gains : t'.gains = t.gains ++ gains outcome.2.2.2
  notified : outcome.2.1 = false → wakes = false ∧ ∀ n s, t'.asleep n = some s →
    s.notified = true → n ∉ callers.map Prod.fst ∧ ∃ s₀, t.asleep n = some s₀ ∧ s₀.notified = true

variable {wakes woke : Bool} {q : PriorityQueue α} {n : Nat} {c : QueueCall α}
variable {callers : List (Nat × QueueCall α)} {result : QueueResult α}
variable {outcome : PriorityQueue α × Bool × List (Nat × QueueCall α) × Released α}

/-- The first caller sleeps again. -/
theorem Served.sleep (h : Served (t.sleep n c) t' callers wakes outcome)
    (hc : t.callOf n = some c) (hn : n ∉ callers.map Prod.fst) :
    Served t t' ((n, c) :: callers) wakes
      (outcome.1, outcome.2.1, (n, c) :: outcome.2.2.1, outcome.2.2.2) where
  queue := h.queue
  gains := h.gains
  asleep m d := by
    rw [h.asleep, t.callOf_sleep]
    by_cases hm : m = n
    · subst hm
      simp [hn, or_comm, eq_comm]
    · simp [hm]
  notified hw := by
    obtain ⟨hwakes, hold⟩ := h.notified hw
    refine ⟨hwakes, fun m s hs hnotified => ?_⟩
    obtain ⟨hm, s₀, hs₀, hn₀⟩ := hold m s hs hnotified
    rcases Threads.asleep_sleep hs₀ with ⟨-, rfl⟩ | ⟨hmn, hs₀⟩
    · cases hn₀
    · exact ⟨by simp [hmn, hm], s₀, hs₀, hn₀⟩

/-- The first caller gets its result. -/
theorem Served.finish
    (h : Served ((t.rouse n).finish (.returned c result) q woke) t' callers (wakes || woke) outcome)
    (hn : n ∉ callers.map Prod.fst) :
    Served t t' ((n, c) :: callers) wakes
      (outcome.1, outcome.2.1, outcome.2.2.1, (n, result) :: outcome.2.2.2) where
  queue := h.queue
  gains := by
    rw [h.gains, Threads.gains_finish, List.append_assoc]
    rfl
  asleep m d := by
    rw [h.asleep, Threads.callOf_finish, t.callOf_rouse]
    by_cases hm : m = n
    · subst hm
      simp [hn]
    · simp [hm]
  notified hw := by
    obtain ⟨hboth, hold⟩ := h.notified hw
    obtain ⟨hwakes, rfl⟩ := Bool.or_eq_false_iff.mp hboth
    refine ⟨hwakes, fun m s hs hnotified => ?_⟩
    obtain ⟨hm, s₀, hs₀, hn₀⟩ := hold m s hs hnotified
    obtain ⟨s₁, hs₁, rfl⟩ := Option.map_eq_some_iff.mp hs₀
    obtain ⟨hmn, hs₁⟩ := Threads.asleep_rouse hs₁
    exact ⟨by simp [hmn, hm], s₁, hs₁, by simpa using hn₀⟩

theorem retry_wait (h : c.attempt q = .wait) :
    retry q wakes ((n, c) :: callers) = ((retry q wakes callers).1, (retry q wakes callers).2.1,
      (n, c) :: (retry q wakes callers).2.2.1, (retry q wakes callers).2.2.2) := by
  rw [retry, h]

theorem retry_done {q' : PriorityQueue α} (h : c.attempt q = .done result q' woke) :
    retry q wakes ((n, c) :: callers) = ((retry q' (wakes || woke) callers).1,
      (retry q' (wakes || woke) callers).2.1, (retry q' (wakes || woke) callers).2.2.1,
      (n, result) :: (retry q' (wakes || woke) callers).2.2.2) := by
  rw [retry, h]

/-- In a round each of the callers wakes up once. -/
theorem retry_run (wakes : Bool) (hapart : (callers.map Prod.fst).Nodup)
    (hasleep : ∀ p ∈ callers, t.callOf p.1 = some p.2) :
    ∃ t', t.run (callers.map fun p => .wake p.1) = some t'
      ∧ Served t t' callers wakes (retry t.queue wakes callers) := by
  induction callers generalizing t wakes with
  | nil =>
      refine ⟨t, rfl, rfl, fun n c => ?_, (List.append_nil _).symm, fun hw => ⟨hw, ?_⟩⟩
      · simp [retry]
      · exact fun n s hs hn => ⟨List.not_mem_nil, s, hs, hn⟩
  | cons p callers ih =>
      obtain ⟨n, c⟩ := p
      obtain ⟨hn, hapart⟩ : n ∉ callers.map Prod.fst ∧ (callers.map Prod.fst).Nodup :=
        List.nodup_cons.mp hapart
      have hc : t.callOf n = some c := hasleep (n, c) List.mem_cons_self
      have hne : ∀ p ∈ callers, p.1 ≠ n := by
        rintro p hp rfl
        exact hn (List.mem_map_of_mem hp)
      obtain ⟨hwait, -⟩ | ⟨result, q, woke, hdone, -⟩ := c.attempt_cases t.queue
      · obtain ⟨t', hrun, hserved⟩ := ih (t := t.sleep n c) wakes hapart fun p hp => by
          rw [t.callOf_sleep, if_neg (hne p hp)]
          exact hasleep p (List.mem_cons_of_mem _ hp)
        refine ⟨t', ?_, ?_⟩
        · rw [List.map_cons, Threads.run_of_step (Threads.step_wake hc), Threads.attempt_wait hwait]
          exact hrun
        · rw [retry_wait hwait]
          exact hserved.sleep hc hn
      · obtain ⟨t', hrun, hserved⟩ := ih (t := (t.rouse n).finish (.returned c result) q woke)
          (wakes || woke) hapart fun p hp => by
            rw [Threads.callOf_finish, t.callOf_rouse, if_neg (hne p hp)]
            exact hasleep p (List.mem_cons_of_mem _ hp)
        refine ⟨t', ?_, ?_⟩
        · rw [List.map_cons, Threads.run_of_step (Threads.step_wake hc), Threads.attempt_done hdone]
          exact hrun
        · rw [retry_done hdone]
          exact hserved.finish hn

/-- Some of the callers sleep again, in the same order. -/
theorem retry_sublist (q : PriorityQueue α) (wakes : Bool) (callers : List (Nat × QueueCall α)) :
    (retry q wakes callers).2.2.1.Sublist callers := by
  induction callers generalizing q wakes with
  | nil => exact List.Sublist.refl []
  | cons p callers ih =>
      obtain ⟨n, c⟩ := p
      obtain ⟨hwait, -⟩ | ⟨result, q', woke, hdone, -⟩ := c.attempt_cases q
      · rw [retry_wait hwait]
        exact (ih q wakes).cons_cons (n, c)
      · rw [retry_done hdone]
        exact (ih q' (wakes || woke)).cons (n, c)

/-- If a round wakes the others, it has let somebody through. -/
theorem retry_length (q : PriorityQueue α) (wakes : Bool) (callers : List (Nat × QueueCall α))
    (h : (retry q wakes callers).2.1 = true) :
    wakes = true ∨ (retry q wakes callers).2.2.1.length < callers.length := by
  induction callers generalizing q wakes with
  | nil => exact Or.inl h
  | cons p callers ih =>
      obtain ⟨n, c⟩ := p
      obtain ⟨hwait, -⟩ | ⟨result, q', woke, hdone, -⟩ := c.attempt_cases q
      · rw [retry_wait hwait] at h ⊢
        exact (ih q wakes h).imp_right Nat.succ_lt_succ
      · rw [retry_done hdone]
        exact Or.inr (Nat.lt_succ_of_le (retry_sublist q' (wakes || woke) callers).length_le)

/-! ## Until nobody wakes the others -/

/-- From these threads there is a run to others who sleep as the callers at the desk do, none of
them notified, and in which the threads get what is listed here. -/
def Follows (t : Threads α) (desk : QueueDesk α) (given : List (Gain α)) : Prop :=
  ∃ moves t' got, t.run moves = some t' ∧ desk.Seats t' ∧ t'.Rested
    ∧ t'.gains = t.gains ++ got ∧ got.Perm given

theorem Follows.perm {given given' : List (Gain α)} (h : Follows t desk given)
    (hperm : given.Perm given') : Follows t desk given' := by
  obtain ⟨moves, t', got, hrun, hseats, hrested, hgains, hgot⟩ := h
  exact ⟨moves, t', got, hrun, hseats, hrested, hgains, hgot.trans hperm⟩

theorem Follows.of_run {moves : List (Move α)} {new given : List (Gain α)}
    (hrun : t.run moves = some t') (hnew : t'.gains = t.gains ++ new)
    (h : Follows t' desk given) : Follows t desk (new ++ given) := by
  obtain ⟨moves', t₁, got, hrun', hseats, hrested, hgains, hperm⟩ := h
  refine ⟨moves ++ moves', t₁, new ++ got, ?_, hseats, hrested, ?_, hperm.append_left new⟩
  · rw [Threads.run_append, hrun]
    exact hrun'
  · rw [hgains, hnew, List.append_assoc]

/-- After a round of all that sleep, those that sleep again do so at the desk. -/
theorem Seats.served (h : desk.Seats t)
    (hserved : Served t t' desk.sleepers false (retry desk.queue false desk.sleepers)) :
    let served := retry desk.queue false desk.sleepers
    Seats ⟨served.1, served.2.2.1⟩ t' ∧ (served.2.1 = false → t'.Rested) := by
  have hnobody : ∀ n c, ¬ (n ∉ desk.sleepers.map Prod.fst ∧ t.callOf n = some c) :=
    fun n c ⟨hn, hc⟩ => hn (List.mem_map_of_mem ((h.asleep n c).mp hc))
  refine ⟨⟨hserved.queue, ?_, fun n c => ?_⟩, fun hw n s hs => ?_⟩
  · exact h.apart.sublist ((retry_sublist desk.queue false desk.sleepers).map Prod.fst)
  · exact (hserved.asleep n c).trans (or_iff_left (hnobody n c))
  · refine Bool.eq_false_iff.mpr fun hnotified => ?_
    obtain ⟨hn, s₀, hs₀, -⟩ := (hserved.notified hw).2 n s hs hnotified
    exact hnobody n s₀.call ⟨hn, Option.map_eq_some_iff.mpr ⟨s₀, hs₀, rfl⟩⟩

/-- The sleepers get their turns in rounds, and with one round more than there are sleepers they
come to rest. -/
theorem settle_run (rounds : Nat) (h : desk.Seats t) (hrounds : desk.sleepers.length < rounds) :
    Follows t (settle rounds desk).2 (gains (settle rounds desk).1) := by
  induction rounds generalizing desk t with
  | zero => exact absurd hrounds (Nat.not_lt_zero _)
  | succ rounds ih =>
      obtain ⟨t₁, hrun, hserved⟩ := retry_run (t := t) false h.apart fun p hp =>
        (h.asleep p.1 p.2).mpr hp
      rw [h.queue] at hserved
      obtain ⟨hseats, hrested⟩ := h.served hserved
      have hlength := retry_length desk.queue false desk.sleepers
      unfold settle
      dsimp only
      split
      · next hwoke =>
        have hfewer := (hlength hwoke).resolve_left Bool.false_ne_true
        rw [gains_append]
        exact (ih hseats (Nat.lt_of_lt_of_le hfewer (Nat.le_of_lt_succ hrounds))).of_run hrun
          hserved.gains
      · next hwoke =>
        exact ⟨_, t₁, _, hrun, hseats, hrested (Bool.eq_false_iff.mpr hwoke), hserved.gains,
          List.Perm.refl _⟩

theorem after_run {wakes : Bool} (h : desk.Seats t) (hrested : wakes = false → t.Rested) :
    Follows t (desk.after wakes).2 (gains (desk.after wakes).1) := by
  unfold after
  cases wakes with
  | false => exact ⟨[], t, [], rfl, h, hrested rfl, (List.append_nil _).symm, List.Perm.refl _⟩
  | true =>
      exact (settle_run (desk.sleepers.length + 1) h (Nat.lt_succ_self _)).perm
        ((List.mergeSort_perm _ _).map _).symm

/-! ## Operations -/

/-- What can be asked of a desk. -/
inductive Visit (α : Type) where
  | call (n : Nat) (c : QueueCall α)
  | drain
  | close
  | reopen

/-- What the callers get, and the desk afterwards; none if the caller sleeps already. -/
def serve (desk : QueueDesk α) : Visit α → Option (List (Gain α) × QueueDesk α)
  | .call n c =>
      if n ∈ desk.sleepers.map Prod.fst then none
      else
        let (result, released, desk) := desk.call n c
        some ((result.map Sum.inl).toList ++ gains released, desk)
  | .drain => some (.inr desk.drain.1 :: gains desk.drain.2.1, desk.drain.2.2)
  | .close => some (gains desk.close.1, desk.close.2)
  | .reopen => some (gains desk.reopen.1, desk.reopen.2)

/-- A whole session. -/
def session (desk : QueueDesk α) : List (Visit α) → Option (List (Gain α) × QueueDesk α)
  | [] => some ([], desk)
  | v :: vs =>
      match desk.serve v with
      | none => none
      | some (given, desk) => (desk.session vs).map fun p => (given ++ p.1, p.2)

/-- A thread that is not asleep finishes something, and the sleepers that it wakes go on. -/
theorem finish_run {deed : Deed α} {q : PriorityQueue α} {wakes : Bool} {move : Move α}
    (h : desk.Seats t) (hrested : t.Rested)
    (hstep : t.step move = some (t.finish deed q wakes)) :
    Follows t (after { desk with queue := q } wakes).2
      (deed.gain?.toList ++ gains (after { desk with queue := q } wakes).1) := by
  have hseats : Seats { desk with queue := q } (t.finish deed q wakes) :=
    ⟨rfl, h.apart, fun n c => by rw [Threads.callOf_finish]; exact h.asleep n c⟩
  have hrun : t.run [move] = some (t.finish deed q wakes) := Threads.run_of_step hstep
  refine (after_run hseats fun hw n s hs => ?_).of_run hrun (t.gains_finish deed q wakes)
  obtain ⟨s₀, hs₀, rfl⟩ := Option.map_eq_some_iff.mp hs
  exact Bool.or_eq_false_iff.mpr ⟨hrested n s₀ hs₀, hw⟩

theorem Seats.callOf_none {n : Nat} (h : desk.Seats t) (hn : n ∉ desk.sleepers.map Prod.fst) :
    t.callOf n = none := by
  refine Option.eq_none_iff_forall_ne_some.mpr fun c hc => hn ?_
  exact List.mem_map_of_mem ((h.asleep n c).mp hc)

/-- A caller that has to wait sits down behind the others. -/
theorem Seats.sleep {n : Nat} (h : desk.Seats t) (hn : n ∉ desk.sleepers.map Prod.fst)
    (c : QueueCall α) :
    Seats { desk with sleepers := desk.sleepers ++ [(n, c)] } (t.sleep n c) := by
  refine ⟨h.queue, ?_, fun m d => ?_⟩
  · rw [List.map_append]
    exact List.nodup_append_comm.mp (List.nodup_cons.mpr ⟨hn, h.apart⟩)
  · rw [t.callOf_sleep, List.mem_append, List.mem_singleton, ← h.asleep]
    by_cases hm : m = n
    · subst hm
      simp [h.callOf_none hn, eq_comm]
    · simp [hm]

/-- What can be asked of a desk can be done by a thread. -/
theorem serve_run {v : Visit α} {given : List (Gain α)} (h : desk.Seats t)
    (hrested : t.Rested) (hserve : desk.serve v = some (given, desk')) :
    Follows t desk' given := by
  -- somebody who does not sleep
  obtain ⟨m, hm⟩ := Infinite.exists_notMem_finset (desk.sleepers.map Prod.fst).toFinset
  have hawake : (t.asleep m).isNone = true :=
    Threads.isNone_asleep (h.callOf_none fun hmem => hm (List.mem_toFinset.mpr hmem))
  cases v with
  | call n c =>
      unfold serve at hserve
      dsimp only at hserve
      split at hserve
      · cases hserve
      · next hn =>
        have hnone := h.callOf_none hn
        have hstep : t.step (.call n c) = some (t.attempt n c) :=
          if_pos (Threads.isNone_asleep hnone)
        obtain ⟨hwait, -⟩ | ⟨result, q, wakes, hdone, -⟩ := c.attempt_cases desk.queue
        · rw [Threads.attempt_wait (h.queue ▸ hwait)] at hstep
          rw [call, hwait] at hserve
          cases hserve
          exact ⟨[.call n c], t.sleep n c, [], Threads.run_of_step hstep, h.sleep hn c,
            hrested.sleep n c, (List.append_nil _).symm, List.Perm.refl _⟩
        · rw [Threads.attempt_done (h.queue ▸ hdone), Threads.rouse_of_none hnone] at hstep
          rw [call, hdone] at hserve
          cases hserve
          exact finish_run h hrested hstep
  | drain =>
      cases hserve
      have hstep : t.step (.drain m)
          = some (t.finish (.drained desk.queue.drain.1) desk.queue.drain.2 true) := by
        rw [← h.queue]
        exact if_pos hawake
      exact finish_run h hrested hstep
  | close =>
      cases hserve
      have hstep : t.step (.close m) = some (t.finish .closed desk.queue.close true) := by
        rw [← h.queue]
        exact if_pos hawake
      exact finish_run h hrested hstep
  | reopen =>
      cases hserve
      have hstep : t.step (.reopen m) = some (t.finish .reopened desk.queue.reopen true) := by
        rw [← h.queue]
        exact if_pos hawake
      exact finish_run h hrested hstep

theorem session_follows {vs : List (Visit α)} {given : List (Gain α)} (h : desk.Seats t)
    (hrested : t.Rested) (hsession : desk.session vs = some (given, desk')) :
    Follows t desk' given := by
  induction vs generalizing desk t given with
  | nil =>
      cases hsession
      exact ⟨[], t, [], rfl, h, hrested, (List.append_nil _).symm, List.Perm.refl _⟩
  | cons v vs ih =>
      unfold session at hsession
      split at hsession
      · cases hsession
      · next given₁ desk₁ hserve =>
        obtain ⟨⟨given₂, desk₂⟩, hrest, heq⟩ := Option.map_eq_some_iff.mp hsession
        cases heq
        obtain ⟨moves, t₁, got, hrun, hseats, hrested₁, hgains, hperm⟩ :=
          serve_run h hrested hserve
        exact ((ih hseats hrested₁ hrest).of_run hrun hgains).perm (hperm.append_right given₂)

/-- A desk at which nobody sleeps. -/
def opened (limit : Nat) : QueueDesk α := { queue := .withLimit limit }

theorem opened_seats (limit : Nat) : (opened limit : QueueDesk α).Seats (Threads.start limit) :=
  ⟨rfl, List.nodup_nil, fun _ _ => iff_of_false (by rintro ⟨⟩) List.not_mem_nil⟩

/-- A session at a desk is a run of threads at a queue: they sleep as the callers do, and get what
the callers get. -/
theorem session_run {limit : Nat} {vs : List (Visit α)} {given : List (Gain α)}
    (h : (opened limit).session vs = some (given, desk)) :
    ∃ moves t, (Threads.start limit).run moves = some t ∧ desk.Seats t ∧ t.Rested
      ∧ t.gains.Perm given := by
  have hnobody : (Threads.start limit : Threads α).Rested := fun n s hs => by cases hs
  obtain ⟨moves, t, got, hrun, hseats, hrested, hgains, hperm⟩ :=
    session_follows (opened_seats limit) hnobody h
  have hgot : t.gains = got := hgains
  exact ⟨moves, t, hrun, hseats, hrested, hgot ▸ hperm⟩

/-- Whoever sleeps at a desk has to. -/
theorem session_blocked {limit : Nat} {vs : List (Visit α)} {given : List (Gain α)}
    (h : (opened limit).session vs = some (given, desk)) :
    ∀ p ∈ desk.sleepers, p.2.Blocked desk.queue := by
  rintro ⟨n, c⟩ hp
  obtain ⟨moves, t, hrun, hseats, hrested, -⟩ := session_run h
  obtain ⟨s, hs, rfl⟩ := Option.map_eq_some_iff.mp ((hseats.asleep n c).mpr hp)
  rw [← hseats.queue]
  exact (Threads.run_patient hrun).blocked n s hs (hrested n s hs)

end QueueDesk

namespace Threads

/-- At a queue for `limit` items nobody misses the moment at which it could go on. -/
structure LosesNoWakeUp (α : Type) (limit : Nat) : Prop where
  /-- however the threads take turns, one that sleeps to take something out, and has not been
  notified since it fell asleep, would find both lanes empty -/
  consumer : ∀ (moves : List (Move α)) t n s mayWait, (start limit).run moves = some t →
    t.asleep n = some s → s.notified = false → s.call = .dequeue mayWait →
    t.queue.high = [] ∧ t.queue.standard = [] ∧ t.queue.isClosed = false
  /-- and one that sleeps to put something in would find the standard lane full -/
  producer : ∀ (moves : List (Move α)) t n s item priority, (start limit).run moves = some t →
    t.asleep n = some s → s.notified = false → s.call = .enqueue item priority →
    t.queue.standard.length = max 1 limit ∧ t.queue.isClosed = false
  /-- at a desk everybody who sleeps has to -/
  desk : ∀ (vs : List (QueueDesk.Visit α)) given desk,
    (QueueDesk.opened limit).session vs = some (given, desk) →
    ∀ p ∈ desk.sleepers, p.2.Blocked desk.queue

/-- No wake-up is lost, neither by threads that take turns in any order nor at a desk. -/
theorem no_wakeUp_lost (α : Type) (limit : Nat) : LosesNoWakeUp α limit where
  consumer _ _ _ _ mayWait h hs hn hcall := (asleep_blocked h hs hn).1 mayWait hcall
  producer _ _ _ _ item priority h hs hn hcall := (asleep_blocked h hs hn).2 item priority hcall
  desk _ _ _ h := QueueDesk.session_blocked h

/-- Three producers at a lane with room for one, and a consumer: of the two that sleep when it takes
an item out, one gets through and the other finds the lane full again. -/
def crowd : List (Move Nat) :=
  [.call 1 (.enqueue 5 .standard), .call 2 (.enqueue 6 .standard), .call 3 (.enqueue 7 .standard),
    .call 4 (.dequeue true), .wake 3, .wake 2]

theorem no_wakeUp_lost_crowd :
    ∃ t s, (start 0).run crowd = some t ∧ t.asleep 2 = some s ∧ s.notified = false
      ∧ t.queue.standard.length = max 1 0 ∧ t.queue.isClosed = false :=
  ⟨_, { call := .enqueue 6 .standard }, rfl, rfl, rfl,
    (no_wakeUp_lost Nat 0).producer crowd _ 2 { call := .enqueue 6 .standard } 6 .standard rfl rfl
      rfl rfl⟩

end Threads

end RespMux
