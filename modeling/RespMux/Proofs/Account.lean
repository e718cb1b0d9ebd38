import RespMux.Proofs.Engine.Collecting
import RespMux.Proofs.Transactions

/-!
# What becomes of the commands of a transaction

A command that a transaction has collected is in one place: in a batch that has been executed, among
the commands that have been discarded, or still in the transaction (`Engine.Partitioned`). To drop a
transaction is to discard what it has.

The account of a transaction says what has happened to it, the oldest entry first. An account is
balanced if whatever leaves is what has come in since the last time, the urgent commands first. That
alone makes each command leave or stay once (`Account.Balanced.count`). Accounts are balanced, since
at any time a transaction has in its lanes what its account says (`Engine.Books`).

A command that is in no batch goes on to wait, or it has been cancelled: nobody else can do anything
about it, as long as it has been given to the transaction only (`Engine.Entrusted`). While an
`execute` waits for room in the queue of the connection, what happens to the transaction counts as
happening later.
-/

set_option autoImplicit false

namespace RespMux

/-- What happens to a transaction. -/
inductive Entry where
  /-- a command has come in -/
  | collected (id : MessageId) (priority : Priority)
  /-- the commands have gone into a batch -/
  | executed (batch : MessageId) (members : List MessageId)
  /-- the commands have been cancelled -/
  | discarded (members : List MessageId)
  deriving DecidableEq, Repr

namespace Entry

/-- The command that has come in. -/
def command? : Entry → Option MessageId
  | collected id _ => some id
  | _ => none

/-- The commands that have left. -/
def leaving? : Entry → Option (List MessageId)
  | collected _ _ => none
  | executed _ members => some members
  | discarded members => some members

/-- The batch that has been made. -/
def batch? : Entry → Option (MessageId × List MessageId)
  | executed batch members => some (batch, members)
  | _ => none

/-- The commands that have been cancelled. -/
def cancelled : Entry → List MessageId
  | discarded members => members
  | _ => []

end Entry

/-! ## Accounts -/

namespace Account

/-- The commands that have come in. -/
def commands (l : List Entry) : List MessageId := l.filterMap Entry.command?

/-- The batches that have been made, each with its members. -/
def batches (l : List Entry) : List (MessageId × List MessageId) := l.filterMap Entry.batch?

/-- The commands that have gone into a batch. -/
def batched (l : List Entry) : List MessageId := (batches l).flatMap Prod.snd

/-- The commands that have been cancelled. -/
def cancelled (l : List Entry) : List MessageId := l.flatMap Entry.cancelled

/-- The commands that have come in since the last time commands have left. -/
def since (l : List Entry) : List (MessageId × Priority) :=
  l.foldl (fun waiting entry =>
    match entry with
    | .collected id priority => waiting ++ [(id, priority)]
    | _ => []) []

/-- Those of one priority. -/
def lane (waiting : List (MessageId × Priority)) (p : Priority) : List MessageId :=
  (waiting.filter (·.2 = p)).map Prod.fst

/-- The order in which they leave: the urgent ones first, each lane in the order of arrival. -/
def inOrder (waiting : List (MessageId × Priority)) : List MessageId :=
  lane waiting .high ++ lane waiting .standard

theorem commands_append (l l' : List Entry) : commands (l ++ l') = commands l ++ commands l' :=
  List.filterMap_append

theorem mem_batches {l : List Entry} {b : MessageId} {ms : List MessageId} :
    (b, ms) ∈ batches l ↔ .executed b ms ∈ l := by
  unfold batches
  rw [List.mem_filterMap]
  constructor
  · rintro ⟨entry, hentry, hbatch⟩
    cases entry with
    | executed b' ms' =>
        cases hbatch
        exact hentry
    | _ => cases hbatch
  · exact fun hentry => ⟨_, hentry, rfl⟩

theorem mem_cancelled {l : List Entry} {id : MessageId} :
    id ∈ cancelled l ↔ ∃ ms, .discarded ms ∈ l ∧ id ∈ ms := by
  unfold cancelled
  rw [List.mem_flatMap]
  constructor
  · rintro ⟨entry, hentry, hid⟩
    cases entry with
    | discarded ms => exact ⟨ms, hentry, hid⟩
    | _ => cases hid
  · rintro ⟨ms, hentry, hid⟩
    exact ⟨_, hentry, hid⟩

theorem batches_append (l l' : List Entry) : batches (l ++ l') = batches l ++ batches l' :=
  List.filterMap_append

theorem batched_append (l l' : List Entry) : batched (l ++ l') = batched l ++ batched l' := by
  unfold batched
  rw [batches_append, List.flatMap_append]

theorem cancelled_append (l l' : List Entry) :
    cancelled (l ++ l') = cancelled l ++ cancelled l' :=
  List.flatMap_append

@[simp] theorem since_collected (l : List Entry) (id : MessageId) (p : Priority) :
    since (l ++ [.collected id p]) = since l ++ [(id, p)] := by
  unfold since
  rw [List.foldl_append]
  rfl

@[simp] theorem since_executed (l : List Entry) (b : MessageId) (ms : List MessageId) :
    since (l ++ [.executed b ms]) = [] := by
  unfold since
  rw [List.foldl_append]
  rfl

@[simp] theorem since_discarded (l : List Entry) (ms : List MessageId) :
    since (l ++ [.discarded ms]) = [] := by
  unfold since
  rw [List.foldl_append]
  rfl

theorem lane_append_one (waiting : List (MessageId × Priority)) (id : MessageId)
    (p p' : Priority) :
    lane (waiting ++ [(id, p)]) p' = lane waiting p' ++ if p = p' then [id] else [] := by
  unfold lane
  rw [List.filter_append, List.map_append]
  by_cases h : p = p'
  · simp [h]
  · simp [h]

/-- The order is all that the lanes change. -/
theorem inOrder_perm (waiting : List (MessageId × Priority)) :
    (inOrder waiting).Perm (waiting.map Prod.fst) := by
  have hstandard : waiting.filter (·.2 = .standard)
      = waiting.filter fun x => !decide (x.2 = .high) := by
    refine List.filter_congr fun x _ => ?_
    cases x.2 with
    | high => rfl
    | standard => rfl
  unfold inOrder lane
  rw [hstandard, ← List.map_append]
  exact (List.filter_append_perm _ waiting).map Prod.fst

theorem inOrder_count (waiting : List (MessageId × Priority)) (id x : MessageId) (p : Priority) :
    (inOrder (waiting ++ [(id, p)])).count x = (inOrder waiting).count x + [id].count x := by
  rw [(inOrder_perm _).count_eq, (inOrder_perm waiting).count_eq, List.map_append,
    List.count_append]
  rfl

theorem inOrder_length (waiting : List (MessageId × Priority)) :
    (inOrder waiting).length = waiting.length := by
  rw [(inOrder_perm waiting).length_eq, List.length_map]

/-- Whatever leaves is what has come in since the last time. -/
def Balanced (l : List Entry) : Prop :=
  ∀ l₁ entry l₂, l = l₁ ++ entry :: l₂ → ∀ ms, entry.leaving? = some ms → ms = inOrder (since l₁)

theorem Balanced.append_left {l l' : List Entry} (h : Balanced (l ++ l')) : Balanced l := by
  rintro l₁ entry l₂ rfl
  exact h l₁ entry (l₂ ++ l') (by rw [List.append_assoc, List.cons_append])

theorem Balanced.last {l : List Entry} {entry : Entry} (h : Balanced (l ++ [entry]))
    {ms : List MessageId} (hms : entry.leaving? = some ms) : ms = inOrder (since l) :=
  h l entry [] rfl ms hms

/-- In a balanced account a command leaves or stays as often as it has come in. -/
theorem Balanced.count {l : List Entry} (h : Balanced l) (x : MessageId) :
    (commands l).count x
      = (batched l).count x + (cancelled l).count x + (inOrder (since l)).count x := by
  induction l using List.reverseRecOn with
  | nil => rfl
  | append_singleton l entry ih =>
      have ih := ih h.append_left
      rw [commands_append, batched_append, cancelled_append]
      simp only [List.count_append]
      cases entry with
      | collected id p =>
          rw [since_collected, inOrder_count, ih]
          show _ + [id].count x = _ + [].count x + (_ + [].count x) + _
          simp only [List.count_nil]
          omega
      | executed b ms =>
          -- everything that has waited goes into the batch
          have hms : ms = inOrder (since l) := h.last rfl
          have hone : batched [.executed b ms] = ms := List.append_nil ms
          rw [since_executed, ih, hone, hms]
          show _ + [].count x = _ + _ + (_ + [].count x) + [].count x
          simp only [List.count_nil]
          omega
      | discarded ms =>
          have hms : ms = inOrder (since l) := h.last rfl
          have hone : cancelled [.discarded ms] = ms := List.append_nil ms
          rw [since_discarded, ih, hone, hms]
          show _ + [].count x = _ + [].count x + (_ + _) + [].count x
          simp only [List.count_nil]
          omega

end Account

/-- Whatever is cancelled with others does not wait any more. -/
theorem Store.cancelAll_phase {s : Store} {ids : List MessageId} {id : MessageId}
    (wf : s.WellFormed) (hid : id ∈ ids) :
    (ids.foldl (fun s id => (s.cancel id).2) s).phase id ≠ .notSent := by
  induction ids generalizing s with
  | nil => cases hid
  | cons i ids ih =>
      have hwf := (cancel_resolves wf i).wellFormed wf
      rcases List.mem_cons.mp hid with rfl | hid
      · obtain ⟨given, hrest⟩ := cancelAll_resolves hwf ids
        exact hrest.ne_notSent (cancel_phase_self wf id)
      · exact ih hwf hid

namespace Connection

variable {c : Connection} {t : Nat} {id : MessageId}

/-- A message with one place that is collected is in no batch. -/
theorem unbatched_of_collected (hplaces : c.places id ≤ 1) (h : id ∈ (c.collected t).toList) :
    c.store.batchesWith id = [] := by
  have hpos : 0 < c.gathered.count id := List.count_pos_iff.mpr (mem_gathered h)
  unfold places at hplaces
  exact List.length_eq_zero_iff.mp (by omega)

/-- What is discarded loses its place. -/
theorem discard_places (wf : c.store.WellFormed) (t : Nat) (id : MessageId) :
    (c.discardTransaction t).2.places id + (c.collected t).toList.count id ≤ c.places id := by
  obtain ⟨given, hcancel⟩ := Store.cancelAll_resolves wf (c.collected t).toList
  have hgathered := c.emptied_gathered t id
  have hsame : (c.discardTransaction t).2.gathered
      = (c.setCollected t (c.collected t).drain.2).gathered := rfl
  have hbatches : ((c.discardTransaction t).2.store.batchesWith id).length
      ≤ (c.store.batchesWith id).length :=
    Store.batchesWith_le (fun b ms hb => hcancel.isBatch.mp hb) id
  unfold places
  rw [hsame]
  omega

end Connection

namespace Engine

open Account

variable {stray : MessageId → Prop} {accepted : List MessageId} {e e₁ e₂ e' : Engine} {ev : Event}
variable {evs : List Event} {t : Nat} {l l₁ l₂ : List Entry} {entry : Entry} {id : MessageId}

/-! ## The account of a transaction -/

/-- What a step that works on the transaction does to it, if anything: a command that has a
completer is not collected, and without a command there is nothing to execute. -/
def worksOn (e : Engine) (t : Nat) : Event → Option Entry
  | .put _ id p => some (.collected id p)
  | .submit _ id p _ => if e.store.sink id = .empty then some (.collected id p) else none
  | .execute _ _ =>
      if (e.connection.collected t).toList = [] then none
      else some (.executed e.store.messages.size (e.connection.collected t).toList)
  | .discard _ => some (.discarded (e.connection.collected t).toList)
  | _ => none

/-- What a step does to the transaction. -/
def entry? (e : Engine) (t : Nat) (ev : Event) : Option Entry :=
  if ev.transaction? = some t then e.worksOn t ev else none

/-- What the steps of a run do to the transaction. -/
def account (e : Engine) (t : Nat) : List Event → List Entry
  | [] => []
  | ev :: evs => (e.entry? t ev).toList ++
      match e.step ev with
      | some e' => e'.account t evs
      | none => []

theorem account_cons (h : e.step ev = some e₁) (t : Nat) (evs : List Event) :
    e.account t (ev :: evs) = (e.entry? t ev).toList ++ e₁.account t evs := by
  rw [account, h]

/-- The transaction exists and has in its lanes what its account says. -/
structure Books (t : Nat) (l : List Entry) (e : Engine) : Prop where
  exists_lt : t < e.connection.transactions.size
  lanes : ∀ p, (e.connection.collected t).lane p = lane (since l) p

theorem Books.toList (h : Books t l e) :
    (e.connection.collected t).toList = inOrder (since l) := by
  rw [PriorityQueue.toList_eq_lanes, h.lanes, h.lanes]
  rfl

/-- A new transaction has nothing. -/
theorem new_books (h : e.step .newTransaction = some e') :
    Books e.connection.transactions.size [] e' := by
  cases h
  have hsize : e.connection.newTransaction.2.transactions.size
      = e.connection.transactions.size + 1 := Array.size_push _
  constructor
  case exists_lt => exact hsize ▸ Nat.lt_succ_self _
  case lanes =>
    intro p
    show (Connection.collected e.connection.newTransaction.2 _).lane p = []
    unfold Connection.collected Connection.newTransaction
    dsimp only
    rw [Array.getElem?_push_size]
    cases p with
    | high => rfl
    | standard => rfl

/-- The transaction gets another queue. -/
theorem Books.set {q : PriorityQueue MessageId} (h : Books t l e)
    (htransactions : e'.connection.transactions = (e.connection.setCollected t q).transactions)
    (hq : ∀ p, q.lane p = lane (since l₁) p) : Books t l₁ e' := by
  have hself := Connection.collected_setCollected_self h.exists_lt q
  unfold Connection.collected at hself
  constructor
  case exists_lt =>
    rw [htransactions]
    exact Nat.lt_of_lt_of_eq h.exists_lt (Array.size_setIfInBounds).symm
  case lanes =>
    intro p
    unfold Connection.collected
    rw [htransactions, hself]
    exact hq p

/-- A command that comes in goes to the end of its lane. -/
theorem Books.enqueue {q : PriorityQueue MessageId} {p : Priority} {wakes : Bool} (h : Books t l e)
    (henq : (e.connection.collected t).enqueue id p = .done (.ok ()) q wakes) (p' : Priority) :
    q.lane p' = lane (since (l ++ [.collected id p])) p' := by
  rw [PriorityQueue.enqueue_lane henq, since_collected, lane_append_one, h.lanes]

theorem Books.put {p : Priority} (h : Books t l e)
    (hopen : (e.connection.collected t).isClosed = false)
    (hstep : e.step (.put (.transaction t) id p) = some e') :
    Books t (l ++ [.collected id p]) e' := by
  obtain ⟨-, ⟨c, henq, rfl⟩ | ⟨⟨error, herr⟩, -⟩⟩ := step_put_inv hstep
  · obtain ⟨q, wakes, hq, rfl⟩ := Connection.collector_ok henq
    exact h.set rfl (h.enqueue hq)
  · exact absurd herr (Connection.collector_open hopen)

theorem Books.submit {p : Priority} {shape : Shape} (h : Books t l e)
    (hopen : (e.connection.collected t).isClosed = false)
    (hstep : e.step (.submit (.transaction t) id p shape) = some e') :
    Books t (l ++ (e.worksOn t (.submit (.transaction t) id p shape)).toList) e' := by
  obtain ⟨-, k, c, hsubmit, rfl⟩ := step_submit_inv hstep
  unfold worksOn
  dsimp only
  by_cases hempty : e.store.sink id = .empty
  · obtain ⟨q, wakes, hq, rfl⟩ := Connection.submit_collector hopen hempty hsubmit
    rw [if_pos hempty]
    exact h.set rfl (h.enqueue hq)
  · obtain ⟨error, rfl⟩ := Connection.submit_assigned hempty hsubmit
    rw [if_neg hempty, Option.toList_none, List.append_nil]
    exact ⟨h.exists_lt, h.lanes⟩

/-- A drained queue has the lanes of an account in which nothing waits. -/
theorem drain_lanes (q : PriorityQueue MessageId) (hl : since l = []) (p : Priority) :
    q.drain.2.lane p = lane (since l) p := by
  rw [hl]
  cases p with
  | high => rfl
  | standard => rfl

theorem Books.execute {p : Priority} (h : Books t l e) (hstep : e.step (.execute t p) = some e') :
    Books t (l ++ (e.worksOn t (.execute t p)).toList) e' := by
  obtain ⟨k, c, hexecute, rfl⟩ := step_execute_inv hstep
  unfold worksOn
  dsimp only
  by_cases hnil : (e.connection.collected t).toList = []
  · cases (Connection.execute_nil hnil p).symm.trans hexecute
    rw [if_pos hnil, Option.toList_none, List.append_nil]
    exact h.set rfl fun p' => PriorityQueue.drain_of_nil hnil ▸ h.lanes p'
  · rw [if_neg hnil]
    have hempty := drain_lanes (e.connection.collected t) (since_executed l e.store.messages.size
      (e.connection.collected t).toList)
    rcases Connection.execute_cases hexecute with ⟨hnil', -⟩ | ⟨-, hok | ⟨error, -, rfl⟩⟩
    · exact absurd hnil' hnil
    · have htransactions : c.transactions = (e.connection.handedOn t).transactions :=
        Connection.enqueue_transactions hok
      exact h.set htransactions hempty
    · exact h.set rfl hempty

theorem Books.discard (h : Books t l e) (hstep : e.step (.discard t) = some e') :
    Books t (l ++ [.discarded (e.connection.collected t).toList]) e' := by
  cases hstep
  exact h.set rfl (drain_lanes (e.connection.collected t) (since_discarded _ _))

/-- Each step does to the transaction what the account says. -/
theorem Books.step (h : Books t l e) (hk : Kept stray e) (hstep : e.step ev = some e') :
    Books t (l ++ (e.entry? t ev).toList) e' := by
  unfold entry?
  by_cases hev : ev.transaction? = some t
  case neg =>
    -- a step that works on something else leaves the transaction alone
    obtain ⟨hsize, hcollected⟩ := step_apart hk.sound hev hstep
    rw [if_neg hev, Option.toList_none, List.append_nil]
    refine ⟨Nat.lt_of_lt_of_le h.exists_lt hsize, fun p => ?_⟩
    rw [hcollected]
    exact h.lanes p
  case pos =>
    have hopen : (e.connection.collected t).isClosed = false := hk.fated.collecting t
    rw [if_pos hev]
    cases ev with
    | put target id p =>
        cases target with
        | connection => cases hev
        | transaction u =>
            cases hev
            exact h.put hopen hstep
    | submit target id p shape =>
        cases target with
        | connection => cases hev
        | transaction u =>
            cases hev
            exact h.submit hopen hstep
    | execute u p =>
        cases hev
        exact h.execute hstep
    | discard u =>
        cases hev
        exact h.discard hstep
    | _ => cases hev

/-- So does each run. -/
theorem Books.run (h : Books t l e) (hk : Kept (fun _ => True) e) (hrun : e.run evs = some e') :
    Books t (l ++ e.account t evs) e' := by
  induction evs generalizing e l with
  | nil =>
      cases hrun
      rw [account, List.append_nil]
      exact h
  | cons ev evs ih =>
      obtain ⟨e₁, hstep, hrest⟩ := run_cons_inv hrun
      rw [account_cons hstep, ← List.append_assoc]
      exact ih (h.step hk hstep) (hk.step (fun _ _ => trivial) hstep) hrest

/-- Each entry of an account is made by a step of the run. -/
theorem account_split (h : e.run evs = some e') (heq : e.account t evs = l₁ ++ entry :: l₂) :
    ∃ before ev after e₁ e₂, evs = before ++ ev :: after ∧ e.run before = some e₁
      ∧ e₁.step ev = some e₂ ∧ e₂.run after = some e' ∧ e.account t before = l₁
      ∧ e₁.entry? t ev = some entry := by
  induction evs generalizing e l₁ with
  | nil =>
      rw [account] at heq
      exact absurd heq.symm (List.append_ne_nil_of_right_ne_nil l₁ (List.cons_ne_nil _ _))
  | cons ev evs ih =>
      obtain ⟨e₁, hstep, hrest⟩ := run_cons_inv h
      rw [account_cons hstep] at heq
      -- the entry is made by the first step, or it comes later
      have hlater : ∀ l₀, l₁ = (e.entry? t ev).toList ++ l₀ →
          e₁.account t evs = l₀ ++ entry :: l₂ → ∃ before ev' after e₂ e₃,
            ev :: evs = before ++ ev' :: after ∧ e.run before = some e₂ ∧ e₂.step ev' = some e₃
              ∧ e₃.run after = some e' ∧ e.account t before = l₁
              ∧ e₂.entry? t ev' = some entry := by
        rintro l₀ rfl hl₀
        obtain ⟨before, ev', after, e₂, e₃, rfl, hbefore, hev', hafter, hl, hentry⟩ := ih hrest hl₀
        refine ⟨ev :: before, ev', after, e₂, e₃, rfl, ?_, hev', hafter, ?_, hentry⟩
        · rw [run_cons, hstep]
          exact hbefore
        · rw [account_cons hstep, hl]
      cases hentry : e.entry? t ev with
      | none =>
          rw [hentry] at heq hlater
          exact hlater l₁ rfl heq
      | some x =>
          rw [hentry] at heq hlater
          cases l₁ with
          | nil =>
              obtain ⟨rfl, -⟩ := List.cons.inj heq
              exact ⟨[], ev, evs, e, e₁, rfl, rfl, hstep, hrest, rfl, hentry⟩
          | cons y l₁ =>
              obtain ⟨rfl, htail⟩ := List.cons.inj heq
              exact hlater l₁ rfl htail

/-! ## Entries -/

/-- What comes in is handed in by a caller, and what leaves is what the transaction has. -/
theorem entry?_cases (h : e.entry? t ev = some entry) :
    (∃ id p, entry = .collected id p ∧ ev.gathers = [id])
      ∨ (∃ p, ev = .execute t p ∧ (e.connection.collected t).toList ≠ []
          ∧ entry = .executed e.store.messages.size (e.connection.collected t).toList)
      ∨ ev = .discard t ∧ entry = .discarded (e.connection.collected t).toList := by
  unfold entry? at h
  split at h
  case isFalse => cases h
  case isTrue hev =>
    unfold worksOn at h
    cases ev with
    | put target id p =>
        cases target with
        | connection => cases hev
        | transaction u =>
            cases h
            exact .inl ⟨id, p, rfl, rfl⟩
    | submit target id p shape =>
        cases target with
        | connection => cases hev
        | transaction u =>
            dsimp only at h
            split at h
            · cases h
              exact .inl ⟨id, p, rfl, rfl⟩
            · cases h
    | execute u p =>
        cases hev
        dsimp only at h
        split at h
        · cases h
        · next hne =>
          cases h
          exact .inr (.inl ⟨p, rfl, hne, rfl⟩)
    | discard u =>
        cases hev
        cases h
        exact .inr (.inr ⟨rfl, rfl⟩)
    | _ => cases h

theorem entry?_executed {b : MessageId} {ms : List MessageId}
    (h : e.entry? t ev = some (.executed b ms)) :
    (∃ p, ev = .execute t p) ∧ b = e.store.messages.size
      ∧ ms = (e.connection.collected t).toList ∧ ms ≠ [] := by
  rcases entry?_cases h with ⟨id, p, heq, -⟩ | ⟨p, rfl, hne, heq⟩ | ⟨-, heq⟩
  · cases heq
  · cases heq
    exact ⟨⟨p, rfl⟩, rfl, rfl, hne⟩
  · cases heq

theorem entry?_discarded {ms : List MessageId} (h : e.entry? t ev = some (.discarded ms)) :
    ev = .discard t ∧ ms = (e.connection.collected t).toList := by
  rcases entry?_cases h with ⟨id, p, heq, -⟩ | ⟨p, -, -, heq⟩ | ⟨rfl, heq⟩
  · cases heq
  · cases heq
  · cases heq
    exact ⟨rfl, rfl⟩

theorem entry?_leaving {ms : List MessageId} (h : e.entry? t ev = some entry)
    (hms : entry.leaving? = some ms) : ms = (e.connection.collected t).toList := by
  rcases entry?_cases h with ⟨id, p, rfl, -⟩ | ⟨p, -, -, rfl⟩ | ⟨-, rfl⟩
  · cases hms
  · cases hms
    rfl
  · cases hms
    rfl

theorem entry?_commands (e : Engine) (t : Nat) (ev : Event) :
    (commands (e.entry? t ev).toList).Sublist ev.gathers := by
  cases h : e.entry? t ev with
  | none => exact List.nil_sublist _
  | some entry =>
      rcases entry?_cases h with ⟨id, p, rfl, hgathers⟩ | ⟨p, -, -, rfl⟩ | ⟨-, rfl⟩
      · rw [hgathers]
        exact List.Sublist.refl _
      · exact List.nil_sublist _
      · exact List.nil_sublist _

theorem account_commands (h : e.run evs = some e') (t : Nat) :
    (commands (e.account t evs)).Sublist (evs.flatMap Event.gathers) := by
  induction evs generalizing e with
  | nil => exact List.nil_sublist _
  | cons ev evs ih =>
      obtain ⟨e₁, hstep, hrest⟩ := run_cons_inv h
      rw [account_cons hstep, commands_append, List.flatMap_cons]
      exact (entry?_commands e t ev).append (ih hrest)

/-- Each batch is a new message. -/
theorem account_batches (hs : e.Sound accepted) (h : e.run evs = some e') (t : Nat) :
    ((batches (e.account t evs)).map Prod.fst).Pairwise (· < ·)
      ∧ ∀ b ∈ (batches (e.account t evs)).map Prod.fst, e.store.messages.size ≤ b := by
  induction evs generalizing e with
  | nil => exact ⟨List.Pairwise.nil, fun b hb => by cases hb⟩
  | cons ev evs ih =>
      obtain ⟨e₁, hstep, hrest⟩ := run_cons_inv h
      obtain ⟨hpairs, hle⟩ := ih (step_sound hs hstep) hrest
      have hsize := (step_grows hs hstep).size_le
      have hle' : ∀ b ∈ (batches (e₁.account t evs)).map Prod.fst, e.store.messages.size ≤ b :=
        fun b hb => Nat.le_trans hsize (hle b hb)
      rw [account_cons hstep, batches_append]
      cases hentry : e.entry? t ev with
      | none => exact ⟨hpairs, hle'⟩
      | some entry =>
          cases entry with
          | collected id p => exact ⟨hpairs, hle'⟩
          | discarded ms => exact ⟨hpairs, hle'⟩
          | executed b ms =>
              obtain ⟨⟨p, rfl⟩, rfl, rfl, hne⟩ := entry?_executed hentry
              obtain ⟨k, c, hexecute, rfl⟩ := step_execute_inv hstep
              obtain ⟨-, hb⟩ := Connection.execute_ties hs hexecute hne
              have hlt : e.store.messages.size < c.store.messages.size := hb.lt_size
              refine ⟨List.Pairwise.cons (fun b hb => ?_) hpairs, fun b hb => ?_⟩
              · exact Nat.lt_of_lt_of_le hlt (hle b hb)
              · rcases List.mem_cons.mp hb with rfl | hb
                · exact Nat.le_refl _
                · exact hle' b hb

/-- A batch of the account exists with its members. -/
theorem account_isBatch {b : MessageId} {ms : List MessageId} (hs : e.Sound accepted)
    (hrun : e.run evs = some e') (heq : e.account t evs = l₁ ++ .executed b ms :: l₂) :
    ms ≠ [] ∧ e'.store.IsBatch b ms := by
  obtain ⟨before, ev, after, e₁, e₂, -, hbefore, hstep, hafter, -, hentry⟩ :=
    account_split hrun heq
  obtain ⟨⟨p, rfl⟩, rfl, rfl, hne⟩ := entry?_executed hentry
  have hs₁ := run_sound hs hbefore
  obtain ⟨k, c, hexecute, rfl⟩ := step_execute_inv hstep
  obtain ⟨-, hb⟩ := Connection.execute_ties hs₁ hexecute hne
  exact ⟨hne, (run_grows (step_sound hs₁ hstep) hafter).isBatch hb⟩

/-- Whatever leaves a transaction is what has come in since the last time. -/
theorem Books.balanced (h : Books t [] e) (hk : Kept (fun _ => True) e)
    (hrun : e.run evs = some e') : Balanced (e.account t evs) := by
  intro l₁ entry l₂ heq ms hms
  obtain ⟨before, ev, after, e₁, e₂, rfl, hbefore, -, -, hl, hentry⟩ := account_split hrun heq
  have hbooks := h.run hk hbefore
  rw [hl] at hbooks
  exact (entry?_leaving hentry hms).trans hbooks.toList

/-! ## Commands that only their transaction has -/

/-- Nobody hands the command to the connection itself or gives it up, and transactions are given it
at most once. It may be cancelled. -/
structure Entrusted (evs : List Event) (id : MessageId) : Prop where
  direct : ∀ ev ∈ evs, ev.strays id = false
  once : (evs.flatMap Event.gathers).count id ≤ 1

theorem Entrusted.not_strayed (h : Entrusted evs id) : ¬ Strayed evs id := by
  rintro ⟨ev, hev, hstrays⟩
  cases (h.direct ev hev).symm.trans hstrays

/-- At any time in the run it has one place at most, and none is to come if it has one. -/
theorem Entrusted.places {config : Config} {before after : List Event} (h : Entrusted evs id)
    (hsplit : evs = before ++ after) (hbefore : (new config).run before = some e) :
    e.connection.places id + (after.flatMap Event.gathers).count id ≤ 1 := by
  have hplaces := run_places (new_sound config) (new_fated (fun _ => True) config) hbefore id
  have hnew : (new config).connection.places id = 0 := rfl
  have honce := h.once
  rw [hsplit, List.flatMap_append, List.count_append] at honce
  omega

/-- At the end of the run no batch has the command, no frame has been written for it, and in the
whole run nobody has been handed anything but a cancellation. -/
structure Unexecuted (config : Config) (evs : List Event) (e : Engine) (id : MessageId) : Prop where
  unbatched : e.store.batchesWith id = []
  unwritten : e.framesOf id = 0
  heard : ∀ before after e₀, evs = before ++ after → (new config).run before = some e₀ →
    ∀ (k : CompletionId) c, e₀.store.completions[k]? = some c → c.target = some id →
      ∀ o, c.take?.1 = some o → o = .error .cancelled

/-- A command that is entrusted to a transaction and in no batch waits, or it has been cancelled. -/
theorem Entrusted.unexecuted {config : Config} (h : Entrusted evs id)
    (hrun : (new config).run evs = some e) (hid : id ∈ e.owned)
    (hnone : e.store.batchesWith id = []) :
    Unexecuted config evs e id ∧ (e.store.phase id = .notSent ∨ e.store.Given id) := by
  have hk : Kept (Strayed evs) e := kept_of_run (List.append_nil evs).symm hrun
  have hpending : e.Pending (Strayed evs) id := by
    refine Or.inr ⟨h.not_strayed, ?_⟩
    rintro ⟨b, ms, hb, hmem, -⟩
    have hbatch := Store.mem_batchesWith.mpr ⟨ms, hb, hmem⟩
    rw [hnone] at hbatch
    cases hbatch
  refine ⟨⟨hnone, hpending.unwritten hk hid, ?_⟩, ?_⟩
  · -- what can be said of the command at the end could be said of it all the time
    intro before after e₀ hsplit hbefore k c hc ht o ho
    have hk₀ := kept_of_run hsplit hbefore
    have hrest : e₀.run after = some e := by
      rw [hsplit, run_append, hbefore] at hrun
      exact hrun
    have hlt := hk₀.fated.fates.target_lt hk₀.sound.custody hc ht
    have hid₀ := run_owned hk₀.sound hrest hid hlt
    exact (hpending.back hk₀.sound hrest hlt).take? hk₀ hid₀ hc ht ho
  · refine (hpending.waits_or_off hk hid).imp_right fun hoff => ⟨hoff.1, ?_⟩
    exact fun k c hc ht => (hoff.2 k c hc ht).isComplete

/-- In the account of a transaction the command comes in once. -/
theorem Entrusted.commands_le {before after : List Event} (h : Entrusted evs id)
    (hsplit : evs = before ++ after) (hrun : e.run after = some e') (t : Nat) :
    (commands (e.account t after)).count id ≤ 1 := by
  have hgathers := (account_commands hrun t).count_le id
  have honce := h.once
  rw [hsplit, List.flatMap_append, List.count_append] at honce
  omega

/-- A batch with a command that is entrusted to a transaction is the only one. -/
theorem Entrusted.sole {config : Config} {b : MessageId} {ms : List MessageId}
    (h : Entrusted evs id) (hrun : (new config).run evs = some e) (hb : e.store.IsBatch b ms)
    (hid : id ∈ ms) : e.store.batchesWith id = [b] := by
  have hplaces := h.places (List.append_nil evs).symm hrun
  have hmem := Store.mem_batchesWith.mpr ⟨ms, hb, hid⟩
  have hle : (e.store.batchesWith id).length ≤ 1 := by
    show (e.connection.store.batchesWith id).length ≤ 1
    unfold Connection.places at hplaces
    omega
  obtain ⟨b', hone⟩ := List.length_eq_one_iff.mp
    (Nat.le_antisymm hle (List.length_pos_of_mem hmem))
  rw [hone] at hmem ⊢
  rw [List.mem_singleton.mp hmem]

/-- A command that is entrusted to a transaction and still in it at the end of the run is in no
batch. -/
theorem Entrusted.waiting {config : Config} (h : Entrusted evs id)
    (hrun : (new config).run evs = some e) (hid : id ∈ (e.connection.collected t).toList) :
    Unexecuted config evs e id ∧ (e.store.phase id = .notSent ∨ e.store.Given id) := by
  have hplaces := h.places (List.append_nil evs).symm hrun
  exact h.unexecuted hrun ((run_new_sound hrun).collected t id hid)
    (Connection.unbatched_of_collected (Nat.le_trans (Nat.le_add_right _ _) hplaces) hid)

/-- A command that is entrusted to a transaction and discarded with it has been cancelled. -/
theorem Entrusted.discarded {config : Config} {before after : List Event}
    (h : Entrusted evs id) (hsplit : evs = before ++ .discard t :: after)
    (hbefore : (new config).run before = some e₁) (hstep : e₁.step (.discard t) = some e₂)
    (hafter : e₂.run after = some e) (hid : id ∈ (e₁.connection.collected t).toList) :
    Unexecuted config evs e id ∧ e.store.Given id := by
  have hk₁ := run_new_kept hbefore
  have hk₂ := hk₁.step (fun _ _ => trivial) hstep
  have howned₁ : id ∈ e₁.owned := hk₁.sound.collected t id hid
  have hrest : e₁.run (.discard t :: after) = some e := by
    rw [run_cons, hstep]
    exact hafter
  have hrun : (new config).run evs = some e := by
    rw [hsplit, run_append, hbefore]
    exact hrest
  have howned : id ∈ e.owned := run_owns hrest howned₁
  have wf : e₁.store.WellFormed := hk₁.sound.custody.wellFormed
  cases hstep
  -- it loses its place, and gets no other
  have hnone : e.store.batchesWith id = [] := by
    have hplaces := h.places hsplit hbefore
    have hpos : 0 < (e₁.connection.collected t).toList.count id := List.count_pos_iff.mpr hid
    have hlost := Connection.discard_places wf t id
    have hfinal := run_places hk₂.sound hk₂.fated hafter id
    have hzero : e.connection.places id = 0 := by
      rw [List.flatMap_cons, List.count_append] at hplaces
      have hconnection : (e₁.withConnection (e₁.connection.discardTransaction t).2).connection
          = (e₁.connection.discardTransaction t).2 := rfl
      rw [hconnection] at hfinal
      omega
    unfold Connection.places at hzero
    exact List.length_eq_zero_iff.mp (Nat.eq_zero_of_add_eq_zero_left hzero)
  -- it does not wait any more
  have hphase : e.store.phase id ≠ .notSent := by
    intro hn
    have hlt := (hk₂.sound.custody.kinds.owned_single id howned₁).lt_size
    exact Store.cancelAll_phase wf hid (run_advances hk₂.sound hafter id hlt hn)
  obtain ⟨hunexecuted, hwaits⟩ := h.unexecuted hrun howned hnone
  exact ⟨hunexecuted, hwaits.resolve_left hphase⟩

/-- To execute a transaction that has nothing gives a result and does nothing else. -/
theorem execute_idle (hnil : (e.connection.collected t).toList = []) (p : Priority) :
    ∃ k e', e.connection.executeTransaction t p = some (k, e'.connection)
      ∧ e.step (.execute t p) = some e'
      ∧ e'.store.completions[k]? = some (.ready (.ok .unit))
      ∧ e'.store.messages = e.store.messages ∧ Aside e e' := by
  have hexecute := Connection.execute_nil hnil p
  have hdraft : ∀ j, (e.store.addCompletion (.ready (.ok .unit))).2.draft? j = e.store.draft? j :=
    fun _ => rfl
  refine ⟨_, e.withConnection _, hexecute, ?_, Array.getElem?_push_size, rfl,
    aside_of_draft? hdraft _⟩
  unfold step
  dsimp only
  rw [hexecute]

/-- All other steps that work on a transaction are out of sight of the pumps. -/
theorem step_aside (hk : Kept stray e) (hev : ev.transaction? = some t)
    (hexecute : ∀ p, ev ≠ .execute t p) (h : e.step ev = some e') : Aside e e' := by
  cases ev with
  | put target id p =>
      cases target with
      | connection => cases hev
      | transaction u => exact aside_put h
  | submit target id p shape =>
      cases target with
      | connection => cases hev
      | transaction u => exact aside_submit (hk.fated.collecting u) h
  | execute u p =>
      cases hev
      exact absurd rfl (hexecute p)
  | discard u => exact aside_discard hk.sound h
  | _ => cases hev

/-! ## The partition -/

/-- The account of the transaction after the run, and what it means for its commands. -/
structure Partitioned (config : Config) (evs : List Event) (t : Nat) (l : List Entry)
    (e : Engine) : Prop where
  /-- a batch has what has come in since the last execute or discard -/
  executed : ∀ l₁ b ms l₂, l = l₁ ++ .executed b ms :: l₂ →
    ms ≠ [] ∧ ms = inOrder (since l₁) ∧ e.store.IsBatch b ms
  /-- and so has a discard -/
  discarded : ∀ l₁ ms l₂, l = l₁ ++ .discarded ms :: l₂ → ms = inOrder (since l₁)
  /-- the transaction has the rest, which is what it counts -/
  pending : (e.connection.collected t).toList = inOrder (since l)
    ∧ (e.connection.collected t).length = (since l).length
  /-- no two executes share a batch -/
  batches : ((batches l).map Prod.fst).Nodup
  /-- each command leaves or stays as often as it has come in -/
  count : ∀ id, (commands l).count id = (batched l).count id + (cancelled l).count id
    + (e.connection.collected t).toList.count id
  /-- so one that is entrusted to the transaction is in one place -/
  once : ∀ id ∈ commands l, Entrusted evs id → (batched l).count id
    + (cancelled l).count id + (e.connection.collected t).toList.count id = 1
  /-- in one batch and no other -/
  inBatch : ∀ b ms, (b, ms) ∈ Account.batches l → ∀ id ∈ ms, Entrusted evs id →
    e.store.batchesWith id = [b]
  /-- or cancelled, with the cancellation for everybody who asks for its outcome -/
  inDiscard : ∀ id ∈ cancelled l, Entrusted evs id →
    Unexecuted config evs e id ∧ e.store.Given id
  /-- or still in the transaction, where it waits unless somebody has cancelled it -/
  waiting : ∀ id ∈ (e.connection.collected t).toList, Entrusted evs id →
    Unexecuted config evs e id ∧ (e.store.phase id = .notSent ∨ e.store.Given id)
  /-- an execute with nothing pending has its result at once, and nothing is submitted -/
  idle : (e.connection.collected t).toList = [] → ∀ p, ∃ k e',
    e.connection.executeTransaction t p = some (k, e'.connection)
      ∧ e.step (.execute t p) = some e'
      ∧ e'.store.completions[k]? = some (.ready (.ok .unit))
      ∧ e'.store.messages = e.store.messages ∧ Aside e e'
  /-- one with something pending puts one batch with it into the queue of the connection, unless
  that is closed -/
  busy : (e.connection.collected t).toList ≠ [] → ∀ p e', e.step (.execute t p) = some e' →
    e'.store.IsBatch e.store.messages.size (e.connection.collected t).toList
      ∧ ((∀ p', e'.connection.queue.lane p' = e.connection.queue.lane p'
            ++ if p = p' then [e.store.messages.size] else [])
          ∨ e.connection.queue.isClosed = true ∧ e'.connection.queue = e.connection.queue
            ∧ e'.store.phase e.store.messages.size = .complete)
  /-- to discard or drop the transaction is always possible, and it leaves nothing -/
  drop : ∃ e', e.step (.discard t) = some e'
    ∧ e.connection.discardTransaction t = ((e.connection.collected t).length, e'.connection)
    ∧ (e'.connection.collected t).toList = []
  /-- and the pumps see nothing of this or of what is handed to the transaction -/
  aside : ∀ ev e', ev.transaction? = some t → (∀ p, ev ≠ .execute t p) → e.step ev = some e' →
    Aside e e'

/-- The commands of a transaction are partitioned, whatever happens to it and to the connection. -/
theorem partitioned {config : Config} {before after : List Event} {e₀ e : Engine}
    (hbefore : (new config).run before = some e₀)
    (hafter : e₀.run (.newTransaction :: after) = some e) :
    Partitioned config (before ++ .newTransaction :: after) e₀.connection.transactions.size
      (e₀.account e₀.connection.transactions.size (.newTransaction :: after)) e := by
  have hrun : (new config).run (before ++ .newTransaction :: after) = some e := by
    rw [run_append, hbefore]
    exact hafter
  have hk₀ := run_new_kept hbefore
  have hk := run_new_kept hrun
  -- the account begins when the transaction does
  obtain ⟨e₁, hstep, hrest⟩ := run_cons_inv hafter
  have hk₁ := hk₀.step (fun _ _ => trivial) hstep
  have haccount : e₀.account e₀.connection.transactions.size (.newTransaction :: after)
      = e₁.account e₀.connection.transactions.size after := account_cons hstep _ _
  have hnew := new_books hstep
  have hbalanced := hnew.balanced hk₁ hrest
  have hbooks := hnew.run hk₁ hrest
  rw [← haccount] at hbalanced hbooks
  generalize e₀.connection.transactions.size = t at *
  generalize hl : e₀.account t (.newTransaction :: after) = l at *
  have hcount : ∀ id, (commands l).count id = (batched l).count id
      + (cancelled l).count id + (e.connection.collected t).toList.count id := by
    intro id
    rw [hbooks.toList]
    exact hbalanced.count id
  constructor
  case executed =>
    intro l₁ b ms l₂ heq
    obtain ⟨hne, hb⟩ := account_isBatch hk₀.sound hafter (hl.trans heq)
    exact ⟨hne, hbalanced l₁ _ l₂ heq ms rfl, hb⟩
  case discarded => exact fun l₁ ms l₂ heq => hbalanced l₁ _ l₂ heq ms rfl
  case pending =>
    refine ⟨hbooks.toList, ?_⟩
    rw [← PriorityQueue.length_toList, hbooks.toList, List.nil_append, inOrder_length]
  case batches =>
    have hpairs := (account_batches hk₀.sound hafter t).1
    rw [hl] at hpairs
    exact hpairs.imp fun hlt => Nat.ne_of_lt hlt
  case count => exact hcount
  case once =>
    intro id hid hentrusted
    have hpos : 0 < (commands l).count id := List.count_pos_iff.mpr hid
    have hle := hentrusted.commands_le rfl hafter t
    rw [hl] at hle
    rw [← hcount id]
    exact Nat.le_antisymm hle hpos
  case inBatch =>
    intro b ms hmem id hid hentrusted
    obtain ⟨l₁, l₂, heq⟩ := List.append_of_mem (mem_batches.mp hmem)
    obtain ⟨-, hb⟩ := account_isBatch hk₀.sound hafter (hl.trans heq)
    exact hentrusted.sole hrun hb hid
  case inDiscard =>
    intro id hmem hentrusted
    obtain ⟨ms, hentry, hid⟩ := mem_cancelled.mp hmem
    obtain ⟨l₁, l₂, heq⟩ := List.append_of_mem hentry
    obtain ⟨before', ev, after', e₂, e₃, hsplit, hbefore', hev, hafter', -, hdiscard⟩ :=
      account_split hafter (hl.trans heq)
    obtain ⟨rfl, rfl⟩ := entry?_discarded hdiscard
    have hsplit : before ++ .newTransaction :: after
        = (before ++ before') ++ .discard t :: after' := by
      rw [hsplit, List.append_assoc]
    have hrun' : (new config).run (before ++ before') = some e₂ := by
      rw [run_append, hbefore]
      exact hbefore'
    exact hentrusted.discarded hsplit hrun' hev hafter' hid
  case waiting => exact fun id hid hentrusted => hentrusted.waiting hrun hid
  case idle => exact execute_idle
  case busy =>
    intro hne p e' hstep'
    obtain ⟨k, c, hexecute, rfl⟩ := step_execute_inv hstep'
    exact ⟨(Connection.execute_ties hk.sound hexecute hne).2,
      Connection.execute_queue hk.sound hne hexecute⟩
  case drop =>
    refine ⟨_, rfl, Prod.ext (PriorityQueue.length_toList _) rfl, ?_⟩
    have hlt := hbooks.exists_lt
    exact congrArg PriorityQueue.toList (Connection.collected_setCollected_self hlt _)
  case aside => exact fun ev e' hev hexecute hstep => step_aside hk hev hexecute hstep

/-- A transaction that is used twice: an urgent command overtakes one that is cancelled before both
are executed, and a third one is discarded. -/
def reused : List Event :=
  [.newTransaction, .make { command := .get, args := [.text "k"] },
   .submit (.transaction 0) 0 .standard .text, .make { command := .incr, args := [.text "n"] },
   .submit (.transaction 0) 1 .high .integer, .cancelThrough 0, .execute 0 .standard,
   .make { command := .get, args := [.text "k"] }, .submit (.transaction 0) 3 .standard .text,
   .discard 0, .execute 0 .high]

theorem partitioned_reused :
    Partitioned {} reused 0 ((new {}).account 0 reused) (((new {}).run reused).get (by decide))
      ∧ Entrusted reused 0 ∧ Entrusted reused 1 ∧ Entrusted reused 3 :=
  ⟨partitioned (run_nil (new {})) (Option.some_get _).symm, ⟨by decide, by decide⟩,
    ⟨by decide, by decide⟩, ⟨by decide, by decide⟩⟩

example : (new {}).account 0 reused
    = [.collected 0 .standard, .collected 1 .high, .executed 2 [1, 0], .collected 3 .standard,
       .discarded [3]] := by decide

end Engine

end RespMux
