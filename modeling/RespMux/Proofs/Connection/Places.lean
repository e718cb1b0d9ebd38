import Mathlib.Data.List.Perm.Subperm
import RespMux.Proofs.Connection.Callers
import RespMux.Proofs.Outgoing.Round

/-!
# Where a message waits for its block

A message comes into a block by way of a transaction, which collects it, and a batch, to which the
transaction hands it on. `Connection.places` counts the transactions and batches that have a
message. Handing on does not change the number, and the pumps do not either: only a caller who puts
the message into a transaction adds one.
-/

set_option autoImplicit false

namespace RespMux

theorem PriorityQueue.enqueue_count {q q' : PriorityQueue MessageId} {x : MessageId} {p : Priority}
    {wakes : Bool} (h : q.enqueue x p = .done (.ok ()) q' wakes) (id : MessageId) :
    q'.toList.count id = q.toList.count id + [x].count id := by
  unfold enqueue at h
  split at h
  · cases h
  · cases p with
    | high =>
        cases h
        simp only [toList, List.count_append]
        omega
    | standard =>
        dsimp only at h
        split at h
        · cases h
        · cases h
          simp only [toList, List.count_append]
          omega

namespace Store

variable {s s' : Store} {id : MessageId}

/-- The batches with a message. -/
def batchesWith (s : Store) (id : MessageId) : List MessageId :=
  (List.range s.messages.size).filter fun b =>
    ((s.messages[b]?).bind Message.members?).any (·.contains id)

theorem mem_batchesWith {b : MessageId} :
    b ∈ s.batchesWith id ↔ ∃ ms, s.IsBatch b ms ∧ id ∈ ms := by
  unfold batchesWith
  rw [List.mem_filter, List.mem_range]
  constructor
  · rintro ⟨-, hany⟩
    obtain ⟨ms, hms, hid⟩ := (Option.any_eq_true _ _).mp hany
    obtain ⟨m, hm, hmembers⟩ := Option.bind_eq_some_iff.mp hms
    exact ⟨ms, ⟨m.draft, draft?_of_get hm, Message.batch_of_members? hmembers⟩,
      List.contains_iff_mem.mp hid⟩
  · rintro ⟨ms, hb, hid⟩
    refine ⟨hb.lt_size, (Option.any_eq_true _ _).mpr ⟨ms, ?_, List.contains_iff_mem.mpr hid⟩⟩
    obtain ⟨n, hn, hbody⟩ := hb
    obtain ⟨m, hm, rfl⟩ := exists_get_of_draft? hn
    exact Option.bind_eq_some_iff.mpr ⟨m, hm, Message.members?_of_batch hbody⟩

theorem batchesWith_nodup (s : Store) (id : MessageId) : (s.batchesWith id).Nodup :=
  List.nodup_range.filter _

/-- Batches are counted once. -/
theorem batchesWith_length_le {l : List MessageId} (h : ∀ b ∈ s.batchesWith id, b ∈ l) :
    (s.batchesWith id).length ≤ l.length :=
  ((s.batchesWith_nodup id).subperm h).length_le

/-- Where no batch is made, the number of batches with a message does not grow. -/
theorem batchesWith_le (h : ∀ b ms, s'.IsBatch b ms → s.IsBatch b ms) (id : MessageId) :
    (s'.batchesWith id).length ≤ (s.batchesWith id).length := by
  refine batchesWith_length_le fun b hb => ?_
  obtain ⟨ms, hbatch, hid⟩ := mem_batchesWith.mp hb
  exact mem_batchesWith.mpr ⟨ms, h b ms hbatch, hid⟩

/-- A new batch counts for its members. -/
theorem batchesWith_batch (s : Store) (ms : List MessageId) (id : MessageId) :
    ((s.batch ms).2.batchesWith id).length ≤ (s.batchesWith id).length + ms.count id := by
  by_cases hid : id ∈ ms
  · have hold : ∀ b ∈ (s.batch ms).2.batchesWith id,
        b ∈ s.messages.size :: s.batchesWith id := fun b hb => by
      obtain ⟨ms', hbatch, hmem⟩ := mem_batchesWith.mp hb
      rcases hbatch.of_add with ⟨rfl, -⟩ | hold
      · exact List.mem_cons_self
      · exact List.mem_cons_of_mem _ (mem_batchesWith.mpr ⟨ms', hold, hmem⟩)
    have hle := batchesWith_length_le hold
    have hpos : 0 < ms.count id := List.count_pos_iff.mpr hid
    rw [List.length_cons] at hle
    omega
  · refine Nat.le_trans (batchesWith_length_le fun b hb => ?_) (Nat.le_add_right _ _)
    obtain ⟨ms', hbatch, hmem⟩ := mem_batchesWith.mp hb
    rcases hbatch.of_add with ⟨-, hbody⟩ | hold
    · -- the new batch has other members
      cases hbody
      exact absurd hmem hid
    · exact mem_batchesWith.mpr ⟨ms', hold, hmem⟩

/-! ## The pumps make no batches -/

theorem create_batches {r : Request} {b : MessageId} {ms : List MessageId}
    (h : (s.create r).2.IsBatch b ms) : s.IsBatch b ms := by
  rcases h.of_add with ⟨-, hbody⟩ | hold
  · cases hbody
  · exact hold

theorem envelope_batches {inner b : MessageId} {ms : List MessageId}
    (h : (s.envelope inner).2.IsBatch b ms) : s.IsBatch b ms := by
  rcases h.of_add with ⟨-, hbody⟩ | hold
  · cases hbody
  · exact hold

theorem markSent_batches {b : MessageId} {ms : List MessageId} :
    (s.markSent id).2.IsBatch b ms ↔ s.IsBatch b ms :=
  IsBatch.congr (s.markSent_draft? id b)

theorem issue_batches {r : Request} {b : MessageId} {ms : List MessageId}
    (h : (s.issue r).IsBatch b ms) : s.IsBatch b ms :=
  create_batches (markSent_batches.mp h)

theorem wrap_batches {inner b : MessageId} {ms : List MessageId}
    (h : (s.wrap inner).IsBatch b ms) : s.IsBatch b ms :=
  envelope_batches (markSent_batches.mp h)

end Store

theorem Expands.batches {s s' : Store} {db db' : Option Database} {ids : List MessageId}
    {fs : List InFlight} {slots : List (Option MessageId)} {b : MessageId} {ms : List MessageId}
    (h : Expands s db ids s' fs slots db') (hb : s'.IsBatch b ms) : s.IsBatch b ms := by
  induction h with
  | nil => exact hb
  | skipped hp rest ih => exact ih hb
  | stays hp hm hstay rest ih => exact Store.markSent_batches.mp (Store.wrap_batches (ih hb))
  | moves hp hm hd hne hs rest ih =>
      have hchosen := Store.wrap_batches (Store.wrap_batches (ih hb))
      exact Store.markSent_batches.mp (Store.create_batches hchosen)

theorem Dispatches.batches {s s' : Store} {db sel : Option Database} {x b : MessageId}
    {fs : List InFlight} {ms : List MessageId} (h : Dispatches s db x s' fs sel)
    (hb : s'.IsBatch b ms) : s.IsBatch b ms := by
  cases h with
  | plain => exact hb
  | choice => exact hb
  | preceded => exact Store.issue_batches hb
  | batch hm hbody hexp hsel =>
      exact (Store.IsBatch.congr (s.takeCompleter_draft? x b)).mp
        (Store.issue_batches (hexp.batches hb))

namespace Connection

variable {c c' : Connection} {id : MessageId}

/-- What the transactions have collected. -/
def gathered (c : Connection) : List MessageId := c.transactions.toList.flatMap PriorityQueue.toList

/-- How many transactions and batches have the message. -/
def places (c : Connection) (id : MessageId) : Nat :=
  c.gathered.count id + (c.store.batchesWith id).length

theorem places_le (htransactions : c'.transactions = c.transactions)
    (hbatches : ∀ b ms, c'.store.IsBatch b ms → c.store.IsBatch b ms) (id : MessageId) :
    c'.places id ≤ c.places id := by
  unfold places gathered
  rw [htransactions]
  exact Nat.add_le_add_left (Store.batchesWith_le hbatches id) _

/-- What is collected by one transaction is gathered. -/
theorem mem_gathered {t : Nat} (h : id ∈ (c.collected t).toList) : id ∈ c.gathered := by
  unfold collected at h
  cases ht : c.transactions[t]? with
  | none =>
      rw [ht] at h
      cases h
  | some q =>
      rw [ht] at h
      refine List.mem_flatMap.mpr ⟨q, ?_, h⟩
      rw [Array.mem_toList_iff]
      exact Array.mem_of_getElem? ht

theorem exists_collected (h : id ∈ c.gathered) : ∃ t, id ∈ (c.collected t).toList := by
  obtain ⟨q, hq, hid⟩ := List.mem_flatMap.mp h
  obtain ⟨t, ht⟩ := Array.mem_iff_getElem?.mp (Array.mem_toList_iff.mp hq)
  refine ⟨t, ?_⟩
  unfold collected
  rw [ht]
  exact hid

theorem places_pos_of_collected {t : Nat} (h : id ∈ (c.collected t).toList) : 0 < c.places id :=
  Nat.lt_of_lt_of_le (List.count_pos_iff.mpr (mem_gathered h)) (Nat.le_add_right _ _)

theorem places_pos_of_batch {b : MessageId} {ms : List MessageId} (hb : c.store.IsBatch b ms)
    (h : id ∈ ms) : 0 < c.places id :=
  Nat.lt_of_lt_of_le (List.length_pos_of_mem (Store.mem_batchesWith.mpr ⟨ms, hb, h⟩))
    (Nat.le_add_left _ _)

/-- A transaction exchanges what it has collected for something else. -/
theorem setCollected_gathered (c : Connection) (t : Nat) (q : PriorityQueue MessageId)
    (id : MessageId) :
    (c.setCollected t q).gathered.count id + (c.collected t).toList.count id
      ≤ c.gathered.count id + q.toList.count id := by
  unfold gathered setCollected collected
  dsimp only
  rw [Array.toList_setIfInBounds]
  by_cases ht : t < c.transactions.size
  · -- the transactions before it and after it stay as they are
    have hlt : t < c.transactions.toList.length := ht
    have hlist : c.transactions.toList = c.transactions.toList.take t
        ++ c.transactions[t] :: c.transactions.toList.drop (t + 1) := by
      have hdrop := List.drop_eq_getElem_cons hlt
      rw [Array.getElem_toList] at hdrop
      rw [← hdrop, List.take_append_drop]
    rw [List.set_eq_take_append_cons_drop, if_pos hlt, Array.getElem?_eq_getElem ht,
      Option.getD_some]
    conv_rhs => rw [hlist]
    simp only [List.flatMap_append, List.flatMap_cons, List.count_append]
    omega
  · rw [List.set_eq_of_length_le (Nat.le_of_not_lt ht),
      Array.getElem?_eq_none (Nat.le_of_not_lt ht), Option.getD_none]
    exact Nat.add_le_add_left (Nat.zero_le _) _

theorem emptied_gathered (c : Connection) (t : Nat) (id : MessageId) :
    (c.setCollected t (c.collected t).drain.2).gathered.count id
      + (c.collected t).toList.count id ≤ c.gathered.count id :=
  c.setCollected_gathered t (c.collected t).drain.2 id

/-- Who collects a message has one more. -/
theorem collect_gathered {t : Nat} {x : MessageId} {p : Priority}
    (h : (collector t).enqueue c x p = some (.ok c')) (id : MessageId) :
    c'.gathered.count id ≤ c.gathered.count id + [x].count id := by
  simp only [collector] at h
  split at h
  · next q _ henq =>
    cases h
    have hset := c.setCollected_gathered t q id
    have hone := PriorityQueue.enqueue_count henq id
    omega
  · cases h
  · cases h

theorem newTransaction_gathered (c : Connection) : c.newTransaction.2.gathered = c.gathered := by
  unfold gathered newTransaction
  dsimp only
  rw [Array.toList_push, List.flatMap_append]
  exact List.append_nil _

end Connection

end RespMux
