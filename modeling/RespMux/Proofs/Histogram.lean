import Mathlib.Data.List.Basic
import Mathlib.Data.List.Count
import Mathlib.Data.List.Nodup
import RespMux.Counters

/-!
# The table of databases

The uses of a database are counted in two places: by a counter of its own if its number is small,
and otherwise in a table that grows. Both are read as one function, `UseCounts.of`, and counting a
use adds one to it at one place (`UseCounts.of_count`). What a snapshot shows is this function as a
list in a certain order.

`Histogram` says so without either place. It leaves no choice (`Histogram.unique`), so the order of
the uses does not matter, and neither does it matter which databases have a counter of their own.
-/

set_option autoImplicit false

namespace RespMux

variable {d db : Database} {n : Nat} {dbs : List Database}

/-! ## The growing table -/

namespace Usage

variable {u : Usage}

theorem of_cons (x : Database × Nat) (u : Usage) (d : Database) :
    of (x :: u) d = if d = x.1 then x.2 else of u d := by
  unfold of
  rw [List.lookup_cons]
  by_cases h : d = x.1
  · simp [h]
  · simp [h, beq_eq_false_iff_ne.mpr h]

theorem of_eq_zero (h : ∀ p ∈ u, p.1 ≠ d) : of u d = 0 := by
  induction u with
  | nil => rfl
  | cons x u ih =>
      obtain ⟨hx, hu⟩ := List.forall_mem_cons.mp h
      rw [of_cons, if_neg (Ne.symm hx), ih hu]

theorem of_eq_of_mem (honce : (u.map Prod.fst).Nodup) (h : (d, n) ∈ u) : of u d = n := by
  induction u with
  | nil => exact absurd h List.not_mem_nil
  | cons x u ih =>
      obtain ⟨hx, hu⟩ := List.nodup_cons.mp honce
      rw [of_cons]
      rcases List.mem_cons.mp h with rfl | h
      · exact if_pos rfl
      · have hne : d ≠ x.1 := fun heq => hx (heq ▸ List.mem_map_of_mem (f := Prod.fst) h)
        rw [if_neg hne, ih hu h]

/-- In a table that is ordered by number, one more use is counted. -/
theorem of_count (h : u.Pairwise fun a b => a.1 < b.1) (db d : Database) :
    of (u.count db) d = of u d + if d = db then 1 else 0 := by
  induction u with
  | nil => simp [count, of_cons, of_eq_zero]
  | cons x u ih =>
      obtain ⟨hx, hu⟩ := List.pairwise_cons.mp h
      unfold count
      by_cases hlt : db < x.1
      · -- the database is new, for all others come behind it
        have hnew : of (x :: u) db = 0 := of_eq_zero fun p hp hdb => by
          subst hdb
          rcases List.mem_cons.mp hp with rfl | hp
          · exact UInt32.lt_irrefl _ hlt
          · exact UInt32.lt_irrefl _ (UInt32.lt_trans hlt (hx p hp))
        rw [if_pos hlt, of_cons]
        by_cases hd : d = db
        · simp [hd, hnew]
        · simp [hd]
      · rw [if_neg hlt]
        by_cases heq : x.1 = db
        · rw [if_pos heq, of_cons, of_cons, heq]
          by_cases hd : d = db
          · simp [hd]
          · simp [hd]
        · rw [if_neg heq, of_cons, of_cons, ih hu]
          by_cases hd : d = x.1
          · simp [hd, heq]
          · simp [hd]

/-- Each entry is the only one for its database. -/
theorem mem_iff (hordered : u.Pairwise fun a b => a.1 < b.1) (hpos : ∀ p ∈ u, 0 < p.2) :
    (d, n) ∈ u ↔ 0 < n ∧ of u d = n := by
  induction u with
  | nil => simp [of]; omega
  | cons x u ih =>
      obtain ⟨hx, hu⟩ := List.pairwise_cons.mp hordered
      obtain ⟨hxpos, hupos⟩ := List.forall_mem_cons.mp hpos
      rw [List.mem_cons, of_cons, ih hu hupos]
      by_cases hd : d = x.1
      · subst hd
        have hnone : of u x.1 = 0 := of_eq_zero fun p hp hp' =>
          UInt32.lt_irrefl _ (hp' ▸ hx p hp)
        rw [hnone, if_pos rfl, Prod.ext_iff]
        simp only [true_and]
        omega
      · rw [if_neg hd, Prod.ext_iff]
        simp [hd]

end Usage

/-! ## Both places -/

namespace UseCounts

/-- How often a database was used. -/
def of (u : UseCounts) (db : Database) : Nat :=
  if h : db.toNat < trackedDatabases then u.tracked[db.toNat] else Usage.of u.further db

/-- A use is counted for its database and for no other, wherever that is. -/
theorem of_count (u : UseCounts) (db d : Database) :
    (u.count db).of d = u.of d + if d = db then 1 else 0 := by
  unfold of count
  by_cases hdb : db.toNat < trackedDatabases
  · rw [dif_pos hdb]
    by_cases hd : d.toNat < trackedDatabases
    · rw [dif_pos hd, dif_pos hd, Vector.getElem_set]
      by_cases heq : d = db
      · simp [heq]
      · have hne : db.toNat ≠ d.toNat := fun h => heq (UInt32.toNat_inj.mp h).symm
        simp [heq, hne]
    · have hne : d ≠ db := fun h => hd (h ▸ hdb)
      rw [dif_neg hd, dif_neg hd, if_neg hne]
      rfl
  · rw [dif_neg hdb]
    by_cases hd : d.toNat < trackedDatabases
    · have hne : d ≠ db := fun h => hdb (h ▸ hd)
      rw [dif_pos hd, dif_pos hd, if_neg hne, Nat.add_zero]
    · rw [dif_neg hd, dif_neg hd, Usage.of_count u.ordered]

theorem of_new (d : Database) : new.of d = 0 := by
  unfold of new
  split
  · exact Vector.getElem_replicate ..
  · rfl

theorem of_foldl (u : UseCounts) (dbs : List Database) (d : Database) :
    (dbs.foldl count u).of d = u.of d + dbs.count d := by
  induction dbs generalizing u with
  | nil => rfl
  | cons db dbs ih =>
      rw [List.foldl_cons, ih, of_count, List.count_cons]
      by_cases h : d = db
      · simp [h]; omega
      · simp [h, Ne.symm h]

theorem toNat_number {i : Nat} (h : i < trackedDatabases) : (UInt32.ofNat i).toNat = i := by
  unfold trackedDatabases at h
  exact UInt32.toNat_ofNat_of_lt' (Nat.lt_trans h (by decide))

/-- The counters that are listed with the number of their database. -/
theorem mem_numbered (u : UseCounts) :
    (d, n) ∈ u.tracked.toList.zipIdx.map (fun (n, db) => (UInt32.ofNat db, n))
      ↔ ∃ h : d.toNat < trackedDatabases, u.tracked[d.toNat] = n := by
  have hlength : u.tracked.toList.length = trackedDatabases := Vector.length_toList
  rw [List.mem_map]
  constructor
  · rintro ⟨⟨m, i⟩, hmem, heq⟩
    obtain ⟨hi, hm⟩ := List.mem_zipIdx' hmem
    obtain ⟨rfl, rfl⟩ := Prod.mk.inj heq
    have hnumber : (UInt32.ofNat i).toNat = i := toNat_number (by omega)
    refine ⟨by omega, ?_⟩
    simp only [hm, hnumber, Vector.getElem_toList]
  · rintro ⟨h, rfl⟩
    refine ⟨(u.tracked[d.toNat], d.toNat), ?_, by simp⟩
    rw [List.mem_zipIdx_iff_getElem?, List.getElem?_eq_some_iff]
    exact ⟨by omega, Vector.getElem_toList _⟩

/-- What is listed is how often each database was used. -/
theorem mem_toList (u : UseCounts) : (d, n) ∈ u.toList ↔ 0 < n ∧ u.of d = n := by
  have hfurther := Usage.mem_iff (d := d) (n := n) u.ordered fun p hp => (u.beyond p hp).2
  unfold toList of
  rw [List.mem_append, hfurther, List.mem_filter, mem_numbered]
  by_cases hd : d.toNat < trackedDatabases
  · have hnone : Usage.of u.further d = 0 := Usage.of_eq_zero fun p hp hpd => by
      have hbeyond := (u.beyond p hp).1
      rw [hpd] at hbeyond
      omega
    simp only [hd, exists_true_left, dite_true, hnone, decide_eq_true_eq]
    omega
  · simp [hd]

theorem toList_ordered (u : UseCounts) : u.toList.Pairwise fun a b => a.1 < b.1 := by
  have hlength : u.tracked.toList.length = trackedDatabases := Vector.length_toList
  unfold toList
  refine List.pairwise_append.mpr ⟨List.Pairwise.filter _ ?_, u.ordered, ?_⟩
  · rw [List.pairwise_iff_getElem]
    intro i j hi hj hij
    simp only [List.length_map, List.length_zipIdx, hlength] at hi hj
    simp only [List.getElem_map, List.getElem_zipIdx, UInt32.lt_iff_toNat_lt, Nat.zero_add]
    rw [toNat_number hi, toNat_number hj]
    exact hij
  · intro a ha b hb
    obtain ⟨hsmall, -⟩ := u.mem_numbered.mp (List.mem_filter.mp ha).1
    have hbeyond := (u.beyond b hb).1
    rw [UInt32.lt_iff_toNat_lt]
    omega

end UseCounts

/-! ## The table of a snapshot -/

/-- `table` lists the databases of `dbs`, each once and with its number of occurrences: the most
used first, and of equally used ones the one with the smaller number. -/
structure Histogram (dbs : List Database) (table : Usage) : Prop where
  entries : ∀ d n, (d, n) ∈ table ↔ d ∈ dbs ∧ n = dbs.count d
  once : (table.map Prod.fst).Nodup
  ordered : table.Pairwise fun a b => b.2 < a.2 ∨ b.2 = a.2 ∧ a.1 < b.1

namespace Usage

theorem precedes_iff {a b : Database × Nat} :
    precedes a b ↔ b.2 < a.2 ∨ a.2 = b.2 ∧ a.1 ≤ b.1 := by
  simp [precedes]

theorem ranked_perm (u : Usage) : u.ranked.Perm u := List.mergeSort_perm u precedes

theorem ranked_pairwise (u : Usage) : u.ranked.Pairwise fun a b => precedes a b := by
  refine List.pairwise_mergeSort ?_ ?_ u
  · intro a b c hab hbc
    rw [precedes_iff] at hab hbc ⊢
    grind
  · intro a b
    rw [Bool.or_eq_true, precedes_iff, precedes_iff]
    grind

end Usage

namespace Histogram

variable {table table' : Usage} {dbs' : List Database}

/-- The ranked list of all databases that have been used is their histogram. -/
theorem of_counts {u : UseCounts} (hcounts : ∀ d, u.of d = dbs.count d) :
    Histogram dbs u.toList.ranked := by
  have hperm := u.toList.ranked_perm
  have hdistinct : (u.toList.map Prod.fst).Nodup := by
    rw [List.nodup_iff_pairwise_ne, List.pairwise_map]
    exact u.toList_ordered.imp UInt32.ne_of_lt
  have hnodup : (u.toList.ranked.map Prod.fst).Nodup := (hperm.map _).nodup_iff.mpr hdistinct
  refine ⟨?_, hnodup, ?_⟩
  · intro d n
    rw [hperm.mem_iff, u.mem_toList, hcounts, ← List.count_pos_iff]
    omega
  · have hapart := List.pairwise_map.mp (List.nodup_iff_pairwise_ne.mp hnodup)
    refine (u.toList.ranked_pairwise.and hapart).imp ?_
    rintro a b ⟨hab, hne⟩
    rw [Usage.precedes_iff] at hab
    grind

/-- The order of the uses does not matter, and the table is determined by what it says. -/
theorem unique (h : Histogram dbs table) (h' : Histogram dbs' table') (hperm : dbs.Perm dbs') :
    table = table' := by
  have hsame : table.Perm table' := by
    have hnodup : table.Nodup := List.Nodup.of_map _ h.once
    have hnodup' : table'.Nodup := List.Nodup.of_map _ h'.once
    refine (List.perm_ext_iff_of_nodup hnodup hnodup').mpr ?_
    rintro ⟨d, n⟩
    rw [h.entries, h'.entries, hperm.mem_iff, hperm.count_eq]
  refine List.Perm.eq_of_pairwise ?_ h.ordered h'.ordered hsame
  intro a b _ _ hab hba
  exfalso
  grind

/-- How often each database was used can be read off its table. -/
theorem of_eq (h : Histogram dbs table) (d : Database) : table.of d = dbs.count d := by
  by_cases hd : d ∈ dbs
  · have hmem : (d, dbs.count d) ∈ table := (h.entries d _).mpr ⟨hd, rfl⟩
    exact Usage.of_eq_of_mem h.once hmem
  · rw [List.count_eq_zero.mpr hd]
    refine Usage.of_eq_zero fun p hp hpd => hd ?_
    exact ((h.entries d p.2).mp (hpd ▸ hp)).1

/-- A renaming of the databases that keeps their order only renames them in the table. -/
theorem rename (h : Histogram dbs table) {f : Database → Database}
    (hf : ∀ a ∈ dbs, ∀ b ∈ dbs, a < b → f a < f b) :
    Histogram (dbs.map f) (table.map (Prod.map f id)) := by
  have hmem : ∀ p ∈ table, p.1 ∈ dbs := fun p hp => ((h.entries p.1 p.2).mp hp).1
  -- databases that are used stay different under their new names
  have hinjective : ∀ a ∈ dbs, ∀ b ∈ dbs, f a = f b → a = b := by
    intro a ha b hb heq
    have hab := hf a ha b hb
    have hba := hf b hb a ha
    grind
  have hcount : ∀ a ∈ dbs, (dbs.map f).count (f a) = dbs.count a := by
    intro a ha
    unfold List.count
    rw [List.countP_map]
    refine List.countP_congr fun b hb => ?_
    have hinj := hinjective b hb a ha
    simp only [Function.comp_apply, beq_iff_eq]
    exact ⟨hinj, congrArg f⟩
  refine ⟨?_, ?_, ?_⟩
  · intro d n
    constructor
    · intro hdn
      obtain ⟨⟨a, m⟩, ha, heq⟩ := List.mem_map.mp hdn
      obtain ⟨rfl, rfl⟩ := Prod.mk.inj heq
      obtain ⟨hadb, rfl⟩ := (h.entries a m).mp ha
      exact ⟨List.mem_map_of_mem hadb, (hcount a hadb).symm⟩
    · rintro ⟨hd, rfl⟩
      obtain ⟨a, ha, rfl⟩ := List.mem_map.mp hd
      rw [hcount a ha]
      exact List.mem_map_of_mem (f := Prod.map f id) ((h.entries a _).mpr ⟨ha, rfl⟩)
  · have honce := h.once
    rw [List.nodup_iff_pairwise_ne, List.pairwise_map] at honce
    rw [List.nodup_iff_pairwise_ne, List.pairwise_map, List.pairwise_map]
    refine honce.imp_of_mem fun ha hb hne heq => hne ?_
    exact hinjective _ (hmem _ ha) _ (hmem _ hb) heq
  · rw [List.pairwise_map]
    refine h.ordered.imp_of_mem fun ha hb hab => ?_
    have hlt := hf _ (hmem _ ha) _ (hmem _ hb)
    exact hab.imp_right fun ⟨heq, hless⟩ => ⟨heq, hlt hless⟩

end Histogram

/-- The databases that a snapshot shows when these have been used, in this order. -/
def usageTable (dbs : List Database) (unsent sent : Nat) : Usage :=
  ((dbs.foldl Counters.useDatabase {}).snapshot unsent sent).usage

theorem foldl_useDatabase (c : Counters) (dbs : List Database) :
    dbs.foldl Counters.useDatabase c = { c with usage := dbs.foldl UseCounts.count c.usage } := by
  induction dbs generalizing c with
  | nil => rfl
  | cons db dbs ih => exact ih _

theorem histogram_usageTable (dbs : List Database) (unsent sent : Nat) :
    Histogram dbs (usageTable dbs unsent sent) := by
  unfold usageTable Counters.snapshot
  rw [foldl_useDatabase]
  refine Histogram.of_counts fun d => ?_
  rw [UseCounts.of_foldl, UseCounts.of_new, Nat.zero_add]

/-- The table of a snapshot is a histogram of all uses. Their order does not matter, and no database
is treated differently because of its number: with other numbers in the same order, the table is the
same but for these numbers. -/
theorem usage_histogram (dbs : List Database) (unsent sent : Nat) :
    Histogram dbs (usageTable dbs unsent sent)
      ∧ (∀ dbs', dbs.Perm dbs' → usageTable dbs' unsent sent = usageTable dbs unsent sent)
      ∧ ∀ f : Database → Database, (∀ a ∈ dbs, ∀ b ∈ dbs, a < b → f a < f b) →
          usageTable (dbs.map f) unsent sent
            = (usageTable dbs unsent sent).map (Prod.map f id) := by
  have htable := histogram_usageTable dbs unsent sent
  refine ⟨htable, ?_, ?_⟩
  · intro dbs' hperm
    exact (histogram_usageTable dbs' unsent sent).unique htable hperm.symm
  · intro f hf
    exact (histogram_usageTable _ unsent sent).unique (htable.rename hf) (.refl _)

/-- The numbers move across the last one that has a counter of its own. -/
theorem usage_histogram_acrossTracked :
    usageTable [15, 2, 15, 39] 0 0 = (usageTable [16, 3, 16, 40] 0 0).map (Prod.map (· - 1) id) :=
  (usage_histogram [16, 3, 16, 40] 0 0).2.2 (· - 1) (by simp)

end RespMux
