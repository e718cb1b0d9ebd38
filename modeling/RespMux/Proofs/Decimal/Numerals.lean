import Mathlib.Data.List.TakeWhile
import RespMux.Decimal.Integer

/-!
# What an integer is written as

A numeral is one or more ASCII digits with an optional minus sign in front. It has one value, to
which leading zeros add nothing. A 64-bit integer is read from the numerals that have its value, and
from nothing else.
-/

set_option autoImplicit false

namespace RespMux.Decimal

/-! ## Digits -/

/-- One or more ASCII digits. -/
def IsDigits (ds : Bytes) : Prop := ds ≠ [] ∧ ∀ b ∈ ds, isDigit b = true

/-- The number that ASCII digits spell, the highest first. -/
def spelled (ds : Bytes) : Nat := ds.foldl (fun n b => 10 * n + digitValue b) 0

theorem ofDigits_eq_foldr (base : Nat) (ds : List Nat) :
    ofDigits base ds = ds.foldr (fun d n => base * n + d) 0 := by
  induction ds with
  | nil => rfl
  | cons d ds ih => rw [ofDigits, ih, List.foldr_cons, Nat.add_comm]

/-- The digits are read in the order in which they stand. -/
theorem number_map_digitValue (ds : Bytes) : number (ds.map digitValue) = spelled ds := by
  rw [number_eq, ofDigits_eq_foldr, List.foldr_reverse, List.foldl_map]
  rfl

theorem natural?_eq_some_iff {bs : Bytes} {n : Nat} :
    natural? bs = some n ↔ IsDigits bs ∧ spelled bs = n := by
  unfold natural? spanDigits
  constructor
  · intro h
    split at h
    · cases h
    · cases h
    · rename_i ds hne hspan
      obtain ⟨hmap, hdrop⟩ := Prod.mk.inj hspan
      have hall := List.dropWhile_eq_nil_iff.mp hdrop
      have htake := List.takeWhile_eq_self_iff.mpr hall
      rw [htake] at hmap
      refine ⟨⟨?_, hall⟩, ?_⟩
      · rintro rfl
        exact hne hmap.symm
      · rw [← number_map_digitValue, hmap]
        exact Option.some.inj h
  · rintro ⟨⟨hne, hall⟩, rfl⟩
    rw [List.takeWhile_eq_self_iff.mpr hall, List.dropWhile_eq_nil_iff.mpr hall]
    cases bs with
    | nil => exact absurd rfl hne
    | cons b bs =>
        rw [← number_map_digitValue]
        rfl

/-! ## Numerals -/

/-- Bytes that are written for an integer, and the value that they have. -/
inductive Numeral : Bytes → Int → Prop where
  | digits {ds : Bytes} (h : IsDigits ds) : Numeral ds (spelled ds)
  | minus {ds : Bytes} (h : IsDigits ds) : Numeral (45 :: ds) (-(spelled ds : Int))

theorem IsDigits.no_minus {ds : Bytes} (h : IsDigits (45 :: ds)) : False :=
  absurd (h.2 45 List.mem_cons_self) (by decide)

theorem numeral_minus_iff {ds : Bytes} {n : Int} :
    Numeral (45 :: ds) n ↔ IsDigits ds ∧ -(spelled ds : Int) = n := by
  constructor
  · intro h
    cases h with
    | digits h => exact h.no_minus.elim
    | minus h => exact ⟨h, rfl⟩
  · rintro ⟨h, rfl⟩
    exact .minus h

theorem numeral_digits_iff {bs : Bytes} {n : Int} (hbs : ∀ ds, bs ≠ 45 :: ds) :
    Numeral bs n ↔ IsDigits bs ∧ (spelled bs : Int) = n := by
  constructor
  · intro h
    cases h with
    | digits h => exact ⟨h, rfl⟩
    | minus h => exact absurd rfl (hbs _)
  · rintro ⟨h, rfl⟩
    exact .digits h

/-- An integer is read from the numerals that have its value. -/
theorem readInteger?_eq_some_iff {bs : Bytes} {i : Int64} :
    readInteger? bs = some i ↔ Numeral bs i.toInt := by
  unfold readInteger?
  split
  · rename_i ds
    rw [numeral_minus_iff, Option.bind_eq_some_iff]
    simp only [natural?_eq_some_iff, int64?_eq_some_iff]
    constructor
    · rintro ⟨n, ⟨hds, rfl⟩, hi⟩
      exact ⟨hds, hi⟩
    · rintro ⟨hds, hi⟩
      exact ⟨_, ⟨hds, rfl⟩, hi⟩
  · rename_i hbs
    rw [numeral_digits_iff hbs, Option.bind_eq_some_iff]
    simp only [natural?_eq_some_iff, int64?_eq_some_iff]
    constructor
    · rintro ⟨n, ⟨hds, rfl⟩, hi⟩
      exact ⟨hds, hi⟩
    · rintro ⟨hds, hi⟩
      exact ⟨_, ⟨hds, rfl⟩, hi⟩

theorem IsDigits.no_feed {ds : Bytes} (h : IsDigits ds) : 10 ∉ ds := by
  intro hmem
  exact absurd (h.2 10 hmem) (by decide)

/-- A numeral has no line feed in it. -/
theorem Numeral.no_feed {bs : Bytes} {n : Int} (h : Numeral bs n) : 10 ∉ bs := by
  cases h with
  | digits h => exact h.no_feed
  | minus h => exact List.not_mem_cons_of_ne_of_not_mem (by decide) h.no_feed

end RespMux.Decimal
