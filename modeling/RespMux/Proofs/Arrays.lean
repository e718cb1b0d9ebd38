import Mathlib.Data.List.Basic
import RespMux.Reply.Extract

/-!
# The values of an array

An array yields its values only if every item does. `FailsFirst` says which failure is reported
otherwise: that of the first item that does not pass the check for its place, whatever comes behind
it. It has the recursion of a list (`failsFirst_cons`), so each way of going through an array is
compared with it by one induction.

`Collects` is what holds of a function that takes the items one by one, and `CollectsPairs` what
holds of one that takes them two by two.
-/

set_option autoImplicit false

namespace RespMux

namespace Reply

/-! ## The first failure -/

section FailsFirst

variable {α : Type} {check : Nat → Reply → Except Error α} {r : Reply} {rs : List Reply}
variable {e : Error}

/-- Among the items `rs` is one that fails the check for its index with `e`, and those before it
all pass. -/
def FailsFirst (check : Nat → Reply → Except Error α) (rs : List Reply) (e : Error) : Prop :=
  ∃ before r after, rs = before ++ r :: after ∧ check before.length r = .error e
    ∧ ∀ i x, before[i]? = some x → ∃ v, check i x = .ok v

theorem failsFirst_nil : ¬ FailsFirst check [] e := by
  rintro ⟨before, r, after, h, -⟩
  simp at h

/-- The first item fails, or it passes and a later one is the first that fails. -/
theorem failsFirst_cons : FailsFirst check (r :: rs) e ↔
    check 0 r = .error e
      ∨ (∃ v, check 0 r = .ok v) ∧ FailsFirst (fun i => check (i + 1)) rs e := by
  constructor
  · rintro ⟨before, x, after, hsplit, hx, hbefore⟩
    cases before with
    | nil =>
        obtain ⟨rfl, -⟩ := List.cons.inj hsplit
        exact Or.inl hx
    | cons y before =>
        obtain ⟨rfl, hrest⟩ := List.cons.inj hsplit
        refine Or.inr ⟨hbefore 0 r rfl, before, x, after, hrest, hx, ?_⟩
        exact fun i y hy => hbefore (i + 1) y hy
  · rintro (hr | ⟨hr, before, x, after, rfl, hx, hbefore⟩)
    · exact ⟨[], r, rs, rfl, hr, fun i x hx => by simp at hx⟩
    · refine ⟨r :: before, x, after, rfl, hx, fun i y hy => ?_⟩
      cases i with
      | zero =>
          obtain rfl : r = y := by simpa using hy
          exact hr
      | succ i => exact hbefore i y (by simpa using hy)

/-- Nothing fails if every item passes. -/
theorem not_failsFirst_iff : (∀ e, ¬ FailsFirst check rs e) ↔
    ∀ i x, rs[i]? = some x → ∃ v, check i x = .ok v := by
  induction rs generalizing check with
  | nil => simp [failsFirst_nil]
  | cons r rs ih =>
      have hindex : (∀ i x, (r :: rs)[i]? = some x → ∃ v, check i x = .ok v) ↔
          (∃ v, check 0 r = .ok v) ∧ ∀ i x, rs[i]? = some x → ∃ v, check (i + 1) x = .ok v := by
        refine ⟨fun h => ⟨h 0 r rfl, fun i x hx => h (i + 1) x hx⟩, fun h i x hx => ?_⟩
        cases i with
        | zero =>
            obtain rfl : r = x := by simpa using hx
            exact h.1
        | succ i => exact h.2 i x (by simpa using hx)
      rw [hindex, ← ih]
      simp only [failsFirst_cons]
      cases check 0 r with
      | error e => simp
      | ok v => simp

end FailsFirst

theorem exists_ok_iff {β : Type} {y : Except Error β} :
    (∃ v, y = .ok v) ↔ ∀ e, ¬ y = .error e := by
  cases y <;> simp

/-! ## Item by item -/

section Collect

variable {α : Type} {f : Reply → Except Error α} {rs : List Reply}

theorem collect_nil : collect f [] = .ok [] := rfl

theorem collect_cons (r : Reply) (rs : List Reply) :
    collect f (r :: rs) = (f r).bind fun v => (collect f rs).map (v :: ·) := by
  unfold collect
  rw [List.mapM_cons]
  cases f r with
  | error e => rfl
  | ok v => cases rs.mapM f <;> rfl

theorem collect_cons_eq_ok_iff {r : Reply} {vs : List α} : collect f (r :: rs) = .ok vs ↔
    ∃ w ws, vs = w :: ws ∧ f r = .ok w ∧ collect f rs = .ok ws := by
  rw [collect_cons]
  cases f r with
  | error e => simp [Except.bind]
  | ok v => cases collect f rs <;> simp [Except.bind, Except.map, eq_comm]

theorem collect_eq_ok_iff {vs : List α} : collect f rs = .ok vs ↔ rs.map f = vs.map .ok := by
  induction rs generalizing vs with
  | nil => cases vs <;> simp [collect_nil]
  | cons r rs ih =>
      rw [collect_cons_eq_ok_iff, List.map_cons, eq_comm, List.map_eq_cons_iff]
      simp only [ih, eq_comm]

theorem collect_eq_error_iff {e : Error} :
    collect f rs = .error e ↔ FailsFirst (fun _ => f) rs e := by
  induction rs with
  | nil => simp [collect_nil, failsFirst_nil]
  | cons r rs ih =>
      rw [collect_cons, failsFirst_cons]
      cases hr : f r with
      | error e' => simp [Except.bind]
      | ok v =>
          rw [← ih]
          cases collect f rs <;> simp [Except.bind, Except.map]

end Collect

/-- What `extract` gives are the values that `f` gives of the items of an array. -/
structure Collects {α : Type} (f : Reply → Except Error α)
    (extract : Reply → Except Error (List α)) : Prop where
  /-- in a success each value is that of the item at its index -/
  values : ∀ r vs, extract r = .ok vs ↔ ∃ rs, r = .multi rs ∧ rs.map f = vs.map .ok
  length : ∀ rs vs, extract (.multi rs) = .ok vs → vs.length = rs.length
  /-- there is one for an array of which every item has a value -/
  success : ∀ r, (∃ vs, extract r = .ok vs) ↔
    ∃ rs, r = .multi rs ∧ ∀ x ∈ rs, ∃ v, f x = .ok v
  /-- an array fails like the first of its items that does -/
  failure : ∀ rs e, extract (.multi rs) = .error e ↔ FailsFirst (fun _ => f) rs e
  /-- so an error among the items is reported unless an earlier item fails -/
  nested : ∀ before t after, (∀ x ∈ before, ∃ v, f x = .ok v) →
    extract (.multi (before ++ .error t :: after)) = .error (.server t)
  /-- whatever is no array has no items to fail -/
  server : ∀ t, extract (.error t) = .error (.server t)
  mismatch : ∀ r, r.isError = false → (∀ rs, r ≠ .multi rs) →
    extract r = .error (.typeMismatch "multi-bulk" r.kind)

theorem items_of_ne {r : Reply} (he : r.isError = false) (hm : ∀ rs, r ≠ .multi rs) :
    r.items = .error (.typeMismatch "multi-bulk" r.kind) := by
  cases r with
  | error t => cases he
  | multi rs => exact absurd rfl (hm rs)
  | _ => rfl

theorem items_eq_ok_iff {r : Reply} {rs : List Reply} : r.items = .ok rs ↔ r = .multi rs := by
  cases r <;> simp [items, mismatch]

theorem bind_items_eq_ok_iff {β : Type} {r : Reply} {g : List Reply → Except Error β} {y : β} :
    r.items.bind g = .ok y ↔ ∃ rs, r = .multi rs ∧ g rs = .ok y := by
  cases h : r.items with
  | error e =>
      refine iff_of_false (fun hy => by cases hy) ?_
      rintro ⟨rs, rfl, -⟩
      cases h
  | ok rs =>
      obtain rfl := items_eq_ok_iff.mp h
      simp [Except.bind]

/-- Any value that an error does not have can be collected. -/
theorem collects {α : Type} {f : Reply → Except Error α}
    (hserver : ∀ t, f (.error t) = .error (.server t)) :
    Collects f fun r => r.items.bind (collect f) where
  values r vs := by simp only [bind_items_eq_ok_iff, collect_eq_ok_iff]
  length rs vs h := by
    have hvs := congrArg List.length (collect_eq_ok_iff.mp h)
    simpa using hvs.symm
  success r := by
    simp only [bind_items_eq_ok_iff]
    rw [exists_comm]
    simp only [exists_and_left, exists_ok_iff (y := collect f _), collect_eq_error_iff,
      not_failsFirst_iff, List.mem_iff_getElem?, forall_exists_index]
    exact exists_congr fun rs => and_congr_right fun _ => forall_comm
  failure rs e := collect_eq_error_iff
  nested before t after h :=
    collect_eq_error_iff.mpr ⟨before, .error t, after, rfl, hserver t,
      fun i x hx => h x (List.mem_of_getElem? hx)⟩
  server t := rfl
  mismatch r he hm := by
    show r.items.bind _ = _
    rw [items_of_ne he hm]
    rfl

/-! ## Two by two -/

/-- What an item of an array of pairs has to be: a byte string other than null, and at the odd
indices a double. -/
def part (i : Nat) (r : Reply) : Except Error Unit :=
  if i % 2 = 0 then
    match r.toBytes with
    | .ok (some _) => .ok ()
    | .ok none => .error (.invalidValue "null member")
    | .error e => .error e
  else r.toDouble.map fun _ => ()

theorem part_zero (r : Reply) : part 0 r = r.toMember.map fun _ => () := by
  unfold part toMember
  rw [if_pos rfl]
  cases r.toBytes with
  | error e => rfl
  | ok data => cases data <;> rfl

theorem part_one (r : Reply) : part 1 r = r.toDouble.map fun _ => () := rfl

theorem part_two (i : Nat) : part (i + 1 + 1) = part i := by
  unfold part
  rw [Nat.add_assoc, Nat.add_mod_right]

theorem exists_part_iff {i : Nat} {r : Reply} : (∃ u, part i r = .ok u) ↔
    if i % 2 = 0 then ∃ m, r.toBytes = .ok (some m) else ∃ v, r.toDouble = .ok v := by
  unfold part
  split
  · cases r.toBytes with
    | error e => simp
    | ok data => cases data <;> simp
  · cases r.toDouble <;> simp [Except.map]

theorem part_error (i : Nat) (t : String) : part i (.error t) = .error (.server t) := by
  unfold part
  split <;> rfl

theorem toMember_eq_ok_iff {r : Reply} {m : Bytes} :
    r.toMember = .ok m ↔ r.toBytes = .ok (some m) := by
  unfold toMember
  cases r.toBytes with
  | error e => simp [Except.bind]
  | ok data => cases data <;> simp [Except.bind]

/-- The items are those of the pairs, in order. -/
def PairsUp (rs : List Reply) (ps : List (Bytes × Double)) : Prop :=
  rs.length = 2 * ps.length ∧ ∀ i m x, ps[i]? = some (m, x) → ∃ member score,
    rs[2 * i]? = some member ∧ rs[2 * i + 1]? = some score
      ∧ member.toBytes = .ok (some m) ∧ score.toDouble = .ok x

theorem pairsUp_nil {ps : List (Bytes × Double)} : PairsUp [] ps ↔ ps = [] := by
  constructor
  · intro h
    have hlen := h.1
    rw [List.length_nil] at hlen
    exact List.length_eq_zero_iff.mp (by omega)
  · rintro rfl
    exact ⟨rfl, fun i m x h => by simp at h⟩

theorem pairsUp_cons {member score : Reply} {rs : List Reply} {m : Bytes} {x : Double}
    {ps : List (Bytes × Double)} : PairsUp (member :: score :: rs) ((m, x) :: ps) ↔
      member.toBytes = .ok (some m) ∧ score.toDouble = .ok x ∧ PairsUp rs ps := by
  constructor
  · rintro ⟨hlen, hall⟩
    obtain ⟨a, b, ha, hb, hm, hx⟩ := hall 0 m x rfl
    obtain rfl : member = a := by simpa using ha
    obtain rfl : score = b := by simpa using hb
    refine ⟨hm, hx, ?_, fun i m' x' h => ?_⟩
    · simp only [List.length_cons] at hlen
      omega
    · obtain ⟨a, b, ha, hb, hrest⟩ := hall (i + 1) m' x' h
      exact ⟨a, b, ha, hb, hrest⟩
  · rintro ⟨hm, hx, hlen, hall⟩
    refine ⟨?_, fun i m' x' h => ?_⟩
    · simp only [List.length_cons]
      omega
    · cases i with
      | zero =>
          obtain ⟨rfl, rfl⟩ : m = m' ∧ x = x' := by simpa using h
          exact ⟨member, score, rfl, rfl, hm, hx⟩
      | succ i => exact hall i m' x' h

theorem collectPairs_cons (member score : Reply) (rs : List Reply) :
    collectPairs (member :: score :: rs) = member.toMember.bind fun m =>
      score.toDouble.bind fun x => (collectPairs rs).map ((m, x) :: ·) := rfl

theorem collectPairs_cons_eq_ok_iff {member score : Reply} {rs : List Reply}
    {ps : List (Bytes × Double)} : collectPairs (member :: score :: rs) = .ok ps ↔
      ∃ m x qs, ps = (m, x) :: qs ∧ member.toBytes = .ok (some m) ∧ score.toDouble = .ok x
        ∧ collectPairs rs = .ok qs := by
  simp only [collectPairs_cons, ← toMember_eq_ok_iff]
  cases member.toMember with
  | error e => simp [Except.bind]
  | ok m =>
      cases score.toDouble with
      | error e => simp [Except.bind]
      | ok x => cases collectPairs rs <;> simp [Except.bind, Except.map, eq_comm]

theorem collectPairs_eq_ok_iff {rs : List Reply} {ps : List (Bytes × Double)}
    (heven : rs.length % 2 = 0) : collectPairs rs = .ok ps ↔ PairsUp rs ps := by
  induction rs using collectPairs.induct generalizing ps with
  | case1 member score rs ih =>
      have hrest : rs.length % 2 = 0 := by
        simp only [List.length_cons] at heven
        omega
      rw [collectPairs_cons_eq_ok_iff]
      constructor
      · rintro ⟨m, x, qs, rfl, hm, hx, hqs⟩
        exact pairsUp_cons.mpr ⟨hm, hx, (ih hrest).mp hqs⟩
      · intro h
        cases ps with
        | nil => simpa using h.1
        | cons p qs =>
            obtain ⟨hm, hx, hqs⟩ := pairsUp_cons.mp h
            exact ⟨p.1, p.2, qs, rfl, hm, hx, (ih hrest).mpr hqs⟩
  | case2 rs hne =>
      match rs, hne with
      | [], _ => simp [collectPairs, pairsUp_nil, eq_comm]
      | [r], _ => simp at heven
      | member :: score :: rs, hne => exact absurd rfl (hne member score rs)

theorem collectPairs_eq_error_iff {rs : List Reply} {e : Error} (heven : rs.length % 2 = 0) :
    collectPairs rs = .error e ↔ FailsFirst part rs e := by
  induction rs using collectPairs.induct with
  | case1 member score rs ih =>
      have ih := ih (by simp only [List.length_cons] at heven; omega)
      rw [collectPairs_cons, failsFirst_cons, failsFirst_cons, part_zero, part_one]
      simp only [part_two]
      rw [← ih]
      cases member.toMember with
      | error e => simp [Except.bind, Except.map]
      | ok m =>
          cases score.toDouble with
          | error e => simp [Except.bind, Except.map]
          | ok x => cases collectPairs rs <;> simp [Except.bind, Except.map]
  | case2 rs hne =>
      match rs, hne with
      | [], _ => simp [collectPairs, failsFirst_nil]
      | [r], _ => simp at heven
      | member :: score :: rs, hne => exact absurd rfl (hne member score rs)

/-- What `extract` gives are the pairs of an array of members, each followed by its score. -/
structure CollectsPairs (extract : Reply → Except Error (List (Bytes × Double))) : Prop where
  /-- in a success each pair is that of the two items at its place, so there are half as many -/
  values : ∀ r ps, extract r = .ok ps ↔ ∃ rs, r = .multi rs ∧ PairsUp rs ps
  /-- there is one for an array of even length with members and scores where they have to be -/
  success : ∀ r, (∃ ps, extract r = .ok ps) ↔ ∃ rs, r = .multi rs ∧ rs.length % 2 = 0
    ∧ ∀ i x, rs[i]? = some x →
      if i % 2 = 0 then ∃ m, x.toBytes = .ok (some m) else ∃ v, x.toDouble = .ok v
  /-- an odd length is reported whatever the items are -/
  odd : ∀ rs, rs.length % 2 = 1 → extract (.multi rs) = .error (.invalidValue
    ("expected an even number of items, got " ++ Decimal.natText rs.length))
  /-- otherwise the array fails like the first of its items that does -/
  failure : ∀ rs e, rs.length % 2 = 0 → (extract (.multi rs) = .error e ↔ FailsFirst part rs e)
  /-- so an error among the items is reported unless an earlier item fails -/
  nested : ∀ before t after, (before ++ .error t :: after).length % 2 = 0 →
    (∀ i x, before[i]? = some x → part i x = .ok ()) →
    extract (.multi (before ++ .error t :: after)) = .error (.server t)
  /-- whatever is no array has no items to fail -/
  server : ∀ t, extract (.error t) = .error (.server t)
  mismatch : ∀ r, r.isError = false → (∀ rs, r ≠ .multi rs) →
    extract r = .error (.typeMismatch "multi-bulk" r.kind)

theorem toPairs_even {rs : List Reply} (h : rs.length % 2 = 0) :
    toPairs (.multi rs) = collectPairs rs := if_pos h

theorem toPairs_odd {rs : List Reply} (h : rs.length % 2 = 1) :
    toPairs (.multi rs) = .error (.invalidValue
      ("expected an even number of items, got " ++ Decimal.natText rs.length)) :=
  if_neg (by omega)

theorem collectsPairs : CollectsPairs toPairs where
  values r ps := by
    unfold toPairs
    rw [bind_items_eq_ok_iff]
    refine exists_congr fun rs => and_congr_right fun _ => ?_
    split
    · next heven => exact collectPairs_eq_ok_iff heven
    · next hodd => exact iff_of_false (fun h => by cases h) fun h => hodd (by have := h.1; omega)
  success r := by
    unfold toPairs
    simp only [bind_items_eq_ok_iff]
    rw [exists_comm]
    refine exists_congr fun rs => ?_
    rw [exists_and_left]
    refine and_congr_right fun _ => ?_
    split
    · next heven =>
      simp only [exists_ok_iff (y := collectPairs rs), collectPairs_eq_error_iff heven,
        not_failsFirst_iff, exists_part_iff, heven, true_and]
    · next hodd => simp [hodd]
  odd rs h := toPairs_odd h
  failure rs e h := by
    rw [toPairs_even h]
    exact collectPairs_eq_error_iff h
  nested before t after heven h := by
    rw [toPairs_even heven]
    refine (collectPairs_eq_error_iff heven).mpr ⟨before, .error t, after, rfl, ?_, ?_⟩
    · exact part_error before.length t
    · exact fun i x hx => ⟨(), h i x hx⟩
  server t := rfl
  mismatch r he hm := by
    unfold toPairs
    rw [items_of_ne he hm]
    rfl

/-! ## The arrays -/

/-- Texts, byte strings and pairs are taken out of an array in order, all or none. -/
theorem arrays_extracted :
    Collects toText toTexts ∧ Collects toBytes toBlobs ∧ CollectsPairs toPairs :=
  ⟨collects fun _ => rfl, collects fun _ => rfl, collectsPairs⟩

end Reply

end RespMux
