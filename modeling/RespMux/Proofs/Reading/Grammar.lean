import Mathlib.Data.List.Forall2
import RespMux.Proofs.Decimal.Numerals
import RespMux.Proofs.Reading.Buffered

/-!
# The grammar of replies

`Framed b r` says that the bytes `b` are a frame of the reply `r`, without any mention of how they
are read. A scanner reads a relation of this kind if it succeeds exactly where a front of the tape
is related to something, and then with this value and the rest of the tape. The scanner for frames
reads `Framed`, as long as the tape has fewer bytes than its depth.
-/

set_option autoImplicit false

namespace RespMux

variable {α β : Type}

/-! ## Frames -/

/-- The bytes are a frame of the reply. -/
inductive Framed : Bytes → Reply → Prop where
  | status {l : Bytes} (h : 10 ∉ l) : Framed (43 :: (l ++ crlf)) (.status l)
  | error {l : Bytes} (h : 10 ∉ l) : Framed (45 :: (l ++ crlf)) (.error (Utf8.lossy l))
  | integer {d : Bytes} {n : Int64} (h : Decimal.Numeral d n.toInt) :
      Framed (58 :: (d ++ crlf)) (.integer n)
  | bulk {d data : Bytes} {n : Int64} (h : Decimal.Numeral d n.toInt)
      (hn : n.toInt = data.length) :
      Framed (36 :: (d ++ crlf ++ (data ++ crlf))) (.bulk (some data))
  | nullBulk {d : Bytes} (h : Decimal.Numeral d (-1)) : Framed (36 :: (d ++ crlf)) (.bulk none)
  | nullArray {d : Bytes} (h : Decimal.Numeral d (-1)) : Framed (42 :: (d ++ crlf)) (.bulk none)
  /-- so many frames, one after the other -/
  | array {d : Bytes} {n : Int64} {parts : List Bytes} {items : List Reply}
      (h : Decimal.Numeral d n.toInt) (hn : n.toInt = items.length)
      (hparts : List.Forall₂ Framed parts items) :
      Framed (42 :: (d ++ crlf ++ parts.flatten)) (.multi items)

namespace Framed

variable {b : Bytes} {c : UInt8} {r : Reply}

/-- A frame starts with one of the type marks. -/
theorem mark (h : Framed (c :: b) r) : c = 43 ∨ c = 45 ∨ c = 58 ∨ c = 36 ∨ c = 42 := by
  cases h with
  | status => exact .inl rfl
  | error => exact .inr (.inl rfl)
  | integer => exact .inr (.inr (.inl rfl))
  | bulk => exact .inr (.inr (.inr (.inl rfl)))
  | nullBulk => exact .inr (.inr (.inr (.inl rfl)))
  | nullArray => exact .inr (.inr (.inr (.inr rfl)))
  | array => exact .inr (.inr (.inr (.inr rfl)))

theorem exists_cons (h : Framed b r) : ∃ c back, b = c :: back := by
  cases h with
  | status | error | integer | bulk | nullBulk | nullArray | array => exact ⟨_, _, rfl⟩

theorem status_iff : Framed (43 :: b) r ↔ ∃ l, (b = l ++ crlf ∧ 10 ∉ l) ∧ r = .status l := by
  constructor
  · intro h
    cases h with
    | status h => exact ⟨_, ⟨rfl, h⟩, rfl⟩
  · rintro ⟨l, ⟨rfl, h⟩, rfl⟩
    exact .status h

theorem error_iff :
    Framed (45 :: b) r ↔ ∃ l, (b = l ++ crlf ∧ 10 ∉ l) ∧ r = .error (Utf8.lossy l) := by
  constructor
  · intro h
    cases h with
    | error h => exact ⟨_, ⟨rfl, h⟩, rfl⟩
  · rintro ⟨l, ⟨rfl, h⟩, rfl⟩
    exact .error h

theorem integer_iff :
    Framed (58 :: b) r
      ↔ ∃ n : Int64, (∃ d, b = d ++ crlf ∧ Decimal.Numeral d n.toInt) ∧ r = .integer n := by
  constructor
  · intro h
    cases h with
    | integer h => exact ⟨_, ⟨_, rfl, h⟩, rfl⟩
  · rintro ⟨n, ⟨d, rfl, h⟩, rfl⟩
    exact .integer h

end Framed

/-- What follows the type mark of a bulk string or of an array: a length line with the length that
stands for null, or one with the length of the contents, which come next. -/
def Sized (contents : Nat → Bytes → Reply → Prop) (b : Bytes) (r : Reply) : Prop :=
  ∃ (d : Bytes) (n : Int64) (back : Bytes), b = d ++ crlf ++ back ∧ Decimal.Numeral d n.toInt
    ∧ ((n.toInt = -1 ∧ back = [] ∧ r = .bulk none) ∨ ∃ k : Nat, n.toInt = k ∧ contents k back r)

theorem Framed.bulk_iff {b : Bytes} {r : Reply} :
    Framed (36 :: b) r
      ↔ Sized (fun k b r => ∃ data, (b = data ++ crlf ∧ data.length = k) ∧ r = .bulk (some data))
        b r := by
  constructor
  · intro h
    cases h with
    | bulk h hn => exact ⟨_, _, _, rfl, h, .inr ⟨_, hn, _, ⟨rfl, rfl⟩, rfl⟩⟩
    | nullBulk h => exact ⟨_, -1, [], (List.append_nil _).symm, h, .inl ⟨rfl, rfl, rfl⟩⟩
  · rintro ⟨d, n, back, rfl, hd, ⟨hn, rfl, rfl⟩ | ⟨k, hn, data, ⟨rfl, rfl⟩, rfl⟩⟩
    · rw [List.append_nil]
      exact .nullBulk (hn ▸ hd)
    · exact .bulk hd hn

theorem Framed.array_iff {b : Bytes} {r : Reply} :
    Framed (42 :: b) r
      ↔ Sized (fun k b r => ∃ items, (∃ parts, b = parts.flatten ∧ items.length = k
          ∧ List.Forall₂ Framed parts items) ∧ r = .multi items) b r := by
  constructor
  · intro h
    cases h with
    | array h hn hparts =>
        exact ⟨_, _, _, rfl, h, .inr ⟨_, hn, _, ⟨_, rfl, rfl, hparts⟩, rfl⟩⟩
    | nullArray h => exact ⟨_, -1, [], (List.append_nil _).symm, h, .inl ⟨rfl, rfl, rfl⟩⟩
  · rintro ⟨d, n, back, rfl, hd, ⟨hn, rfl, rfl⟩ | ⟨k, hn, items, ⟨parts, rfl, rfl, hparts⟩, rfl⟩⟩
    · rw [List.append_nil]
      exact .nullArray (hn ▸ hd)
    · exact .array hd hn hparts

/-! ## Reading a relation -/

namespace Tape

/-- With fewer than `n` bytes ahead, the scanner succeeds where a front of the tape is related to a
value: with this value, and leaving the rest. -/
def Reads (n : Nat) (x : Scan α) (P : Bytes → α → Prop) : Prop :=
  ∀ t : Tape, t.bytes.length < n →
    ∀ a t', x t = .ok a t' ↔ ∃ b, t = ofBytes b ++ t' ∧ P b a

namespace Reads

theorem zero (x : Scan α) (P : Bytes → α → Prop) : Reads 0 x P := fun _ ht =>
  absurd ht (Nat.not_lt_zero _)

theorem congr {n : Nat} {x : Scan α} {P Q : Bytes → α → Prop} (h : Reads n x P)
    (hPQ : ∀ b a, P b a ↔ Q b a) : Reads n x Q := by
  intro t ht a t'
  rw [h t ht a t']
  simp only [hPQ]

theorem pure (n : Nat) (a : α) : Reads n (Pure.pure a) (fun b c => b = [] ∧ c = a) := by
  intro t _ c t'
  constructor
  · intro h
    cases h
    exact ⟨[], rfl, rfl, rfl⟩
  · rintro ⟨b, rfl, rfl, rfl⟩
    rfl

theorem throw (n : Nat) (e : Error) :
    Reads n (MonadExcept.throw e : Scan α) (fun _ _ => False) := by
  intro t _ c t'
  constructor
  · intro h
    cases h
  · rintro ⟨b, _, h⟩
    exact h.elim

/-- One thing after the other. -/
theorem bind {n k : Nat} {x : Scan α} {f : α → Scan β} {P : Bytes → α → Prop}
    {Q : α → Bytes → β → Prop} (hx : Reads n x P) (hk : Consumes k x)
    (hf : ∀ a, Reads (n - k) (f a) (Q a)) :
    Reads n (x >>= f) (fun b c => ∃ front a back, b = front ++ back ∧ P front a ∧ Q a back c) := by
  intro t ht c t'
  -- the bound goes down with the bytes that `x` takes
  have hrest {a : α} {u : Tape} (hxt : x t = .ok a u) : u.bytes.length < n - k := by
    have hleaves := hk t
    rw [hxt] at hleaves
    have := hleaves.2
    omega
  show EStateM.bind x f t = .ok c t' ↔ _
  unfold EStateM.bind
  constructor
  · intro h
    cases hxt : x t with
    | error e u =>
        rw [hxt] at h
        cases h
    | ok a u =>
        rw [hxt] at h
        obtain ⟨front, hfront, hP⟩ := (hx t ht a u).mp hxt
        obtain ⟨back, hback, hQ⟩ := (hf a u (hrest hxt) c t').mp h
        refine ⟨front ++ back, ?_, front, a, back, rfl, hP, hQ⟩
        rw [hfront, hback, ofBytes_append, List.append_assoc]
  · rintro ⟨b, hb, front, a, back, rfl, hP, hQ⟩
    have hxt : x t = .ok a (ofBytes back ++ t') := by
      refine (hx t ht _ _).mpr ⟨front, ?_, hP⟩
      rw [hb, ofBytes_append, List.append_assoc]
    rw [hxt]
    exact (hf a _ (hrest hxt) c t').mpr ⟨back, rfl, hQ⟩

/-- A value that is looked at without reading on. -/
theorem map {n : Nat} {x : Scan α} {P : Bytes → α → Prop} (hx : Reads n x P)
    (hk : Consumes 0 x) (f : α → β) :
    Reads n (x >>= fun a => Pure.pure (f a)) (fun b c => ∃ a, P b a ∧ c = f a) := by
  refine (hx.bind hk fun a => pure _ (f a)).congr fun b c => ?_
  constructor
  · rintro ⟨front, a, back, rfl, hP, rfl, hc⟩
    exact ⟨a, by rwa [List.append_nil], hc⟩
  · rintro ⟨a, hP, hc⟩
    exact ⟨b, a, [], (List.append_nil b).symm, hP, rfl, hc⟩

theorem ite {n : Nat} {c : Prop} [Decidable c] {x y : Scan α} {P Q : Bytes → α → Prop}
    (hx : Reads n x P) (hy : Reads n y Q) :
    Reads n (if c then x else y) (fun b a => (c ∧ P b a) ∨ (¬ c ∧ Q b a)) := by
  by_cases h : c
  · rw [if_pos h]
    exact hx.congr fun b a => by simp [h]
  · rw [if_neg h]
    exact hy.congr fun b a => by simp [h]

/-! ## Bytes, lines and lengths -/

theorem byte (n : Nat) : Reads n byte (fun b c => b = [c]) := by
  intro t _ c t'
  constructor
  · intro h
    match t, h with
    | .byte c :: t, h =>
        cases h
        exact ⟨[c], rfl, rfl⟩
  · rintro ⟨b, rfl, rfl⟩
    rfl

theorem ofExcept_ok_iff {x : Except Error α} {t t' : Tape} {a : α} :
    (MonadExcept.ofExcept x : Scan α) t = .ok a t' ↔ x = .ok a ∧ t' = t := by
  cases x with
  | ok c =>
      constructor
      · intro h
        cases h
        exact ⟨rfl, rfl⟩
      · rintro ⟨h, rfl⟩
        cases h
        rfl
  | error e =>
      constructor
      · intro h
        cases h
      · rintro ⟨h, _⟩
        cases h

theorem ofExcept (n : Nat) (x : Except Error α) :
    Reads n (MonadExcept.ofExcept x) (fun b a => b = [] ∧ x = .ok a) := by
  intro t _ a t'
  rw [ofExcept_ok_iff]
  constructor
  · rintro ⟨hx, rfl⟩
    exact ⟨[], rfl, rfl, hx⟩
  · rintro ⟨b, rfl, rfl, hx⟩
    exact ⟨hx, rfl⟩

theorem withoutReturn_ok_iff {line l : Bytes} :
    Reader.withoutReturn line = .ok l ↔ line = l ++ [13] := by
  unfold Reader.withoutReturn
  constructor
  · intro h
    split at h
    · rename_i hlast
      rw [← Except.ok.inj h]
      exact (List.dropLast_append_getLast? 13 hlast).symm
    · cases h
  · rintro rfl
    rw [if_pos List.getLast?_concat, List.dropLast_concat]

/-- A tape has a line feed after some bytes, or no byte comes after them. -/
theorem feed_or_stop (t : Tape) : ∃ front rest, t = ofBytes front ++ rest ∧ 10 ∉ front
    ∧ ((∃ u, rest = .byte 10 :: u) ∨ ∃ e u, Tape.byte rest = .error e u) := by
  induction t with
  | nil => exact ⟨[], [], rfl, List.not_mem_nil, .inr ⟨_, _, rfl⟩⟩
  | cons c t ih =>
      cases c with
      | eof => exact ⟨[], _, rfl, List.not_mem_nil, .inr ⟨_, _, rfl⟩⟩
      | failure e => exact ⟨[], _, rfl, List.not_mem_nil, .inr ⟨_, _, rfl⟩⟩
      | byte b =>
          by_cases hb : b = 10
          · subst hb
            exact ⟨[], _, rfl, List.not_mem_nil, .inl ⟨t, rfl⟩⟩
          · obtain ⟨front, rest, rfl, hfree, hrest⟩ := ih
            exact ⟨b :: front, rest, rfl,
              List.not_mem_cons_of_ne_of_not_mem (Ne.symm hb) hfree, hrest⟩

theorem line (n : Nat) : Reads n line (fun b l => b = l ++ crlf ∧ 10 ∉ l) := by
  intro t _ l t'
  unfold Tape.line
  constructor
  · intro h
    obtain ⟨front, rest, rfl, hfree, ⟨u, rfl⟩ | ⟨e, u, hstop⟩⟩ := feed_or_stop t
    · rw [lineAfter_append _ _ _ hfree, lineAfter_feed, ofExcept_ok_iff,
        withoutReturn_ok_iff, List.nil_append] at h
      obtain ⟨rfl, rfl⟩ := h
      refine ⟨l ++ crlf, ?_, rfl, fun hmem => hfree (List.mem_append_left _ hmem)⟩
      simp [crlf]
    · rw [lineAfter_append _ _ _ hfree, lineAfter_of_error _ hstop] at h
      cases h
  · rintro ⟨b, rfl, rfl, hfree⟩
    have hline : ofBytes (l ++ crlf) ++ t' = ofBytes (l ++ [13]) ++ (.byte 10 :: t') := by
      simp [crlf]
    have hreturn : 10 ∉ l ++ [13] := by
      rw [List.mem_append]
      rintro (hmem | hmem)
      · exact hfree hmem
      · exact absurd hmem (by decide)
    rw [hline, lineAfter_append _ _ _ hreturn, lineAfter_feed, ofExcept_ok_iff,
      withoutReturn_ok_iff]
    exact ⟨rfl, rfl⟩

theorem integerLine?_ok_iff {l : Bytes} {i : Int64} :
    (integerLine? l).mapError Error.protocol = .ok i ↔ Decimal.Numeral l i.toInt := by
  rw [← Decimal.readInteger?_eq_some_iff]
  unfold integerLine?
  cases Decimal.readInteger? l with
  | none =>
      constructor
      · intro h
        cases h
      · intro h
        cases h
  | some j =>
      constructor
      · intro h
        cases h
        rfl
      · intro h
        cases h
        rfl

theorem integer (n : Nat) :
    Reads n integer (fun b i => ∃ d, b = d ++ crlf ∧ Decimal.Numeral d i.toInt) := by
  refine ((line n).bind (Consumes.lineAfter []) fun l => ofExcept _ _).congr fun b i => ?_
  constructor
  · rintro ⟨front, l, back, rfl, ⟨rfl, _⟩, rfl, hi⟩
    exact ⟨l, List.append_nil _, integerLine?_ok_iff.mp hi⟩
  · rintro ⟨d, rfl, hd⟩
    exact ⟨d ++ crlf, d, [], (List.append_nil _).symm, ⟨rfl, hd.no_feed⟩, rfl,
      integerLine?_ok_iff.mpr hd⟩

theorem mark (n : Nat) (c : UInt8) : Reads n (mark c) (fun b _ => b = [c]) := by
  refine ((byte n).bind Consumes.byte fun a => ite (pure _ ()) (throw _ _)).congr fun b _ => ?_
  constructor
  · rintro ⟨front, a, back, rfl, rfl, ⟨rfl, rfl, _⟩ | ⟨_, h⟩⟩
    · rfl
    · exact h.elim
  · rintro rfl
    exact ⟨[c], c, [], rfl, rfl, .inl ⟨rfl, rfl, rfl⟩⟩

theorem times {n : Nat} {x : Scan α} {P : Bytes → α → Prop} (hx : Reads n x P)
    (hk : Consumes 0 x) (k : Nat) :
    Reads n (times x k)
      (fun b as => ∃ parts, b = parts.flatten ∧ as.length = k ∧ List.Forall₂ P parts as) := by
  induction k with
  | zero =>
      refine (pure n []).congr fun b as => ?_
      constructor
      · rintro ⟨rfl, rfl⟩
        exact ⟨[], rfl, rfl, .nil⟩
      · rintro ⟨parts, rfl, hlength, hparts⟩
        obtain rfl := List.eq_nil_of_length_eq_zero hlength
        cases hparts
        exact ⟨rfl, rfl⟩
  | succ k ih =>
      refine (hx.bind hk fun a => ih.map (Consumes.times hk k) (a :: ·)).congr fun b as => ?_
      constructor
      · rintro ⟨front, a, back, rfl, hP, rest, ⟨parts, rfl, rfl, hparts⟩, rfl⟩
        exact ⟨front :: parts, rfl, rfl, .cons hP hparts⟩
      · rintro ⟨parts, rfl, hlength, hparts⟩
        cases hparts with
        | nil => cases hlength
        | cons hP hparts =>
            exact ⟨_, _, _, rfl, hP, _, ⟨_, rfl, Nat.succ.inj hlength, hparts⟩, rfl⟩

/-- So many bytes are read as they are. -/
theorem bytes (n k : Nat) :
    Reads n (Tape.times Tape.byte k) (fun b bs => b = bs ∧ bs.length = k) := by
  refine (times (byte n) (Consumes.byte.weaken (by omega)) k).congr fun b bs => ?_
  constructor
  · rintro ⟨parts, rfl, hlength, hparts⟩
    refine ⟨?_, hlength⟩
    clear hlength
    induction hparts with
    | nil => rfl
    | cons hpart _ ih => rw [hpart, List.flatten_cons, ih, List.singleton_append]
  · rintro ⟨rfl, hlength⟩
    refine ⟨b.map ([·]), ?_, hlength, ?_⟩
    · exact (List.flatMap_singleton' b).symm
    · rw [List.forall₂_map_left_iff]
      exact List.forall₂_same.mpr fun c _ => rfl

theorem payload (n k : Nat) :
    Reads n (payload k) (fun b data => b = data ++ crlf ∧ data.length = k) := by
  have hk : Consumes 0 (Tape.times Tape.byte k) :=
    Consumes.times (Consumes.byte.weaken (by omega)) k
  refine ((bytes n k).bind hk fun data => (mark _ 13).bind (Consumes.mark 13) fun _ =>
    (mark _ 10).bind (Consumes.mark 10) fun _ => pure _ data).congr fun b data => ?_
  constructor
  · rintro ⟨_, _, _, rfl, ⟨rfl, rfl⟩, _, _, _, rfl, rfl, _, _, _, rfl, rfl, rfl, rfl⟩
    exact ⟨rfl, rfl⟩
  · rintro ⟨rfl, rfl⟩
    exact ⟨data, data, crlf, rfl, ⟨rfl, rfl⟩, [13], (), [10], rfl, rfl, [10], (), [], rfl, rfl, rfl,
      rfl⟩

/-- A length line and the contents after it. -/
theorem sized {n : Nat} (negative : Int64 → ParseError) {x : Nat → Scan Reply}
    {contents : Nat → Bytes → Reply → Prop} (hx : ∀ k, Reads (n - 1) (x k) (contents k)) :
    Reads n (Tape.sized negative x) (Sized contents) := by
  refine ((integer n).bind Consumes.integer fun i =>
    ite (pure _ _) (ite (throw _ _) (hx _))).congr fun b r => ?_
  have hnull (i : Int64) : i = -1 ↔ i.toInt = -1 := Int64.toInt_inj.symm
  have hneg (i : Int64) : i < 0 ↔ i.toInt < 0 := Int64.lt_iff_toInt_lt
  constructor
  · rintro ⟨_, i, back, rfl, ⟨d, rfl, hd⟩, ⟨hi, hback, hr⟩ | ⟨hi, ⟨_, h⟩ | ⟨hpos, h⟩⟩⟩
    · exact ⟨d, i, back, rfl, hd, .inl ⟨(hnull i).mp hi, hback, hr⟩⟩
    · exact h.elim
    · refine ⟨d, i, back, rfl, hd, .inr ⟨i.toInt.toNat, ?_, h⟩⟩
      rw [hneg] at hpos
      omega
  · rintro ⟨d, i, back, rfl, hd, ⟨hi, hback, hr⟩ | ⟨k, hk, h⟩⟩
    · exact ⟨_, i, back, rfl, ⟨d, rfl, hd⟩, .inl ⟨(hnull i).mpr hi, hback, hr⟩⟩
    · refine ⟨_, i, back, rfl, ⟨d, rfl, hd⟩, .inr ⟨?_, .inr ⟨?_, ?_⟩⟩⟩
      · rw [hnull]
        omega
      · rw [hneg]
        omega
      · rwa [hk, Int.toNat_natCast]

/-- The scanner for frames reads the frames that are shorter than its depth. -/
theorem frame (depth : Nat) {n : Nat} (hn : n ≤ depth) : Reads n (frame depth) Framed := by
  induction depth generalizing n with
  | zero =>
      obtain rfl : n = 0 := by omega
      exact zero _ _
  | succ depth ih =>
      have hline : Consumes 0 Tape.line := (Consumes.lineAfter []).weaken (by omega)
      have hinteger : Consumes 0 Tape.integer := Consumes.integer.weaken (by omega)
      have hitem : Consumes 0 (Tape.frame depth) := (Consumes.frame depth).weaken (by omega)
      -- a frame in an array comes after a type mark and a length line: two bytes at least
      have hframe : Reads (n - 1 - 1) (Tape.frame depth) Framed := ih (by omega)
      unfold Tape.frame
      refine ((byte n).bind (Q := fun c b r => Framed (c :: b) r) Consumes.byte fun c => ?_).congr
        fun b r => ?_
      · split
        · exact ((line _).map hline _).congr fun b r => Framed.status_iff.symm
        · exact ((line _).map hline _).congr fun b r => Framed.error_iff.symm
        · exact ((integer _).map hinteger _).congr fun b r => Framed.integer_iff.symm
        · refine (sized _ fun k => ?_).congr fun b r => Framed.bulk_iff.symm
          exact (payload _ k).map (Consumes.payload k) _
        · refine (sized _ fun k => ?_).congr fun b r => Framed.array_iff.symm
          exact (times hframe hitem k).map (Consumes.times hitem k) _
        · rename_i hstatus herror hinteger hbulk harray
          refine (throw _ _).congr fun b r => ⟨False.elim, fun h => ?_⟩
          obtain h | h | h | h | h := h.mark
          · exact hstatus h
          · exact herror h
          · exact hinteger h
          · exact hbulk h
          · exact harray h
      · constructor
        · rintro ⟨front, c, back, rfl, rfl, h⟩
          exact h
        · intro h
          obtain ⟨c, back, rfl⟩ := h.exists_cons
          exact ⟨[c], c, back, rfl, rfl, h⟩

end Reads

/-! ## Replies -/

/-- Before a byte, the next reply is the frame that it starts. -/
theorem reply?_of_byte (b : UInt8) (t t' : Tape) (r : Reply) :
    reply? (.byte b :: t) = .ok (some r) t'
      ↔ frame ((bytes (.byte b :: t)).length + 1) (.byte b :: t) = .ok r t' := by
  show EStateM.bind (frame _) _ (.byte b :: t) = .ok (some r) t' ↔ _
  rw [EStateM.bind]
  cases frame ((bytes (.byte b :: t)).length + 1) (.byte b :: t) with
  | ok reply u =>
      constructor
      · intro h
        cases h
        rfl
      · intro h
        cases h
        rfl
  | error e u =>
      constructor
      · intro h
        cases h
      · intro h
        cases h

/-- Before a byte, what goes wrong with the frame that it starts goes wrong with the next reply. -/
theorem reply?_of_byte_error {b : UInt8} {t t' : Tape} {e : Error}
    (h : frame ((bytes (.byte b :: t)).length + 1) (.byte b :: t) = .error e t') :
    reply? (.byte b :: t) = .error e t' := by
  show EStateM.bind (frame _) _ (.byte b :: t) = .error e t'
  rw [EStateM.bind, h]

/-- The next reply is the one whose frame comes next. -/
theorem reply?_eq_some_iff {t t' : Tape} {r : Reply} :
    reply? t = .ok (some r) t' ↔ ∃ b, t = ofBytes b ++ t' ∧ Framed b r := by
  have hframe : ∀ b u, reply? (.byte b :: u) = .ok (some r) t'
      ↔ ∃ front, Symbol.byte b :: u = ofBytes front ++ t' ∧ Framed front r := fun b u => by
    rw [reply?_of_byte]
    exact Reads.frame _ (Nat.le_refl _) _ (Nat.lt_succ_self _) r t'
  have hstop (ht : ∀ b u, t ≠ .byte b :: u) : ¬ ∃ b, t = ofBytes b ++ t' ∧ Framed b r := by
    rintro ⟨b, hb, h⟩
    obtain ⟨c, back, rfl⟩ := h.exists_cons
    exact ht c _ hb
  match t with
  | .byte b :: u => exact hframe b u
  | .eof :: u => exact iff_of_false (fun h => by cases h) (hstop fun b u h => by cases h)
  | .failure e :: u => exact iff_of_false (fun h => by cases h) (hstop fun b u h => by cases h)
  | [] => exact iff_of_false (fun h => by cases h) (hstop fun b u h => by cases h)

/-- There is no next reply where the stream ends before one starts. -/
theorem reply?_ofBytes_eq_none_iff {s : Bytes} {t' : Tape} :
    reply? (ofBytes s) = .ok none t' ↔ s = [] ∧ t' = [] := by
  cases s with
  | nil =>
      constructor
      · intro h
        cases h
        exact ⟨rfl, rfl⟩
      · rintro ⟨_, rfl⟩
        rfl
  | cons b s =>
      refine iff_of_false (fun h => ?_) (fun h => by cases h.1)
      have hbind : EStateM.bind (frame _) _ (.byte b :: ofBytes s) = .ok none t' := h
      rw [EStateM.bind] at hbind
      cases hframe : frame ((bytes (ofBytes (b :: s))).length + 1) (.byte b :: ofBytes s) with
      | ok reply u =>
          rw [hframe] at hbind
          cases hbind
      | error e u =>
          rw [hframe] at hbind
          cases hbind

/-- A tape starts with one frame at most. -/
theorem framed_unique {b₁ b₂ : Bytes} {r₁ r₂ : Reply} {t₁ t₂ : Tape} (h₁ : Framed b₁ r₁)
    (h₂ : Framed b₂ r₂) (ht : ofBytes b₁ ++ t₁ = ofBytes b₂ ++ t₂) : b₁ = b₂ ∧ r₁ = r₂ := by
  have hfirst : reply? (ofBytes b₁ ++ t₁) = .ok (some r₁) t₁ := reply?_eq_some_iff.mpr ⟨b₁, rfl, h₁⟩
  have hsecond : reply? (ofBytes b₁ ++ t₁) = .ok (some r₂) t₂ := reply?_eq_some_iff.mpr ⟨b₂, ht, h₂⟩
  obtain ⟨hreply, rfl⟩ := EStateM.Result.ok.inj (hfirst.symm.trans hsecond)
  exact ⟨ofBytes_injective (List.append_cancel_right ht), Option.some.inj hreply⟩

end Tape

namespace Reader

/-- A source that brings these chunks, one after the other, and then ends. -/
def ofChunks (chunks : List Bytes) (capacity : Nat) : Reader :=
  { source := chunks.map .bytes, capacity }

theorem ofChunks_tape (chunks : List Bytes) (capacity : Nat) :
    (ofChunks chunks capacity).tape = Tape.ofBytes chunks.flatten := by
  show Tape.ofSource (chunks.map .bytes) = _
  induction chunks with
  | nil => rfl
  | cons chunk chunks ih =>
      rw [List.map_cons, Tape.ofSource_cons, ih, List.flatten_cons, Tape.ofBytes_append]
      rfl

/-- Reading a byte string, in whatever chunks it comes. The next reply is the one of which a front
of the bytes is a frame, and the bytes after this frame are left; no other front is a frame. There
is no next reply just if there are no bytes. In every other case there is an error. -/
theorem reply_grammar (chunks : List Bytes) (capacity : Nat) :
    (∀ reply rest,
        (∃ r, reply? (ofChunks chunks capacity) = .ok (some reply) r ∧ r.leftover = rest)
          ↔ ∃ b, chunks.flatten = b ++ rest ∧ Framed b reply)
      ∧ (∀ b₁ b₂ reply₁ reply₂, b₁ <+: chunks.flatten → b₂ <+: chunks.flatten →
        Framed b₁ reply₁ → Framed b₂ reply₂ → b₁ = b₂ ∧ reply₁ = reply₂)
      ∧ ((∃ r, reply? (ofChunks chunks capacity) = .ok none r) ↔ chunks.flatten = [])
      ∧ ((∃ e r, reply? (ofChunks chunks capacity) = .error e r)
        ↔ chunks.flatten ≠ [] ∧ ¬ ∃ b reply, b <+: chunks.flatten ∧ Framed b reply) := by
  have htape := reply?_tape (ofChunks chunks capacity)
  rw [ofChunks_tape] at htape
  have hreply : ∀ reply rest,
      (∃ r, reply? (ofChunks chunks capacity) = .ok (some reply) r ∧ r.leftover = rest)
        ↔ ∃ b, chunks.flatten = b ++ rest ∧ Framed b reply := by
    intro reply rest
    constructor
    · rintro ⟨r, hr, rfl⟩
      rw [hr] at htape
      obtain ⟨b, hb, h⟩ := Tape.reply?_eq_some_iff.mp htape.symm
      have hbytes := congrArg Tape.bytes hb
      rw [Tape.bytes_append, Tape.bytes_ofBytes, Tape.bytes_ofBytes, ← leftover_eq] at hbytes
      exact ⟨b, hbytes, h⟩
    · rintro ⟨b, hb, h⟩
      have hfront : Tape.ofBytes chunks.flatten = Tape.ofBytes b ++ Tape.ofBytes rest := by
        rw [hb, Tape.ofBytes_append]
      have hsome := htape.trans (Tape.reply?_eq_some_iff.mpr ⟨b, hfront, h⟩)
      obtain ⟨r, hr, ht⟩ := onTape_eq_ok_iff.mp hsome
      exact ⟨r, hr, by rw [leftover_eq, ht, Tape.bytes_ofBytes]⟩
  have hnone : (∃ r, reply? (ofChunks chunks capacity) = .ok none r) ↔ chunks.flatten = [] := by
    constructor
    · rintro ⟨r, hr⟩
      rw [hr] at htape
      exact (Tape.reply?_ofBytes_eq_none_iff.mp htape.symm).1
    · intro hempty
      have hended := htape.trans (Tape.reply?_ofBytes_eq_none_iff.mpr ⟨hempty, rfl⟩)
      obtain ⟨r, hr, _⟩ := onTape_eq_ok_iff.mp hended
      exact ⟨r, hr⟩
  refine ⟨hreply, ?_, hnone, ?_, ?_⟩
  · rintro b₁ b₂ reply₁ reply₂ ⟨rest₁, h₁⟩ ⟨rest₂, h₂⟩ hframe₁ hframe₂
    have hsame : Tape.ofBytes b₁ ++ Tape.ofBytes rest₁ = Tape.ofBytes b₂ ++ Tape.ofBytes rest₂ := by
      rw [← Tape.ofBytes_append, ← Tape.ofBytes_append, h₁, h₂]
    exact Tape.framed_unique hframe₁ hframe₂ hsame
  · -- an error is none of the other outcomes
    rintro ⟨e, r, hr⟩
    constructor
    · intro hempty
      obtain ⟨r', hr'⟩ := hnone.mpr hempty
      rw [hr] at hr'
      cases hr'
    · rintro ⟨b, reply, ⟨rest, hb⟩, h⟩
      obtain ⟨r', hr', _⟩ := (hreply reply rest).mpr ⟨b, hb.symm, h⟩
      rw [hr] at hr'
      cases hr'
  · rintro ⟨hne, hnot⟩
    cases hr : reply? (ofChunks chunks capacity) with
    | error e r => exact ⟨e, r, rfl⟩
    | ok reply r =>
        cases reply with
        | none => exact absurd (hnone.mp ⟨r, hr⟩) hne
        | some reply =>
            obtain ⟨b, hb, h⟩ := (hreply reply r.leftover).mp ⟨r, hr, rfl⟩
            exact absurd ⟨b, reply, ⟨_, hb.symm⟩, h⟩ hnot

/-- An array that comes in three chunks, with the start of another frame after it. -/
theorem reply_grammar_array :
    ∃ r, reply? (ofChunks [[42, 50, 13], [10, 36, 45, 49, 13, 10, 36, 50, 13, 10, 13, 10],
        [13, 10, 43]] 3) = .ok (some (.multi [.bulk none, .bulk (some [13, 10])])) r
      ∧ r.leftover = [43] := by
  have htwo : Decimal.Numeral [50] (2 : Int64).toInt :=
    Decimal.readInteger?_eq_some_iff.mp (by decide)
  have hone : Decimal.Numeral [45, 49] (-1 : Int64).toInt :=
    Decimal.readInteger?_eq_some_iff.mp (by decide)
  have hnull : Framed (36 :: ([45, 49] ++ crlf)) (.bulk none) := .nullBulk hone
  have hdata : Framed (36 :: ([50] ++ crlf ++ ([13, 10] ++ crlf))) (.bulk (some [13, 10])) :=
    .bulk htwo rfl
  have harray : Framed (42 :: ([50] ++ crlf ++ List.flatten [_, _])) (.multi [_, _]) :=
    .array htwo rfl (.cons hnull (.cons hdata .nil))
  exact ((reply_grammar _ _).1 _ _).mpr ⟨_, rfl, harray⟩

end Reader

end RespMux
