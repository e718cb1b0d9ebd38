import RespMux.Proofs.Reading.Grammar

/-!
# Frames that are cut short

No frame is the start of another one, and a reader never takes a part of a frame for a whole one:
where the stream ends inside a frame, this is what it reports. A scanner is whole if what it takes
is settled by these bytes alone, and every part of them is too little. The scanners are put together
from `byte`, which is whole, in ways that keep this.
-/

set_option autoImplicit false

namespace RespMux

variable {α β : Type}

namespace Tape

/-- The stream has ended: an end mark comes next, or nothing does. -/
inductive Ended : Tape → Prop where
  | mark (t : Tape) : Ended (.eof :: t)
  | spent : Ended []

namespace Ended

variable {t : Tape}

theorem ready (h : Ended t) : Tape.ready t = .ok false t.tail := by
  cases h with
  | mark | spent => rfl

theorem byte (h : Ended t) : Tape.byte t = .error (.protocol .unexpectedEnd) t.tail :=
  byte_of_ended h.ready

end Ended

/-! ## Taking all or nothing -/

/-- The scanner takes these bytes, whatever comes after them, and if the stream ends after a part of
them it says that this is too early. -/
structure Takes (x : Scan α) (front : Bytes) (a : α) : Prop where
  all : ∀ t, x (ofBytes front ++ t) = .ok a t
  part : ∀ {p more : Bytes} {t : Tape}, front = p ++ more → more ≠ [] → Ended t →
    x (ofBytes p ++ t) = .error (.protocol .unexpectedEnd) t.tail

/-- Whenever the scanner succeeds, it takes bytes in this way. -/
def Whole (x : Scan α) : Prop :=
  ∀ t a t', x t = .ok a t' → ∃ front, t = ofBytes front ++ t' ∧ Takes x front a

namespace Takes

theorem pure (a : α) : Takes (Pure.pure a) [] a where
  all _ := rfl
  part hfront hmore _ := absurd (List.append_eq_nil_iff.mp hfront.symm).2 hmore

theorem byte (c : UInt8) : Takes byte [c] c where
  all _ := rfl
  part hfront hmore ht := by
    -- a part of one byte is nothing
    obtain ⟨rfl, -⟩ | ⟨-, rfl⟩ := List.singleton_eq_append_iff.mp hfront
    · exact ht.byte
    · exact absurd rfl hmore

/-- One thing after the other: the stream ends in the first one, or in the second one. -/
theorem bind {x : Scan α} {f : α → Scan β} {front back : Bytes} {a : α} {c : β}
    (hx : Takes x front a) (hf : Takes (f a) back c) : Takes (x >>= f) (front ++ back) c := by
  have hrest (u : Tape) : (x >>= f) (ofBytes front ++ u) = f a u := by
    show EStateM.bind x f _ = _
    rw [EStateM.bind, hx.all]
  constructor
  · intro t
    rw [ofBytes_append, List.append_assoc, hrest, hf.all]
  · intro p more t hfront hmore ht
    obtain ⟨part, rfl, rfl⟩ | ⟨part, rfl, rfl⟩ := List.append_eq_append_iff.mp hfront
    · rw [ofBytes_append, List.append_assoc, hrest]
      exact hf.part rfl hmore ht
    · cases part with
      | nil =>
          rw [List.append_nil] at hrest
          rw [hrest]
          exact hf.part (p := []) rfl hmore ht
      | cons c part =>
          show EStateM.bind x f _ = _
          rw [EStateM.bind, hx.part rfl (List.cons_ne_nil c part) ht]

end Takes

namespace Whole

theorem pure (a : α) : Whole (Pure.pure a) := by
  intro t c t' h
  cases h
  exact ⟨[], rfl, Takes.pure a⟩

theorem throw (e : Error) : Whole (MonadExcept.throw e : Scan α) := by
  intro t c t' h
  cases h

theorem ofExcept (x : Except Error α) : Whole (MonadExcept.ofExcept x) := by
  cases x with
  | ok a => exact pure a
  | error e => exact throw e

theorem bind {x : Scan α} {f : α → Scan β} (hx : Whole x) (hf : ∀ a, Whole (f a)) :
    Whole (x >>= f) := by
  intro t c t' h
  replace h : EStateM.bind x f t = .ok c t' := h
  rw [EStateM.bind] at h
  cases hxt : x t with
  | error e u =>
      rw [hxt] at h
      cases h
  | ok a u =>
      rw [hxt] at h
      obtain ⟨front, rfl, hfront⟩ := hx t a u hxt
      obtain ⟨back, rfl, hback⟩ := hf a u c t' h
      refine ⟨front ++ back, ?_, hfront.bind hback⟩
      rw [ofBytes_append, List.append_assoc]

theorem ite {c : Prop} [Decidable c] {x y : Scan α} (hx : Whole x) (hy : Whole y) :
    Whole (if c then x else y) := by
  split
  · exact hx
  · exact hy

/-! ## The scanners -/

theorem byte : Whole byte := by
  intro t c t' h
  match t, h with
  | .byte c :: t, h =>
      cases h
      exact ⟨[c], rfl, Takes.byte c⟩

theorem lineAfter (before : Bytes) : Whole (lineAfter before) := by
  intro t
  induction t generalizing before with
  | nil =>
      intro l t' h
      cases h
  | cons symbol t ih =>
      intro l t' h
      cases symbol with
      | eof => cases h
      | failure e => cases h
      | byte b =>
          rw [lineAfter_eq] at h ⊢
          -- the line ends with this byte, or it goes on after it
          obtain ⟨back, rfl, hback⟩ : ∃ back, t = ofBytes back ++ t'
              ∧ Takes (if b = 10 then MonadExcept.ofExcept (Reader.withoutReturn before)
                else Tape.lineAfter (before ++ [b])) back l := by
            by_cases hb : b = 10
            · subst hb
              exact ofExcept _ t l t' h
            · replace h : (if b = 10 then _ else _ : Scan Bytes) t = .ok l t' := h
              rw [if_neg hb] at h ⊢
              exact ih (before ++ [b]) l t' h
          exact ⟨b :: back, rfl, (Takes.byte b).bind hback⟩

theorem integer : Whole integer := (lineAfter []).bind fun _ => ofExcept _

theorem mark (b : UInt8) : Whole (mark b) :=
  byte.bind fun _ => ite (pure ()) (throw _)

theorem times {x : Scan α} (hx : Whole x) (n : Nat) : Whole (times x n) := by
  induction n with
  | zero => exact pure []
  | succ n ih => exact hx.bind fun a => ih.bind fun rest => pure (a :: rest)

theorem payload (n : Nat) : Whole (payload n) :=
  (byte.times n).bind fun data => (mark 13).bind fun _ => (mark 10).bind fun _ => pure data

theorem sized (negative : Int64 → ParseError) {contents : Nat → Scan Reply}
    (h : ∀ n, Whole (contents n)) : Whole (sized negative contents) :=
  integer.bind fun _ => ite (pure _) (ite (throw _) (h _))

theorem frame (depth : Nat) : Whole (frame depth) := by
  induction depth with
  | zero => exact throw _
  | succ depth ih =>
      unfold Tape.frame
      refine byte.bind fun c => ?_
      split
      · exact (lineAfter []).bind fun l => pure _
      · exact (lineAfter []).bind fun l => pure _
      · exact integer.bind fun n => pure _
      · exact sized _ fun n => (payload n).bind fun data => pure _
      · exact sized _ fun n => (ih.times n).bind fun items => pure _
      · exact throw _

end Whole

/-! ## Frames -/

/-- A scanner that is deep enough takes a frame. -/
theorem frame_takes {b : Bytes} {reply : Reply} {depth : Nat} (h : Framed b reply)
    (hdepth : b.length < depth) : Takes (frame depth) b reply := by
  have hread : frame depth (ofBytes b) = .ok reply [] := by
    refine (Reads.frame depth (Nat.le_refl _) _ ?_ reply []).mpr ⟨b, ?_, h⟩
    · rwa [bytes_ofBytes]
    · rw [List.append_nil]
  obtain ⟨front, hfront, htakes⟩ := Whole.frame depth _ _ _ hread
  rw [List.append_nil] at hfront
  rwa [ofBytes_injective hfront]

theorem Ended.reply? {t : Tape} (h : Ended t) : Tape.reply? t = .ok none t.tail := by
  cases h with
  | mark | spent => rfl

end Tape

namespace Reader

/-- More depth than there are bytes makes no difference. -/
theorem frame_depth {r : Reader} {m n : Nat} (hm : r.remaining < m) (hn : r.remaining < n) :
    Tape.frame m r.tape = Tape.frame n r.tape := by
  have hless : r.remaining < r.remaining + 1 := Nat.lt_succ_self _
  rw [← frame_mirrors (Nat.le_refl _) hm r hless, ← frame_mirrors (Nat.le_refl _) hn r hless]

/-- A part of a frame, and then the end of the stream. Nothing of the frame gives no reply, all of
it gives its reply, and anything between gives the error that the stream has ended too early. How
the bytes come in chunks does not matter, and what the buffer can hold does not, either. -/
theorem reply_truncated {b p : Bytes} {reply : Reply} {r : Reader} {rest : Tape}
    (hframe : Framed b reply) (hp : p <+: b) (hrest : rest.Ended)
    (htape : r.tape = Tape.ofBytes p ++ rest) :
    (p = [] → ∃ r', reply? r = .ok none r' ∧ r'.tape = rest.tail)
      ∧ (p ≠ [] → p ≠ b →
        ∃ r', reply? r = .error (.protocol .unexpectedEnd) r' ∧ r'.tape = rest.tail)
      ∧ (p = b → ∃ r', reply? r = .ok (some reply) r' ∧ r'.tape = rest) := by
  have hreply := reply?_tape r
  have hlength : r.remaining = p.length + rest.bytes.length := by
    rw [remaining_eq, htape, Tape.bytes_append, Tape.bytes_ofBytes, List.length_append]
  refine ⟨?_, ?_, ?_⟩
  · rintro rfl
    have hnone : onTape (reply? r) = .ok none rest.tail := by
      rw [hreply, htape]
      exact hrest.reply?
    exact onTape_eq_ok_iff.mp hnone
  · intro hne hpart
    obtain ⟨more, rfl⟩ := hp
    have hmore : more ≠ [] := by
      rintro rfl
      exact hpart (List.append_nil p).symm
    -- the scanner is as deep as the whole frame needs
    have hless : r.remaining < p.length + rest.bytes.length + more.length + 1 := by omega
    have hdeep : (p ++ more).length < p.length + rest.bytes.length + more.length + 1 := by
      rw [List.length_append]
      omega
    have hcut : Tape.frame (r.remaining + 1) r.tape
        = .error (.protocol .unexpectedEnd) rest.tail := by
      rw [frame_depth (Nat.lt_succ_self _) hless, htape]
      exact (Tape.frame_takes hframe hdeep).part rfl hmore hrest
    obtain ⟨c, front, rfl⟩ := List.exists_cons_of_ne_nil hne
    rw [remaining_eq, htape] at hcut
    have herror : onTape (reply? r) = .error (.protocol .unexpectedEnd) rest.tail := by
      rw [hreply, htape]
      exact Tape.reply?_of_byte_error hcut
    exact onTape_eq_error_iff.mp herror
  · rintro rfl
    have hsome : onTape (reply? r) = .ok (some reply) rest := by
      rw [hreply, htape]
      exact Tape.reply?_eq_some_iff.mpr ⟨p, rfl, hframe⟩
    exact onTape_eq_ok_iff.mp hsome

/-- An array in an array is cut in the line end of a bulk string that holds a line end itself; after
the end of the stream another frame comes. -/
theorem reply_truncated_array :
    ∃ r, reply? { source := [.bytes [42, 49, 13], .interrupt, .bytes [10, 42, 50, 13, 10, 58, 55, 13,
        10, 36, 50], .bytes [13, 10, 13, 10, 13], .eof, .bytes [43, 13, 10]], capacity := 3 }
        = .error (.protocol .unexpectedEnd) r
      ∧ r.tape = Tape.ofBytes [43, 13, 10] := by
  have hone : Decimal.Numeral [49] (1 : Int64).toInt :=
    Decimal.readInteger?_eq_some_iff.mp (by decide)
  have htwo : Decimal.Numeral [50] (2 : Int64).toInt :=
    Decimal.readInteger?_eq_some_iff.mp (by decide)
  have hseven : Decimal.Numeral [55] (7 : Int64).toInt :=
    Decimal.readInteger?_eq_some_iff.mp (by decide)
  have hdata : Framed (36 :: ([50] ++ crlf ++ ([13, 10] ++ crlf))) (.bulk (some [13, 10])) :=
    .bulk htwo rfl
  have hinner : Framed (42 :: ([50] ++ crlf ++ List.flatten [_, _])) (.multi [_, _]) :=
    .array htwo rfl (.cons (.integer hseven) (.cons hdata .nil))
  have houter : Framed (42 :: ([49] ++ crlf ++ List.flatten [_])) (.multi [_]) :=
    .array hone rfl (.cons hinner .nil)
  have hpart : [42, 49, 13, 10, 42, 50, 13, 10, 58, 55, 13, 10, 36, 50, 13, 10, 13, 10, 13]
      <+: 42 :: ([49] ++ crlf ++ List.flatten [42 :: ([50] ++ crlf ++ List.flatten
        [58 :: ([55] ++ crlf), 36 :: ([50] ++ crlf ++ ([13, 10] ++ crlf))])]) := ⟨[10], rfl⟩
  exact (reply_truncated houter hpart (.mark _) rfl).2.1 (List.cons_ne_nil _ _) (by decide)

end Reader

end RespMux
