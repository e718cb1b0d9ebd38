import RespMux.Proofs.Correlation
import RespMux.Proofs.Decimal.Bounded
import RespMux.Proofs.Reading.Grammar

/-!
# Commands read back

Every argument is written as one bulk string, by whichever path, and a command as an array of bulk
strings. So what is written for a message is a frame of the grammar of replies, and what is written
for several of them is read back as one array for each. Since a byte string starts with one frame at
most, no message is written as a front of another one.
-/

set_option autoImplicit false

namespace RespMux

/-! ## Arguments -/

namespace Argument

/-- The contents of an argument: the bytes of a blob, and the text of anything else. -/
def bytes : Argument → Bytes
  | blob data => data
  | a => Bytes.ofText a.display

/-- Everything in memory is shorter than `2 ^ 63` bytes. A number or a word is always short. -/
def Fits : Argument → Prop
  | text s => (Bytes.ofText s).length < 2 ^ 63
  | blob data => data.length < 2 ^ 63
  | _ => True

instance (a : Argument) : Decidable a.Fits :=
  match a with
  | text _ | blob _ => inferInstanceAs (Decidable (_ < _))
  | literal _ | integer _ | double _ | exclusive _ => isTrue trivial

end Argument

namespace Wire

theorem bulk_one (b : UInt8) : bulk [b] = [36, 49, 13, 10, b, 13, 10] := by
  have hlength : Decimal.natBytes 1 = [49] := by decide
  show 36 :: Decimal.natBytes 1 ++ crlf ++ [b] ++ crlf = _
  rw [hlength]
  rfl

theorem bulk_two (b c : UInt8) : bulk [b, c] = [36, 50, 13, 10, b, c, 13, 10] := by
  have hlength : Decimal.natBytes 2 = [50] := by decide
  show 36 :: Decimal.natBytes 2 ++ crlf ++ [b, c] ++ crlf = _
  rw [hlength]
  rfl

/-- Up to 99 the bytes are the same as on the general path. -/
theorem integer_eq (n : Int64) : integer n = bulk (Decimal.intBytes n.toInt) := by
  unfold integer
  by_cases hneg : n.toInt < 0
  · rw [if_neg (by omega), if_neg (by omega)]
  · obtain ⟨k, hk⟩ := Int.eq_ofNat_of_zero_le (Int.not_lt.mp hneg)
    have hbytes : Decimal.intBytes (k : Int) = Decimal.natBytes k := by
      rw [Decimal.intBytes, if_neg (by omega), Int.natAbs_natCast]
    rw [hk, Int.toNat_natCast, hbytes]
    split
    · rw [Decimal.natBytes_of_lt (by omega), bulk_one]
      rfl
    · split
      · rw [Decimal.natBytes_of_lt_hundred (by omega) (by omega), bulk_two]
        rfl
      · rfl

theorem double_eq (x : Double) : double x = bulk (Bytes.ofText (Decimal.doubleText x)) := by
  unfold double Decimal.doubleText
  cases h : Decimal.shortWhole? x with
  | none => rfl
  | some n =>
      have hrange := Decimal.shortWhole?_range h
      have hn : (Int64.ofInt n).toInt = n := Int64.toInt_ofInt_of_le (by omega) (by omega)
      show integer (Int64.ofInt n) = bulk (Bytes.ofText (Decimal.intText n))
      rw [integer_eq, hn, Decimal.ofText_intText]

end Wire

namespace Argument

/-- Every argument is written as one bulk string of its contents. -/
theorem encode_eq (a : Argument) : a.encode = Wire.bulk a.bytes := by
  cases a with
  | literal l => rfl
  | text s => rfl
  | blob data => rfl
  | integer n =>
      show Wire.integer n = Wire.bulk (Bytes.ofText (Decimal.intText n.toInt))
      rw [Wire.integer_eq, Decimal.ofText_intText]
  | double x => exact Wire.double_eq x
  | exclusive x => rfl

end Argument

/-! ## Frames -/

theorem Wire.framed_bulk {data : Bytes} (h : data.length < 2 ^ 63) :
    Framed (Wire.bulk data) (.bulk (some data)) := by
  have hlength : (Int64.ofNat data.length).toInt = data.length := Int64.toInt_ofNat_of_lt h
  have hnumeral : Decimal.Numeral (Decimal.natBytes data.length) (Int64.ofNat data.length).toInt :=
    hlength ▸ Decimal.numeral_natBytes data.length
  have hbulk : Wire.bulk data
      = 36 :: (Decimal.natBytes data.length ++ crlf ++ (data ++ crlf)) := by
    simp [Wire.bulk]
  rw [hbulk]
  exact .bulk hnumeral hlength

namespace Argument

theorem bytes_length {a : Argument} (h : a.Fits) : a.bytes.length < 2 ^ 63 := by
  have hdouble (x : Double) : (Bytes.ofText (Decimal.doubleText x)).length ≤ 4 * 5001 :=
    Nat.le_trans (Decimal.ofText_length_le _)
      (Nat.mul_le_mul_left 4 (Decimal.doubleText_length_le x))
  cases a with
  | literal l =>
      have hwords : ∀ l ∈ Literal.all, l.bytes.length ≤ 13 := by decide +kernel
      exact Nat.lt_of_le_of_lt (hwords l l.mem_all) (by omega)
  | text s => exact h
  | blob data => exact h
  | integer n =>
      have hn : n.toInt.natAbs < 10 ^ 19 := by
        have hlow := n.minValue_le_toInt
        have hhigh := n.toInt_le
        have hmin : Int64.minValue.toInt = -9223372036854775808 := by decide
        have hmax : Int64.maxValue.toInt = 9223372036854775807 := by decide
        omega
      have htext := Decimal.intText_length_le (k := 19) (by decide) hn
      have hbytes := Decimal.ofText_length_le (Decimal.intText n.toInt)
      show (Bytes.ofText (Decimal.intText n.toInt)).length < 2 ^ 63
      omega
  | double x =>
      have hbytes := hdouble x
      show (Bytes.ofText (Decimal.doubleText x)).length < 2 ^ 63
      omega
  | exclusive x =>
      have hbytes := hdouble x
      have hopen : (Bytes.ofText "(").length = 1 := rfl
      show (Bytes.ofText ("(" ++ Decimal.doubleText x)).length < 2 ^ 63
      rw [Bytes.ofText_append, List.length_append]
      omega

end Argument

/-- The frame holds nothing that is too large for memory. -/
structure Frame.Fits (f : Frame) : Prop where
  count : f.args.length + 1 < 2 ^ 63
  args : ∀ a ∈ f.args, a.Fits

instance (f : Frame) : Decidable f.Fits :=
  decidable_of_iff (f.args.length + 1 < 2 ^ 63 ∧ ∀ a ∈ f.args, a.Fits)
    ⟨fun h => ⟨h.1, h.2⟩, fun h => ⟨h.count, h.args⟩⟩

/-- What a reader makes of a frame. -/
def Frame.reply (f : Frame) : Reply :=
  .multi (.bulk (some f.command.bytes) :: f.args.map fun a => .bulk (some a.bytes))

theorem Frame.framed {f : Frame} (h : f.Fits) : Framed f.encode f.reply := by
  have hcount : (Int64.ofNat (f.args.length + 1)).toInt = (f.args.length + 1 : Nat) :=
    Int64.toInt_ofNat_of_lt h.count
  have hcommand : Framed (Wire.bulk f.command.bytes) (.bulk (some f.command.bytes)) :=
    Wire.framed_bulk (Argument.bytes_length (a := .literal f.command) trivial)
  have hargs : List.Forall₂ Framed (f.args.map Argument.encode)
      (f.args.map fun a => .bulk (some a.bytes)) := by
    rw [List.forall₂_map_left_iff, List.forall₂_map_right_iff]
    refine List.forall₂_same.mpr fun a ha => ?_
    rw [Argument.encode_eq]
    exact Wire.framed_bulk (Argument.bytes_length (h.args a ha))
  have hencode : f.encode = 42 :: (Decimal.intBytes (Int64.ofNat (f.args.length + 1)).toInt ++ crlf
      ++ (Wire.bulk f.command.bytes :: f.args.map Argument.encode).flatten) := by
    rw [Frame.encode, Wire.header, List.flatten_cons, List.flatMap_def]
    simp only [List.cons_append, List.append_assoc]
  rw [hencode]
  refine .array (Decimal.numeral_intBytes _) ?_ (.cons hcommand hargs)
  rw [hcount, List.length_cons, List.length_map]

/-! ## Reading all -/

theorem Tape.next_frame {b : Bytes} {reply : Reply} (h : Framed b reply) (t : Tape) :
    (ofBytes b ++ t).next = (.reply reply, t) := by
  have hreply : reply? (ofBytes b ++ t) = .ok (some reply) t := reply?_eq_some_iff.mpr ⟨b, rfl, h⟩
  rw [next, hreply]

namespace Reader

/-- Frames one after the other are read as their replies, and then the stream has ended. -/
theorem untilEnd_frames {frames : List Bytes} {replies : List Reply}
    (h : List.Forall₂ Framed frames replies) {steps : Nat} (outcomes : List Outcome) {r : Reader}
    (hsteps : r.remaining < steps) (hr : r.tape = Tape.ofBytes frames.flatten) :
    (untilEnd steps outcomes r).1 = outcomes.reverse ++ replies.map .reply ++ [.ended] := by
  induction h generalizing steps outcomes r with
  | nil =>
      obtain ⟨steps, rfl⟩ := Nat.exists_eq_add_one_of_ne_zero (Nat.ne_zero_of_lt hsteps)
      obtain ⟨houtcome, _⟩ := next_tape hsteps
      rw [hr] at houtcome
      rw [untilEnd]
      generalize r.next (steps + 1) = after at houtcome ⊢
      obtain ⟨outcome, r'⟩ := after
      obtain rfl : outcome = .ended := houtcome
      simp
  | @cons b reply frames replies hframe hrest ih =>
      obtain ⟨steps, rfl⟩ := Nat.exists_eq_add_one_of_ne_zero (Nat.ne_zero_of_lt hsteps)
      obtain ⟨houtcome, htape⟩ := next_tape hsteps
      rw [hr, List.flatten_cons, Tape.ofBytes_append, Tape.next_frame hframe] at houtcome htape
      -- the frame takes a byte, so a step less is enough for the others
      have hleft : (r.next (steps + 1)).2.remaining < steps := by
        obtain ⟨c, back, rfl⟩ := hframe.exists_cons
        rw [remaining_eq, hr, Tape.bytes_ofBytes, List.flatten_cons, List.length_append,
          List.length_cons] at hsteps
        rw [remaining_eq, htape, Tape.bytes_ofBytes]
        omega
      rw [untilEnd]
      generalize r.next (steps + 1) = after at houtcome htape hleft ⊢
      obtain ⟨outcome, r'⟩ := after
      obtain rfl : outcome = .reply reply := houtcome
      rw [ih (.reply reply :: outcomes) hleft htape]
      simp

theorem all_frames {frames : List Bytes} {replies : List Reply}
    (h : List.Forall₂ Framed frames replies) {chunks : List Bytes}
    (hchunks : chunks.flatten = frames.flatten) (capacity : Nat) :
    (all (ofChunks chunks capacity)).1 = replies.map .reply ++ [.ended] := by
  have htape := ofChunks_tape chunks capacity
  rw [hchunks] at htape
  exact untilEnd_frames h [] (Nat.lt_succ_self _) htape

end Reader

/-! ## Messages -/

/-- A message that is written: a command, or an envelope around such a message. -/
inductive Parcel where
  | command (r : Request)
  | envelope (inner : Parcel)
  deriving DecidableEq, Repr, Inhabited

namespace Parcel

/-- The command that is written for the message. -/
def frame : Parcel → Frame
  | command r => r.frame
  | envelope inner => inner.frame

/-- Makes the message, after those inside it. -/
def make (s : Store) : Parcel → MessageId × Store
  | command r => s.create r
  | envelope inner => (inner.make s).2.envelope (inner.make s).1

/-- Makes the messages, one after the other. -/
def makeAll (s : Store) : List Parcel → List MessageId × Store
  | [] => ([], s)
  | p :: ps =>
      let after := makeAll (p.make s).2 ps
      ((p.make s).1 :: after.1, after.2)

/-- What is written for the messages, one after the other, once they are all made. -/
def written (s : Store) (ps : List Parcel) : Bytes :=
  (makeAll s ps).1.flatMap fun id => (makeAll s ps).2.wireInFlight (.message id)

theorem make_grows (s : Store) (p : Parcel) : s.Grows (p.make s).2 := by
  induction p with
  | command r => exact .add s _
  | envelope inner ih => exact ih.trans (.add _ _)

/-- An envelope is written as what is inside it. -/
theorem make_frameOf? (s : Store) (p : Parcel) :
    (p.make s).2.frameOf? (.message (p.make s).1) = some p.frame := by
  induction p with
  | command r =>
      show ((s.create r).2.draft? s.messages.size).bind Message.frame = some r.frame
      rw [Store.create, Store.add_draft?_self]
      rfl
  | envelope inner ih =>
      obtain ⟨m, hm, hframe⟩ := Option.bind_eq_some_iff.mp ih
      obtain ⟨n, hn, rfl⟩ := Store.exists_get_of_draft? hm
      show (((inner.make s).2.envelope (inner.make s).1).2.draft?
        (inner.make s).2.messages.size).bind Message.frame = _
      rw [Store.envelope, Store.add_draft?_self, hn]
      exact hframe

theorem makeAll_writes (s : Store) (ps : List Parcel) :
    s.Grows (makeAll s ps).2
      ∧ (makeAll s ps).1.map (fun id => (makeAll s ps).2.wireInFlight (.message id))
        = ps.map fun p => p.frame.encode := by
  induction ps generalizing s with
  | nil => exact ⟨.refl s, rfl⟩
  | cons p ps ih =>
      obtain ⟨hgrows, hwires⟩ := ih (p.make s).2
      have hframe := hgrows.frameOf? (make_frameOf? s p)
      refine ⟨(make_grows s p).trans hgrows, ?_⟩
      exact congrArg₂ List.cons (Store.wireInFlight_eq hframe) hwires

theorem written_eq (s : Store) (ps : List Parcel) :
    written s ps = (ps.map fun p => p.frame.encode).flatten := by
  rw [written, List.flatMap_def, (makeAll_writes s ps).2]

theorem written_singleton (s : Store) (p : Parcel) : written s [p] = p.frame.encode := by
  rw [written_eq]
  exact List.append_nil _

theorem framed (ps : List Parcel) (hps : ∀ p ∈ ps, p.frame.Fits) :
    List.Forall₂ Framed (ps.map fun p => p.frame.encode) (ps.map fun p => p.frame.reply) := by
  rw [List.forall₂_map_left_iff, List.forall₂_map_right_iff]
  exact List.forall₂_same.mpr fun p hp => Frame.framed (hps p hp)

end Parcel

theorem Literal.bytes_injective {l l' : Literal} (h : l.bytes = l'.bytes) : l = l' := by
  have hfind : ∀ l ∈ all, all.find? (fun w => w.bytes == l.bytes) = some l := by decide +kernel
  have hl := hfind l l.mem_all
  rw [h, hfind l' l'.mem_all] at hl
  exact (Option.some.inj hl).symm

theorem Frame.reply_inj {f f' : Frame} (h : f.reply = f'.reply) :
    f.command = f'.command ∧ f.args.map Argument.bytes = f'.args.map Argument.bytes := by
  obtain ⟨hcommand, hargs⟩ := List.cons.inj (Reply.multi.inj h)
  have hbulk : Function.Injective fun data : Bytes => Reply.bulk (some data) :=
    fun _ _ h => Option.some.inj (Reply.bulk.inj h)
  refine ⟨Literal.bytes_injective (hbulk hcommand), (List.map_injective_iff.mpr hbulk) ?_⟩
  rw [List.map_map, List.map_map]
  exact hargs

namespace Parcel

/-- What is written for messages is read back, in whatever chunks it comes, as one array for each of
them: the name of the command and the contents of its arguments. So what is written says which
command it is, and it is no proper front of what is written for another message. -/
theorem written_read_back (s : Store) (ps : List Parcel) (hps : ∀ p ∈ ps, p.frame.Fits) :
    (∀ chunks capacity, chunks.flatten = written s ps →
        ((Reader.ofChunks chunks capacity).all).1
          = (ps.map fun p => .reply p.frame.reply) ++ [.ended])
      ∧ ∀ p ∈ ps, ∀ q ∈ ps, written s [p] <+: written s [q] →
        written s [p] = written s [q] ∧ p.frame.command = q.frame.command
          ∧ p.frame.args.map Argument.bytes = q.frame.args.map Argument.bytes := by
  constructor
  · intro chunks capacity hchunks
    rw [written_eq] at hchunks
    rw [Reader.all_frames (framed ps hps) hchunks capacity, List.map_map]
    rfl
  · intro p hp q hq hprefix
    obtain ⟨rest, hrest⟩ := hprefix
    rw [written_singleton, written_singleton] at hrest ⊢
    have htape : Tape.ofBytes p.frame.encode ++ Tape.ofBytes rest
        = Tape.ofBytes q.frame.encode ++ [] := by
      rw [← Tape.ofBytes_append, hrest, List.append_nil]
    obtain ⟨hbytes, hreply⟩ := Tape.framed_unique (Frame.framed (hps p hp))
      (Frame.framed (hps q hq)) htape
    exact ⟨hbytes, Frame.reply_inj hreply⟩

/-- A blob that looks like a bulk string, a ping, and an envelope around a negative integer; the
bytes come in three chunks. -/
theorem written_read_back_three :
    ((Reader.ofChunks
        [[42, 50, 13, 10, 36, 52, 13, 10, 69, 67, 72, 79, 13, 10, 36, 53, 13], [10, 36, 49, 13, 10, 42,
          13, 10, 42, 49, 13, 10, 36, 52, 13, 10, 80, 73, 78, 71, 13, 10, 42, 51, 13, 10],
          Wire.bulk [73, 78, 67, 82, 66, 89] ++ Wire.bulk [110] ++ Wire.bulk [45, 49, 50]] 4).all).1
      = [.reply (.multi [.bulk (some [69, 67, 72, 79]), .bulk (some [36, 49, 13, 10, 42])]),
          .reply (.multi [.bulk (some [80, 73, 78, 71])]),
          .reply (.multi [.bulk (some [73, 78, 67, 82, 66, 89]), .bulk (some [110]),
            .bulk (some [45, 49, 50])]),
          .ended] := by
  have h := (written_read_back {}
    [.command { command := .echo, args := [.blob [36, 49, 13, 10, 42]] }, .command .ping,
      .envelope (.command { command := .incrBy, args := [.text "n", .integer (-12)] })]
    (by decide +kernel)).1
  exact h _ 4 (by decide +kernel)

end Parcel

end RespMux
