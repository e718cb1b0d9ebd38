import RespMux.Proofs.Reading.Tape

/-!
# Buffered reading

The tape of a reader is what it has in its buffer and then what its source brings. A reader does on
its buffer what is said of its tape, and leaves the tape that is said: neither the chunks of the
source nor the capacity show. Two things have to be watched. The buffer may run out at any byte, so
that a line and the bytes of a bulk string are put together from pieces; and the steps with which a
reader bounds its recursion have to be more than the bytes ahead.
-/

set_option autoImplicit false

namespace RespMux

variable {α β : Type}

namespace Reader

/-- The symbols that are not consumed yet. -/
def tape (r : Reader) : Tape := Tape.ofBytes r.buffer ++ Tape.ofSource r.source

theorem sourceLength_eq (source : List Arrival) :
    sourceLength source = (Tape.ofSource source).bytes.length := by
  induction source with
  | nil => rfl
  | cons a source ih =>
      have hbytes : sourceLength (a :: source) = a.symbols.bytes.length + sourceLength source := by
        cases a with
        | bytes chunk =>
            show chunk.length + _ = (Tape.ofBytes chunk).bytes.length + _
            rw [Tape.bytes_ofBytes]
        | interrupt => exact (Nat.zero_add _).symm
        | eof => exact (Nat.zero_add _).symm
        | failure e => exact (Nat.zero_add _).symm
      rw [hbytes, ih, Tape.ofSource_cons, Tape.bytes_append, List.length_append]

theorem remaining_eq (r : Reader) : r.remaining = r.tape.bytes.length := by
  rw [remaining, sourceLength_eq, tape, Tape.bytes_append, Tape.bytes_ofBytes, List.length_append]

theorem leftover_eq (r : Reader) : r.leftover = r.tape.bytes := by
  obtain ⟨source, buffer, capacity⟩ := r
  rw [tape, Tape.bytes_append, Tape.bytes_ofBytes]
  show buffer ++ source.flatMap _ = buffer ++ (Tape.ofSource source).bytes
  congr 1
  induction source with
  | nil => rfl
  | cons a source ih =>
      rw [List.flatMap_cons, ih, Tape.ofSource_cons, Tape.bytes_append]
      cases a with
      | bytes chunk => exact congrArg (· ++ _) (Tape.bytes_ofBytes chunk).symm
      | interrupt => rfl
      | eof => rfl
      | failure e => rfl

/-! ## Refills -/

/-- A refill brings some bytes, or it meets what a reader without a buffer meets. -/
theorem refill_cases (size : Nat) (source : List Arrival) :
    (∃ b bs rest, refill (max size 1) source = .chunk (b :: bs) rest
        ∧ Tape.ofSource source = Tape.ofBytes (b :: bs) ++ Tape.ofSource rest)
      ∨ (∃ rest, refill (max size 1) source = .ended rest
        ∧ Tape.ready (Tape.ofSource source) = .ok false (Tape.ofSource rest))
      ∨ (∃ e rest, refill (max size 1) source = .failed e rest
        ∧ Tape.ready (Tape.ofSource source) = .error (.io e) (Tape.ofSource rest)) := by
  induction source with
  | nil => exact .inr (.inl ⟨[], rfl, rfl⟩)
  | cons a source ih =>
      cases a with
      | interrupt => exact ih
      | eof => exact .inr (.inl ⟨source, rfl, rfl⟩)
      | failure e => exact .inr (.inr ⟨e, source, rfl, rfl⟩)
      | bytes chunk =>
          cases chunk with
          | nil => exact ih
          | cons b bs =>
              -- the first byte of the chunk fits into the buffer
              obtain ⟨n, hn⟩ : ∃ n, max size 1 = n + 1 := ⟨max size 1 - 1, by omega⟩
              have hchunk : Tape.ofBytes (b :: bs)
                  = Tape.ofBytes (b :: bs.take n) ++ Tape.ofBytes (bs.drop n) := by
                rw [← Tape.ofBytes_append, List.cons_append, List.take_append_drop]
              refine .inl ⟨b, bs.take n, _, by rw [hn]; rfl, ?_⟩
              show Tape.ofBytes (b :: bs) ++ Tape.ofSource source = _
              rw [hchunk, List.append_assoc]
              congr 1
              cases hdrop : bs.drop n with
              | nil => simp [hdrop]
              | cons c cs => simp [hdrop]; rfl

theorem fill_empty (source : List Arrival) (capacity : Nat) :
    fill ⟨source, [], capacity⟩ =
      match refill (max capacity 1) source with
      | .chunk bs rest => .ok true ⟨rest, bs, capacity⟩
      | .ended rest => .ok false ⟨rest, [], capacity⟩
      | .failed e rest => .error (.io e) ⟨rest, [], capacity⟩ := by
  unfold fill
  show EStateM.bind get _ _ = _
  rw [EStateM.bind]
  show (if ([] : Bytes).isEmpty then _ else _ : Reading Bool) _ = _
  rw [if_pos List.isEmpty_nil]
  dsimp only
  cases refill (max capacity 1) source with
  | chunk bs rest => rfl
  | ended rest => rfl
  | failed e rest => rfl

/-- The buffer holds a byte and the tape is the same, or there is none to be had. -/
theorem fill_cases (r : Reader) :
    (∃ b bs r', fill r = .ok true r' ∧ r'.buffer = b :: bs ∧ r'.tape = r.tape)
      ∨ (∃ r', fill r = .ok false r' ∧ Tape.ready r.tape = .ok false r'.tape)
      ∨ (∃ e r', fill r = .error e r' ∧ Tape.ready r.tape = .error e r'.tape) := by
  obtain ⟨source, buffer, capacity⟩ := r
  cases buffer with
  | cons b bs => exact .inl ⟨b, bs, _, rfl, rfl, rfl⟩
  | nil =>
      rw [fill_empty]
      obtain ⟨b, bs, rest, hr, ht⟩ | ⟨rest, hr, ht⟩ | ⟨e, rest, hr, ht⟩ :=
        refill_cases capacity source
      · rw [hr]
        exact .inl ⟨b, bs, _, rfl, rfl, ht.symm⟩
      · rw [hr]
        exact .inr (.inl ⟨_, rfl, ht⟩)
      · rw [hr]
        exact .inr (.inr ⟨_, _, rfl, ht⟩)

/-- Inside a frame there has to be a byte. -/
theorem need_cases (r : Reader) :
    (∃ b bs r', need r = .ok () r' ∧ r'.buffer = b :: bs ∧ r'.tape = r.tape)
      ∨ (∃ e r', need r = .error e r' ∧ Tape.byte r.tape = .error e r'.tape) := by
  obtain ⟨b, bs, r', hr, hb, ht⟩ | ⟨r', hr, ht⟩ | ⟨e, r', hr, ht⟩ := fill_cases r
  · refine .inl ⟨b, bs, r', ?_, hb, ht⟩
    show EStateM.bind fill _ r = _
    rw [EStateM.bind, hr]
    rfl
  · refine .inr ⟨_, r', ?_, Tape.byte_of_ended ht⟩
    show EStateM.bind fill _ r = _
    rw [EStateM.bind, hr]
    rfl
  · refine .inr ⟨e, r', ?_, Tape.byte_of_failed ht⟩
    show EStateM.bind fill _ r = _
    rw [EStateM.bind, hr]

/-! ## What a reader does is what its tape says -/

/-- What a result says of the tape. -/
def onTape : EStateM.Result Error Reader α → EStateM.Result Error Tape α
  | .ok a r => .ok a r.tape
  | .error e r => .error e r.tape

theorem onTape_eq_ok_iff {x : EStateM.Result Error Reader α} {a : α} {t : Tape} :
    onTape x = .ok a t ↔ ∃ r, x = .ok a r ∧ r.tape = t := by
  constructor
  · intro h
    cases x with
    | ok c r =>
        obtain ⟨rfl, ht⟩ := EStateM.Result.ok.inj h
        exact ⟨r, rfl, ht⟩
    | error e r => cases h
  · rintro ⟨r, rfl, rfl⟩
    rfl

theorem onTape_eq_error_iff {x : EStateM.Result Error Reader α} {e : Error} {t : Tape} :
    onTape x = .error e t ↔ ∃ r, x = .error e r ∧ r.tape = t := by
  constructor
  · intro h
    cases x with
    | ok c r => cases h
    | error e r =>
        obtain ⟨rfl, ht⟩ := EStateM.Result.error.inj h
        exact ⟨r, rfl, ht⟩
  · rintro ⟨r, rfl, rfl⟩
    rfl

/-- With fewer than `n` bytes ahead, the reader does what is said of its tape. -/
def Mirrors (n : Nat) (x : Reading α) (y : Tape.Scan α) : Prop :=
  ∀ r : Reader, r.remaining < n → onTape (x r) = y r.tape

namespace Mirrors

theorem zero (x : Reading α) (y : Tape.Scan α) : Mirrors 0 x y := fun _ hr =>
  absurd hr (Nat.not_lt_zero _)

theorem pure (n : Nat) (a : α) : Mirrors n (Pure.pure a) (Pure.pure a) := fun _ _ => rfl

theorem throw (n : Nat) (e : Error) :
    Mirrors n (MonadExcept.throw e : Reading α) (MonadExcept.throw e) := fun _ _ => rfl

theorem ofExcept (n : Nat) (x : Except Error α) :
    Mirrors n (MonadExcept.ofExcept x) (MonadExcept.ofExcept x) := by
  cases x with
  | ok a => exact pure n a
  | error e => exact throw n e

/-- What comes after a computation has fewer bytes ahead by those that it consumes. -/
theorem bind {n k : Nat} {x : Reading α} {y : Tape.Scan α} {f : α → Reading β}
    {g : α → Tape.Scan β} (hx : Mirrors n x y) (hy : Tape.Consumes k y)
    (hf : ∀ a, Mirrors (n - k) (f a) (g a)) : Mirrors n (x >>= f) (y >>= g) := by
  intro r hr
  have hxr := hx r hr
  have hyr := hy r.tape
  show onTape (EStateM.bind x f r) = EStateM.bind y g r.tape
  unfold EStateM.bind
  rw [← hxr] at hyr ⊢
  cases hres : x r with
  | error e r' => rfl
  | ok a r' =>
      rw [hres] at hyr
      have hlength := hyr.2
      refine hf a r' ?_
      rw [remaining_eq] at hr ⊢
      omega

end Mirrors

/-! ## Bytes and lines -/

theorem fill_mirrors (n : Nat) : Mirrors n fill Tape.ready := by
  intro r _
  obtain ⟨b, bs, r', hr, hb, ht⟩ | ⟨r', hr, ht⟩ | ⟨e, r', hr, ht⟩ := fill_cases r
  · rw [hr, onTape, ← ht, tape, hb]
    rfl
  · rw [hr, ht]
    rfl
  · rw [hr, ht]
    rfl

theorem byte_mirrors (n : Nat) : Mirrors n byte Tape.byte := by
  intro r _
  show onTape (EStateM.bind need _ r) = _
  rw [EStateM.bind]
  obtain ⟨b, bs, r', hr, hb, ht⟩ | ⟨e, r', hr, ht⟩ := need_cases r
  · obtain ⟨source, buffer, capacity⟩ := r'
    subst hb
    rw [hr, ← ht]
    rfl
  · rw [hr, ht]
    rfl

theorem assemble_cons (bs : Bytes) (pieces : List Bytes) :
    assemble (bs :: pieces) = assemble pieces ++ bs := by
  simp [assemble]

/-- A buffer has no line feed, or what comes before its first one ends the line. -/
theorem feed_cases (bs : Bytes) :
    (bs.dropWhile (· != 10) = [] ∧ 10 ∉ bs)
      ∨ ∃ front rest, bs.takeWhile (· != 10) = front ∧ bs.dropWhile (· != 10) = 10 :: rest
        ∧ bs = front ++ 10 :: rest ∧ 10 ∉ front := by
  induction bs with
  | nil => exact .inl ⟨rfl, List.not_mem_nil⟩
  | cons b bs ih =>
      by_cases hb : b = 10
      · subst hb
        exact .inr ⟨[], bs, rfl, rfl, rfl, List.not_mem_nil⟩
      · have hne : (b != 10) = true := bne_iff_ne.mpr hb
        rw [List.takeWhile_cons_of_pos (p := (· != 10)) hne,
          List.dropWhile_cons_of_pos (p := (· != 10)) hne]
        obtain ⟨hdrop, hfree⟩ | ⟨front, rest, htake, hdrop, heq, hfree⟩ := ih
        · exact .inl ⟨hdrop, List.not_mem_cons_of_ne_of_not_mem (Ne.symm hb) hfree⟩
        · exact .inr ⟨b :: front, rest, by rw [htake], hdrop, by rw [heq]; rfl,
            List.not_mem_cons_of_ne_of_not_mem (Ne.symm hb) hfree⟩

/-- One round of a line, on the bytes of the buffer. -/
theorem lineFrom_buffer (rounds : Nat) (pieces : List Bytes) (r : Reader) (source : List Arrival)
    (bs : Bytes) (capacity : Nat) (hr : need r = .ok () ⟨source, bs, capacity⟩) :
    lineFrom (rounds + 1) pieces r =
      match bs.dropWhile (· != 10) with
      | [] => lineFrom rounds (bs :: pieces) ⟨source, [], capacity⟩
      | _ :: rest =>
          (MonadExcept.ofExcept (withoutReturn (assemble (bs.takeWhile (· != 10) :: pieces))) :
            Reading Bytes) ⟨source, rest, capacity⟩ := by
  show EStateM.bind need _ r = _
  rw [EStateM.bind, hr]
  show (match bs.dropWhile (· != 10) with
    | [] => lineFrom rounds (bs :: pieces)
    | _ :: rest => (putBack rest >>= fun _ => MonadExcept.ofExcept
        (withoutReturn (assemble (bs.takeWhile (· != 10) :: pieces))) : Reading Bytes))
      ⟨source, [], capacity⟩ = _
  cases bs.dropWhile (· != 10) with
  | nil => rfl
  | cons c rest => rfl

/-- A buffer without a line feed is a piece of the line; one with a line feed ends it. -/
theorem lineFrom_mirrors {n rounds : Nat} (hn : n ≤ rounds) (pieces : List Bytes) :
    Mirrors n (lineFrom rounds pieces) (Tape.lineAfter (assemble pieces)) := by
  induction rounds generalizing n pieces with
  | zero =>
      obtain rfl : n = 0 := by omega
      exact Mirrors.zero _ _
  | succ rounds ih =>
      intro r hrem
      obtain ⟨b, bs, r', hr, hb, ht⟩ | ⟨e, r', hr, ht⟩ := need_cases r
      · obtain ⟨source, buffer, capacity⟩ := r'
        rw [remaining_eq, ← ht, ← remaining_eq] at hrem
        rw [lineFrom_buffer rounds pieces r _ _ _ hr, ← ht]
        show _ = Tape.lineAfter _ (Tape.ofBytes buffer ++ Tape.ofSource source)
        obtain ⟨hdrop, hfree⟩ | ⟨front, rest, htake, hdrop, heq, hfree⟩ := feed_cases buffer
        · have hshorter : remaining ⟨source, [], capacity⟩ < rounds := by
            have hbuffer : buffer.length = bs.length + 1 := congrArg List.length hb
            simp only [remaining, List.length_nil] at hrem ⊢
            omega
          rw [hdrop, Tape.lineAfter_append _ _ _ hfree, ← assemble_cons]
          exact ih (Nat.le_refl rounds) _ _ hshorter
        · rw [hdrop, htake, heq, Tape.ofBytes_append, List.append_assoc,
            Tape.lineAfter_append _ _ _ hfree, ← assemble_cons]
          show _ = Tape.lineAfter _ (.byte 10 :: _)
          rw [Tape.lineAfter_feed]
          exact Mirrors.ofExcept _ _ _ (Nat.lt_succ_self _)
      · rw [Tape.lineAfter_of_error _ ht]
        show onTape (EStateM.bind need _ r) = _
        rw [EStateM.bind, hr]
        rfl

/-! ## Bulk strings -/

/-- Consumes `n` bytes; `pieces` are those before them. -/
def gather (pieces : List Bytes) (n : Nat) : Tape.Scan Bytes := do
  let bs ← Tape.times Tape.byte n
  pure (assemble pieces ++ bs)

theorem gather_zero (pieces : List Bytes) (t : Tape) :
    gather pieces 0 t = .ok (assemble pieces) t := by
  show EStateM.Result.ok (assemble pieces ++ []) t = _
  rw [List.append_nil]

theorem gather_of_error {t t' : Tape} {e : Error} (pieces : List Bytes) (n : Nat)
    (h : Tape.byte t = .error e t') : gather pieces (n + 1) t = .error e t' := by
  show EStateM.bind (Tape.times Tape.byte (n + 1)) _ t = _
  rw [EStateM.bind, Tape.times_of_error n h]

/-- Bytes at the front of the tape go to the pieces. -/
theorem gather_front (front : Bytes) (pieces : List Bytes) (k : Nat) (t : Tape) :
    gather pieces (front.length + k) (Tape.ofBytes front ++ t)
      = gather (front :: pieces) k t := by
  unfold gather
  rw [Tape.times_append, bind_assoc]
  show EStateM.bind (Tape.times Tape.byte front.length) _ _ = _
  rw [EStateM.bind, Tape.times_byte, assemble_cons]
  simp only [bind_assoc, pure_bind, List.append_assoc]

/-- What the buffer has of the bytes is one piece. -/
theorem gather_buffer (buffer : Bytes) (pieces : List Bytes) (n : Nat) (t : Tape) :
    gather pieces n (Tape.ofBytes buffer ++ t)
      = gather (buffer.take n :: pieces) (n - buffer.length)
        (Tape.ofBytes (buffer.drop n) ++ t) := by
  have hcount : n = (buffer.take n).length + (n - buffer.length) := by
    rw [List.length_take]
    omega
  have htape : Tape.ofBytes buffer ++ t
      = Tape.ofBytes (buffer.take n) ++ (Tape.ofBytes (buffer.drop n) ++ t) := by
    rw [← List.append_assoc, ← Tape.ofBytes_append, List.take_append_drop]
  calc gather pieces n (Tape.ofBytes buffer ++ t)
      = gather pieces ((buffer.take n).length + (n - buffer.length))
          (Tape.ofBytes (buffer.take n) ++ (Tape.ofBytes (buffer.drop n) ++ t)) := by
        rw [← hcount, ← htape]
    _ = gather (buffer.take n :: pieces) (n - buffer.length)
          (Tape.ofBytes (buffer.drop n) ++ t) := gather_front ..

/-- Each round takes what the buffer has, which is one byte at least. -/
theorem exactlyFrom_mirrors {rounds k : Nat} (hk : k ≤ rounds) (pieces : List Bytes) (n : Nat) :
    Mirrors n (exactlyFrom rounds k pieces) (gather pieces k) := by
  induction rounds generalizing n k pieces with
  | zero =>
      obtain rfl : k = 0 := by omega
      intro r _
      exact (gather_zero pieces r.tape).symm
  | succ rounds ih =>
      intro r _
      cases k with
      | zero => exact (gather_zero pieces r.tape).symm
      | succ k =>
          show onTape (EStateM.bind need _ r) = _
          rw [EStateM.bind]
          obtain ⟨b, bs, r', hr, hb, ht⟩ | ⟨e, r', hr, ht⟩ := need_cases r
          · obtain ⟨source, buffer, capacity⟩ := r'
            have hbuffer : buffer.length = bs.length + 1 := congrArg List.length hb
            rw [hr, ← ht]
            show _ = gather pieces (k + 1) (Tape.ofBytes buffer ++ Tape.ofSource source)
            rw [gather_buffer]
            have hleft : k + 1 - buffer.length ≤ rounds := by omega
            exact ih hleft _ _ ⟨source, buffer.drop (k + 1), capacity⟩ (Nat.lt_succ_self _)
          · rw [hr, gather_of_error pieces k ht]
            rfl

theorem exactly_mirrors (n k : Nat) : Mirrors n (exactly k) (Tape.times Tape.byte k) := by
  intro r hr
  rw [exactly, exactlyFrom_mirrors (Nat.le_refl k) [] n r hr]
  show EStateM.bind (Tape.times Tape.byte k) _ r.tape = _
  rw [EStateM.bind]
  cases Tape.times Tape.byte k r.tape with
  | ok bs t => rfl
  | error e t => rfl

theorem line_mirrors {n rounds : Nat} (hn : n ≤ rounds) : Mirrors n (line rounds) Tape.line :=
  lineFrom_mirrors hn []

theorem integer_mirrors {n rounds : Nat} (hn : n ≤ rounds) :
    Mirrors n (integer rounds) Tape.integer :=
  (line_mirrors hn).bind (Tape.Consumes.lineAfter []) fun _ => Mirrors.ofExcept _ _

/-- Consumes the next byte of a line end, which has to be this one. -/
def mark (b : UInt8) : Reading Unit := do
  if (← byte) = b then pure ()
  else throw (.protocol (.malformed "bulk string missing trailing CRLF"))

theorem payload_eq (k : Nat) :
    payload k = exactly k >>= fun data => mark 13 >>= fun _ => mark 10 >>= fun _ => pure data := by
  unfold payload mark
  refine bind_congr fun data => ?_
  rw [bind_assoc]
  refine bind_congr fun c => ?_
  by_cases hc : c = 13
  · rw [hc, if_pos rfl, bind_assoc]
    refine bind_congr fun d => ?_
    by_cases hd : d = 10
    · rw [hd]
      rfl
    · simp [hd]
  · rw [if_neg hc, if_pos (bne_iff_ne.mpr hc)]
    rfl

theorem mark_mirrors (n : Nat) (b : UInt8) : Mirrors n (mark b) (Tape.mark b) := by
  refine (byte_mirrors n).bind Tape.Consumes.byte fun c => ?_
  split
  · exact Mirrors.pure _ ()
  · exact Mirrors.throw _ _

theorem payload_mirrors (n k : Nat) : Mirrors n (payload k) (Tape.payload k) := by
  rw [payload_eq]
  refine (exactly_mirrors n k).bind (k := 0)
    (Tape.Consumes.times (Tape.Consumes.byte.weaken (by omega)) k) fun data => ?_
  refine (mark_mirrors _ 13).bind (Tape.Consumes.mark 13) fun _ => ?_
  exact (mark_mirrors _ 10).bind (Tape.Consumes.mark 10) fun _ => Mirrors.pure _ data

/-! ## Frames -/

/-- The frames of an array, when the steps for each of them are enough. -/
theorem frames_step {n steps depth : Nat}
    (hframe : Mirrors n (frame steps) (Tape.frame depth))
    (hframes : ∀ k items, Mirrors (n - 1) (frames steps k items)
      (Tape.times (Tape.frame depth) k >>= fun rest => pure (items.reverse ++ rest)))
    (k : Nat) (items : List Reply) :
    Mirrors n (frames (steps + 1) k items)
      (Tape.times (Tape.frame depth) k >>= fun rest => pure (items.reverse ++ rest)) := by
  cases k with
  | zero =>
      intro r _
      show EStateM.Result.ok items.reverse r.tape = .ok (items.reverse ++ []) r.tape
      rw [List.append_nil]
  | succ k =>
      rw [Tape.times, bind_assoc]
      refine hframe.bind (Tape.Consumes.frame depth) fun item => ?_
      have hitem := hframes k (item :: items)
      simpa only [bind_assoc, pure_bind, List.reverse_cons, List.append_assoc,
        List.singleton_append] using hitem

/-- A frame, when the steps for the frames in it are enough. -/
theorem frame_step {n steps depth : Nat} (hn : n ≤ steps + 1)
    (hframes : ∀ k, Mirrors (n - 1 - 1) (frames steps k [])
      (Tape.times (Tape.frame depth) k)) :
    Mirrors n (frame (steps + 1)) (Tape.frame (depth + 1)) := by
  have hline : Mirrors (n - 1) (line steps) Tape.line := line_mirrors (by omega)
  have hinteger : Mirrors (n - 1) (integer steps) Tape.integer := integer_mirrors (by omega)
  unfold frame Tape.frame
  refine (byte_mirrors n).bind Tape.Consumes.byte fun b => ?_
  split
  · exact hline.bind (Tape.Consumes.lineAfter []) fun l => Mirrors.pure _ _
  · exact hline.bind (Tape.Consumes.lineAfter []) fun l => Mirrors.pure _ _
  · exact hinteger.bind Tape.Consumes.integer fun l => Mirrors.pure _ _
  · refine hinteger.bind Tape.Consumes.integer fun l => ?_
    split
    · exact Mirrors.pure _ _
    · split
      · exact Mirrors.throw _ _
      · exact (payload_mirrors _ _).bind (Tape.Consumes.payload _) fun data => Mirrors.pure _ _
  · refine hinteger.bind Tape.Consumes.integer fun l => ?_
    split
    · exact Mirrors.pure _ _
    · split
      · exact Mirrors.throw _ _
      · refine (hframes _).bind (k := 0) ?_ fun items => Mirrors.pure _ _
        exact Tape.Consumes.times ((Tape.Consumes.frame depth).weaken (by omega)) _
  · -- no other byte is a type mark
    next h43 h45 h58 h36 h42 =>
    have hthrow : Mirrors (n - 1) (throw (.protocol (.unknownMark b)) : Reading Reply)
        (throw (.protocol (.unknownMark b))) := Mirrors.throw _ _
    simpa only [h43, h45, h58, h36, h42] using hthrow

/-- A frame takes one of its steps for its type mark, and an array one for each frame in it: the
steps that are left are always more than the bytes ahead. -/
theorem frame_frames_mirror (steps : Nat) :
    (∀ {n depth : Nat}, n ≤ steps → n ≤ depth → Mirrors n (frame steps) (Tape.frame depth))
      ∧ ∀ {n depth : Nat} (k : Nat) (items : List Reply), n ≤ steps - 1 → n ≤ depth →
        Mirrors n (frames steps k items)
          (Tape.times (Tape.frame depth) k >>= fun rest => pure (items.reverse ++ rest)) := by
  induction steps with
  | zero =>
      constructor
      · intro n depth hn _
        obtain rfl : n = 0 := by omega
        exact Mirrors.zero _ _
      · intro n depth k items hn _
        obtain rfl : n = 0 := by omega
        exact Mirrors.zero _ _
  | succ steps ih =>
      constructor
      · intro n depth hn hdepth
        cases depth with
        | zero =>
            obtain rfl : n = 0 := by omega
            exact Mirrors.zero _ _
        | succ depth =>
            refine frame_step hn fun k => ?_
            have hframes : Mirrors (n - 1 - 1) (frames steps k [])
                (Tape.times (Tape.frame depth) k >>= fun rest => pure ([].reverse ++ rest)) :=
              ih.2 k [] (by omega) (by omega)
            simpa using hframes
      · intro n depth k items hn hdepth
        exact frames_step (ih.1 (by omega) hdepth)
          (fun k items => ih.2 k items (by omega) (by omega)) k items

theorem frame_mirrors {n steps depth : Nat} (hsteps : n ≤ steps) (hdepth : n ≤ depth) :
    Mirrors n (frame steps) (Tape.frame depth) :=
  (frame_frames_mirror steps).1 hsteps hdepth

/-! ## Calls -/

theorem replyWithin_tape {r : Reader} {steps : Nat} (hsteps : r.remaining < steps) :
    onTape (replyWithin steps r) = Tape.reply? r.tape := by
  have hmirrors : Mirrors (r.remaining + 1) (replyWithin steps)
      (Tape.ready >>= fun more =>
        if more then some <$> Tape.frame (r.remaining + 1) else pure none) := by
    refine (fill_mirrors _).bind Tape.Consumes.ready fun more => ?_
    cases more with
    | false => exact Mirrors.pure _ none
    | true =>
        exact (frame_mirrors hsteps (Nat.le_refl _)).bind (Tape.Consumes.frame _) fun reply =>
          Mirrors.pure _ (some reply)
  rw [hmirrors r (Nat.lt_succ_self _), remaining_eq]
  rfl

theorem reply?_tape (r : Reader) : onTape (reply? r) = Tape.reply? r.tape :=
  replyWithin_tape (Nat.lt_succ_self _)

theorem next_tape {r : Reader} {steps : Nat} (hsteps : r.remaining < steps) :
    (r.next steps).1 = r.tape.next.1 ∧ (r.next steps).2.tape = r.tape.next.2 := by
  have hreply := replyWithin_tape hsteps
  unfold next Tape.next
  rw [← hreply]
  cases replyWithin steps r with
  | ok reply r' => cases reply <;> exact ⟨rfl, rfl⟩
  | error e r' => exact ⟨rfl, rfl⟩

theorem callsFrom_tape {r : Reader} {steps : Nat} (hsteps : r.remaining < steps) (n : Nat)
    (outcomes : List Outcome) :
    (callsFrom steps n outcomes r).1 = outcomes.reverse ++ (r.tape.calls n).1
      ∧ (callsFrom steps n outcomes r).2.tape = (r.tape.calls n).2 := by
  induction n generalizing r outcomes with
  | zero => exact ⟨(List.append_nil _).symm, rfl⟩
  | succ n ih =>
      obtain ⟨houtcome, htape⟩ := next_tape hsteps
      have hleft : (r.next steps).2.remaining < steps := by
        have hsuffix := Tape.length_bytes_le (Tape.next_suffix r.tape)
        rw [remaining_eq] at hsteps ⊢
        rw [htape]
        omega
      have hrest := ih hleft ((r.next steps).1 :: outcomes)
      rw [htape, List.reverse_cons, List.append_assoc] at hrest
      rw [Tape.calls, ← houtcome]
      exact hrest

/-- The calls yield what is said of the tape, and leave the tape that is said. -/
theorem calls_tape (r : Reader) (n : Nat) :
    (r.calls n).1 = (r.tape.calls n).1 ∧ (r.calls n).2.tape = (r.tape.calls n).2 :=
  callsFrom_tape (Nat.lt_succ_self _) n []

/-- However many calls are made, also after errors, their outcomes are those of the reader without a
buffer on the symbols of the source. Each call takes the symbols that come next and leaves the rest,
so that none is taken twice or left out. Nothing else about the source shows, and the capacity does
not, either. -/
theorem calls_buffered (source : List Arrival) (capacity n : Nat) :
    let after := calls n { source, capacity }
    after.1 = ((Tape.ofSource source).calls n).1
      ∧ after.2.tape = ((Tape.ofSource source).calls n).2
      ∧ after.2.tape <:+ Tape.ofSource source
      ∧ (calls (n + 1) { source, capacity }).2.tape <:+ after.2.tape
      ∧ ∀ source' capacity', Tape.ofSource source' = Tape.ofSource source →
        (calls n { source := source', capacity := capacity' }).1 = after.1
          ∧ (calls n { source := source', capacity := capacity' }).2.tape = after.2.tape := by
  intro after
  obtain ⟨houtcomes, htape⟩ : after.1 = _ ∧ after.2.tape = _ :=
    calls_tape { source, capacity } n
  have hnext : (calls (n + 1) { source, capacity }).2.tape
      = ((Tape.ofSource source).calls (n + 1)).2 :=
    (calls_tape { source, capacity } (n + 1)).2
  refine ⟨houtcomes, htape, ?_, ?_, ?_⟩
  · rw [htape]
    exact Tape.calls_suffix n _
  · rw [hnext, htape, Tape.calls_succ]
    exact Tape.next_suffix _
  · intro source' capacity' hsource
    obtain ⟨houtcomes', htape'⟩ := calls_tape { source := source', capacity := capacity' } n
    rw [houtcomes, htape, houtcomes', htape']
    show ((Tape.ofSource source').calls n).1 = ((Tape.ofSource source).calls n).1
      ∧ ((Tape.ofSource source').calls n).2 = ((Tape.ofSource source).calls n).2
    rw [hsource]
    exact ⟨rfl, rfl⟩

/-- A reply that comes byte by byte, interrupted, after an error, and its bytes in one chunk. -/
theorem calls_buffered_interrupted :
    (calls 2 { source := [.failure "lost", .bytes [58], .interrupt, .bytes [55], .bytes [13],
        .interrupt, .bytes [10]], capacity := 1 }).1
      = (calls 2 { source := [.failure "lost", .bytes [58, 55, 13, 10]], capacity := 16 }).1 :=
  ((calls_buffered [.failure "lost", .bytes [58, 55, 13, 10]] 16 2).2.2.2.2 _ 1 rfl).1

end Reader

end RespMux
