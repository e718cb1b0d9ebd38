import RespMux.Reader.Replies

/-!
# Reading without a buffer

A source is a tape of symbols: bytes, ends of the stream and failures, one after the other. How the
bytes come in chunks does not show on the tape, and neither do interruptions. The reader of this
file has no buffer. It consumes one symbol at a time, also after an error, and says what each reply
has to be.

A frame may contain frames. `frame depth` reads those that are nested less than `depth` deep, which
are all of them when there are fewer bytes than that.
-/

set_option autoImplicit false

namespace RespMux

/-- What a reader without a buffer meets next. -/
inductive Symbol where
  | byte (b : UInt8)
  /-- the stream has ended, for now -/
  | eof
  /-- the read fails -/
  | failure (text : String)
  deriving DecidableEq, Repr, Inhabited

/-- The symbols that are not consumed yet. After the last one the stream has ended for good. -/
abbrev Tape := List Symbol

/-- The symbols that an arrival brings. -/
def Arrival.symbols : Arrival → Tape
  | .bytes chunk => chunk.map .byte
  | .interrupt => []
  | .eof => [.eof]
  | .failure t => [.failure t]

namespace Tape

/-- The symbols of a source. -/
def ofSource (source : List Arrival) : Tape := source.flatMap Arrival.symbols

/-- The symbols of a byte string. -/
def ofBytes (bs : Bytes) : Tape := bs.map .byte

/-- The bytes on a tape. -/
def bytes (t : Tape) : Bytes :=
  t.filterMap fun
    | .byte b => some b
    | _ => none

/-! ## Symbols -/

/-- A computation that consumes symbols. -/
abbrev Scan := EStateM Error Tape

/-- Whether a byte comes next. If not, the symbol that says so is consumed. -/
def ready : Scan Bool
  | .byte b :: t => .ok true (.byte b :: t)
  | .eof :: t => .ok false t
  | .failure e :: t => .error (.io e) t
  | [] => .ok false []

/-- Consumes one byte, inside a frame. -/
def byte : Scan UInt8
  | .byte b :: t => .ok b t
  | .eof :: t => .error (.protocol .unexpectedEnd) t
  | .failure e :: t => .error (.io e) t
  | [] => .error (.protocol .unexpectedEnd) []

/-- Consumes the same thing so many times. -/
def times {α : Type} (x : Scan α) : Nat → Scan (List α)
  | 0 => pure []
  | n + 1 => do
      let a ← x
      let rest ← times x n
      pure (a :: rest)

/-! ## Frames -/

/-- Consumes the bytes up to the next line feed; `before` are those of the line so far. -/
def lineAfter (before : Bytes) : Scan Bytes
  | .byte b :: t =>
      if b = 10 then (MonadExcept.ofExcept (Reader.withoutReturn before) : Scan Bytes) t
      else lineAfter (before ++ [b]) t
  | .eof :: t => .error (.protocol .unexpectedEnd) t
  | .failure e :: t => .error (.io e) t
  | [] => .error (.protocol .unexpectedEnd) []

/-- Consumes a line and returns it without its end. -/
def line : Scan Bytes := lineAfter []

/-- Consumes a line that spells an integer. -/
def integer : Scan Int64 := do
  MonadExcept.ofExcept ((integerLine? (← line)).mapError .protocol)

/-- Consumes the next byte of a line end, which has to be this one. -/
def mark (b : UInt8) : Scan Unit := do
  if (← byte) = b then pure ()
  else throw (.protocol (.malformed "bulk string missing trailing CRLF"))

/-- Consumes the bytes of a bulk string and the line end after them. -/
def payload (n : Nat) : Scan Bytes := do
  let data ← times byte n
  mark 13
  mark 10
  pure data

/-- Consumes a length line, and the contents unless the length is that of null. -/
def sized (negative : Int64 → ParseError) (contents : Nat → Scan Reply) : Scan Reply := do
  let n ← integer
  if n = -1 then return .bulk none
  else if n < 0 then throw (.protocol (negative n))
  else contents n.toInt.toNat

/-- Consumes one frame that is nested less than `depth` deep. -/
def frame : Nat → Scan Reply
  | 0 => throw (.protocol .unexpectedEnd)
  | depth + 1 => do
      match ← byte with
      | 43 => return .status (← line)
      | 45 => return .error (Utf8.lossy (← line))
      | 58 => return .integer (← integer)
      | 36 => sized .invalidBulkLength fun n => return .bulk (some (← payload n))
      | 42 => sized .invalidArrayLength fun n => return .multi (← times (frame depth) n)
      | mark => throw (.protocol (.unknownMark mark))

/-- Consumes the next reply; none if the stream ends before it starts. -/
def reply? : Scan (Option Reply) := do
  let t ← get
  if ← ready then return some (← frame (t.bytes.length + 1))
  else return none

/-- The outcome of a call for the next reply, and the tape after it. -/
def next (t : Tape) : Reader.Outcome × Tape :=
  match reply? t with
  | .ok (some r) t => (.reply r, t)
  | .ok none t => (.ended, t)
  | .error e t => (.failed e, t)

/-- The outcomes of so many calls, one after the other. -/
def calls : Nat → Tape → List Reader.Outcome × Tape
  | 0, t => ([], t)
  | n + 1, t => ((next t).1 :: (calls n (next t).2).1, (calls n (next t).2).2)

/-! ## Bytes at the front -/

variable {α β : Type}

@[simp] theorem bytes_nil : bytes [] = [] := rfl

@[simp] theorem bytes_byte_cons (b : UInt8) (t : Tape) : bytes (.byte b :: t) = b :: bytes t := rfl

@[simp] theorem bytes_append (t u : Tape) : bytes (t ++ u) = bytes t ++ bytes u :=
  List.filterMap_append ..

@[simp] theorem ofBytes_nil : ofBytes [] = [] := rfl

@[simp] theorem ofBytes_cons (b : UInt8) (bs : Bytes) :
    ofBytes (b :: bs) = .byte b :: ofBytes bs := rfl

@[simp] theorem ofBytes_append (as bs : Bytes) : ofBytes (as ++ bs) = ofBytes as ++ ofBytes bs :=
  List.map_append

@[simp] theorem bytes_ofBytes (bs : Bytes) : bytes (ofBytes bs) = bs := by
  induction bs with
  | nil => rfl
  | cons b bs ih => rw [ofBytes_cons, bytes_byte_cons, ih]

theorem ofBytes_injective : Function.Injective ofBytes := by
  intro as bs h
  have hbytes := congrArg bytes h
  simpa using hbytes

@[simp] theorem ofSource_nil : ofSource [] = [] := rfl

@[simp] theorem ofSource_cons (a : Arrival) (source : List Arrival) :
    ofSource (a :: source) = a.symbols ++ ofSource source := rfl

theorem times_append (x : Scan α) (m n : Nat) :
    times x (m + n) =
      times x m >>= fun front => times x n >>= fun back => pure (front ++ back) := by
  induction m with
  | zero => simp [times]
  | succ m ih =>
      rw [Nat.add_right_comm]
      simp only [times, ih, bind_assoc, pure_bind, List.cons_append]

/-- As many bytes as the front of the tape has are consumed at once. -/
theorem times_byte (bs : Bytes) (t : Tape) :
    times byte bs.length (ofBytes bs ++ t) = .ok bs t := by
  induction bs with
  | nil => rfl
  | cons b bs ih =>
      show (times byte bs.length >>= fun rest => pure (b :: rest) : Scan Bytes)
        (ofBytes bs ++ t) = _
      simp only [bind, EStateM.bind, ih]
      rfl

/-- A line is read byte by byte. -/
theorem lineAfter_eq (before : Bytes) :
    lineAfter before = byte >>= fun b =>
      if b = 10 then MonadExcept.ofExcept (Reader.withoutReturn before)
      else lineAfter (before ++ [b]) := by
  funext t
  show _ = EStateM.bind byte _ t
  rw [EStateM.bind]
  match t with
  | .byte b :: t =>
      rw [lineAfter]
      show _ = (if b = 10 then _ else _ : Scan Bytes) t
      split <;> rfl
  | .eof :: t => rfl
  | .failure e :: t => rfl
  | [] => rfl

/-- A line goes on over bytes without a line feed. -/
theorem lineAfter_append (before bs : Bytes) (t : Tape) (h : 10 ∉ bs) :
    lineAfter before (ofBytes bs ++ t) = lineAfter (before ++ bs) t := by
  induction bs generalizing before with
  | nil => simp
  | cons b bs ih =>
      have hb : b ≠ 10 := fun hb => h (hb ▸ List.mem_cons_self)
      have hbs : 10 ∉ bs := fun hm => h (List.mem_cons_of_mem _ hm)
      rw [ofBytes_cons, List.cons_append, lineAfter, if_neg hb, ih _ hbs, List.append_assoc,
        List.singleton_append]

/-- A line feed ends the line. -/
theorem lineAfter_feed (before : Bytes) (t : Tape) :
    lineAfter before (.byte 10 :: t)
      = (MonadExcept.ofExcept (Reader.withoutReturn before) : Scan Bytes) t := by
  rw [lineAfter, if_pos rfl]

/-! ## Where no byte comes -/

variable {t t' : Tape} {e : Error}

/-- Inside a frame the end of the stream is an error. -/
theorem byte_of_ended (h : ready t = .ok false t') :
    byte t = .error (.protocol .unexpectedEnd) t' := by
  match t, h with
  | .eof :: t, h =>
      cases h
      rfl
  | [], h =>
      cases h
      rfl

theorem byte_of_failed (h : ready t = .error e t') : byte t = .error e t' := by
  match t, h with
  | .failure text :: t, h =>
      cases h
      rfl

/-- A line stops where no byte comes. -/
theorem lineAfter_of_error (before : Bytes) (h : byte t = .error e t') :
    lineAfter before t = .error e t' := by
  match t, h with
  | .eof :: t, h =>
      cases h
      rfl
  | .failure text :: t, h =>
      cases h
      rfl
  | [], h =>
      cases h
      rfl

theorem times_of_error {x : Scan α} (n : Nat) (h : x t = .error e t') :
    times x (n + 1) t = .error e t' := by
  show (EStateM.bind x _) t = _
  rw [EStateM.bind, h]

/-! ## What is consumed -/

/-- What is left of the tape is its end, and a success has taken `k` bytes at least. -/
def Leaves (k : Nat) (t : Tape) : EStateM.Result Error Tape α → Prop
  | .ok _ t' => t' <:+ t ∧ t'.bytes.length + k ≤ t.bytes.length
  | .error _ t' => t' <:+ t

theorem Leaves.weaken {j k : Nat} {t : Tape} {x : EStateM.Result Error Tape α}
    (h : Leaves j t x) (hk : k ≤ j) : Leaves k t x := by
  cases x with
  | ok a t' => exact ⟨h.1, by have := h.2; omega⟩
  | error e t' => exact h

/-- The byte before the tape is taken, too. -/
theorem Leaves.cons {k : Nat} {t : Tape} {x : EStateM.Result Error Tape α} (h : Leaves k t x)
    (b : UInt8) : Leaves (k + 1) (.byte b :: t) x := by
  cases x with
  | ok a t' =>
      have hlength := h.2
      refine ⟨h.1.trans (List.suffix_cons _ _), ?_⟩
      rw [bytes_byte_cons, List.length_cons]
      omega
  | error e t' => exact h.trans (List.suffix_cons _ _)

/-- Symbols are consumed from the front, and a success takes `k` bytes at least. -/
def Consumes (k : Nat) (x : Scan α) : Prop := ∀ t, Leaves k t (x t)

namespace Consumes

theorem weaken {j k : Nat} {x : Scan α} (h : Consumes j x) (hk : k ≤ j) : Consumes k x :=
  fun t => (h t).weaken hk

theorem pure (a : α) : Consumes 0 (Pure.pure a : Scan α) := fun _ =>
  ⟨List.suffix_rfl, Nat.le_refl _⟩

theorem throw (k : Nat) (e : Error) : Consumes k (MonadExcept.throw e : Scan α) := fun _ =>
  List.suffix_rfl

theorem ofExcept (x : Except Error α) : Consumes 0 (MonadExcept.ofExcept x : Scan α) := by
  cases x with
  | ok a => exact pure a
  | error e => exact throw 0 e

theorem bind {j k : Nat} {x : Scan α} {f : α → Scan β} (hx : Consumes j x)
    (hf : ∀ a, Consumes k (f a)) : Consumes (j + k) (x >>= f) := by
  intro t
  have ht := hx t
  show Leaves (j + k) t (EStateM.bind x f t)
  unfold EStateM.bind
  cases hxt : x t with
  | error e t' =>
      rw [hxt] at ht
      exact ht
  | ok a t' =>
      rw [hxt] at ht
      have hft := hf a t'
      show Leaves (j + k) t (f a t')
      cases hfa : f a t' with
      | ok b t'' =>
          rw [hfa] at hft
          exact ⟨hft.1.trans ht.1, by have := hft.2; have := ht.2; omega⟩
      | error e t'' =>
          rw [hfa] at hft
          exact hft.trans ht.1

/-- What follows a computation need not take any bytes. -/
theorem bind_left {j : Nat} {x : Scan α} {f : α → Scan β} (hx : Consumes j x)
    (hf : ∀ a, Consumes 0 (f a)) : Consumes j (x >>= f) := bind hx hf

theorem byte : Consumes 1 Tape.byte := by
  intro t
  match t with
  | .byte b :: t => exact ⟨List.suffix_cons _ _, Nat.le_refl _⟩
  | .eof :: t => exact List.suffix_cons _ _
  | .failure e :: t => exact List.suffix_cons _ _
  | [] => exact List.suffix_rfl

theorem ready : Consumes 0 Tape.ready := by
  intro t
  match t with
  | .byte b :: t => exact ⟨List.suffix_rfl, Nat.le_refl _⟩
  | .eof :: t => exact ⟨List.suffix_cons _ _, Nat.le_refl _⟩
  | .failure e :: t => exact List.suffix_cons _ _
  | [] => exact ⟨List.suffix_rfl, Nat.le_refl _⟩

theorem times {x : Scan α} (hx : Consumes 0 x) (n : Nat) : Consumes 0 (times x n) := by
  induction n with
  | zero => exact pure []
  | succ n ih => exact bind hx fun a => bind_left ih fun rest => pure (a :: rest)

theorem lineAfter (before : Bytes) : Consumes 1 (lineAfter before) := by
  intro t
  induction t generalizing before with
  | nil => exact List.suffix_rfl
  | cons c t ih =>
      cases c with
      | eof => exact List.suffix_cons _ _
      | failure e => exact List.suffix_cons _ _
      | byte b =>
          by_cases hb : b = 10
          · subst hb
            rw [lineAfter_feed]
            exact (ofExcept _ t).cons 10
          · rw [Tape.lineAfter, if_neg hb]
            exact ((ih (before ++ [b])).cons b).weaken (by omega)

theorem integer : Consumes 1 integer :=
  bind_left (lineAfter []) fun _ => ofExcept _

theorem mark (b : UInt8) : Consumes 1 (mark b) := by
  refine bind_left byte fun c => ?_
  split
  · exact pure ()
  · exact throw 0 _

theorem payload (n : Nat) : Consumes 0 (payload n) := by
  unfold Tape.payload
  refine bind (k := 0) (times (byte.weaken (by omega)) n) fun data => ?_
  exact (bind (mark 13) fun _ => bind (mark 10) fun _ => pure data).weaken (by omega)

theorem sized (negative : Int64 → ParseError) {contents : Nat → Scan Reply}
    (h : ∀ n, Consumes 0 (contents n)) : Consumes 0 (sized negative contents) := by
  refine (bind_left integer fun n => ?_).weaken (by omega)
  split
  · exact pure _
  · split
    · exact throw 0 _
    · exact h _

theorem frame (depth : Nat) : Consumes 1 (frame depth) := by
  induction depth with
  | zero => exact throw 1 _
  | succ depth ih =>
      have hline : Consumes 0 Tape.line := (lineAfter []).weaken (by omega)
      unfold Tape.frame
      refine bind_left byte fun b => ?_
      split
      · exact bind_left hline fun l => pure _
      · exact bind_left hline fun l => pure _
      · exact bind_left (integer.weaken (by omega)) fun n => pure _
      · exact sized _ fun n => bind_left (payload n) fun data => pure _
      · exact sized _ fun n => bind_left (times (ih.weaken (by omega)) n) fun items => pure _
      · exact throw 0 _

theorem get : Consumes 0 (MonadState.get : Scan Tape) := fun _ =>
  ⟨List.suffix_rfl, Nat.le_refl _⟩

theorem reply? : Consumes 0 reply? := by
  refine bind_left get fun t => bind_left ready fun more => ?_
  cases more with
  | false => exact pure none
  | true => exact bind_left ((frame _).weaken (by omega)) fun reply => pure (some reply)

end Consumes

/-! ## Calls -/

theorem length_bytes_le {t u : Tape} (h : t <:+ u) : t.bytes.length ≤ u.bytes.length :=
  (h.filterMap _).length_le

theorem next_suffix (t : Tape) : (next t).2 <:+ t := by
  have hleaves := Consumes.reply? t
  unfold next
  cases h : reply? t with
  | ok reply t' =>
      rw [h] at hleaves
      cases reply with
      | none => exact hleaves.1
      | some reply => exact hleaves.1
  | error e t' =>
      rw [h] at hleaves
      exact hleaves

/-- One more call goes on where the calls before it have stopped. -/
theorem calls_succ (n : Nat) (t : Tape) :
    calls (n + 1) t
      = ((calls n t).1 ++ [(next (calls n t).2).1], (next (calls n t).2).2) := by
  induction n generalizing t with
  | zero => rfl
  | succ n ih =>
      rw [calls, ih]
      rfl

/-- What the calls leave is the end of the tape: they take its front, whatever their outcomes. -/
theorem calls_suffix (n : Nat) (t : Tape) : (calls n t).2 <:+ t := by
  induction n generalizing t with
  | zero => exact List.suffix_rfl
  | succ n ih => exact (ih (next t).2).trans (next_suffix t)

end Tape

end RespMux
