import RespMux.Proofs.Reading.Grammar

/-!
# Reading comes to an end

A length line can announce any number of bytes or frames, and a frame can contain frames as deep as
it likes. The loops of this file go on for as long as the lengths tell them to, and so deep; where
one is cut off, it is still running and has no result. On a finite source they come to an end all
the same, and it is not the lengths that decide when: each round of a line and of a bulk string
takes a byte, and each frame takes its type mark, so that one round more than there are bytes ahead
is enough for each loop and for the depth.

What a reply is made of is bounded by what it has cost: three bytes for each node at least, and a
byte for each byte of its contents.
-/

set_option autoImplicit false

namespace RespMux

variable {α β : Type}

/-- A computation that consumes bytes from a reader and may still be running; then it has no
result. -/
abbrev Running := ExceptT Error (StateT Reader Option)

namespace Running

/-- What a computation that has ended yields. -/
def ended : EStateM.Result Error Reader α → Option (Except Error α × Reader)
  | .ok a r => some (.ok a, r)
  | .error e r => some (.error e, r)

/-- A computation that ends, as one that may not. -/
def of (x : Reading α) : Running α := fun r => ended (x r)

theorem of_eq (x : Reading α) (r : Reader) : of x r = ended (x r) := rfl

/-- A computation that is cut off. -/
def still : Running α := fun _ => none

/-! ## The loops -/

/-- Consumes bytes up to the next line feed, in so many rounds; `pieces` are those of the line so
far. -/
def lineFrom : Nat → List Bytes → Running Bytes
  | 0, _ => still
  | steps + 1, pieces => do
      of Reader.need
      let bs ← of Reader.takeBuffer
      match bs.dropWhile (· != 10) with
      | [] => lineFrom steps (bs :: pieces)
      | _ :: rest =>
          of (Reader.putBack rest)
          of (MonadExcept.ofExcept
            (Reader.withoutReturn (Reader.assemble (bs.takeWhile (· != 10) :: pieces))))

/-- Consumes `n` bytes, a buffer at a time and in so many rounds; `pieces` are those before them. -/
def exactlyFrom : Nat → Nat → List Bytes → Running Bytes
  | _, 0, pieces => pure (Reader.assemble pieces)
  | 0, _ + 1, _ => still
  | steps + 1, n + 1, pieces => do
      of Reader.need
      let bs ← of Reader.takeBuffer
      of (Reader.putBack (bs.drop (n + 1)))
      exactlyFrom steps (n + 1 - bs.length) (bs.take (n + 1) :: pieces)

/-- Consumes a line that spells an integer. -/
def integer (steps : Nat) : Running Int64 := do
  of (MonadExcept.ofExcept ((integerLine? (← lineFrom steps [])).mapError .protocol))

/-- Consumes the bytes of a bulk string and the line end after them. -/
def payload (steps n : Nat) : Running Bytes := do
  let data ← exactlyFrom steps n []
  of (Reader.mark 13)
  of (Reader.mark 10)
  pure data

mutual

/-- Consumes one frame, so deep. -/
def frame : Nat → Running Reply
  | 0 => still
  | steps + 1 => do
      match ← of Reader.byte with
      | 43 => return .status (← lineFrom steps [])
      | 45 => return .error (Utf8.lossy (← lineFrom steps []))
      | 58 => return .integer (← integer steps)
      | 36 =>
          let n ← integer steps
          if n = -1 then return .bulk none
          else if n < 0 then throw (.protocol (.invalidBulkLength n))
          else return .bulk (some (← payload steps n.toInt.toNat))
      | 42 =>
          let n ← integer steps
          if n = -1 then return .bulk none
          else if n < 0 then throw (.protocol (.invalidArrayLength n))
          else return .multi (← frames steps n.toInt.toNat [])
      | mark => throw (.protocol (.unknownMark mark))

/-- Consumes `n` more frames of an array; `items` are those before them, the last one first. -/
def frames : Nat → Nat → List Reply → Running (List Reply)
  | _, 0, items => pure items.reverse
  | 0, _ + 1, _ => still
  | steps + 1, n + 1, items => do
      let item ← frame steps
      frames steps n (item :: items)

end

/-- Consumes the next reply, in so many rounds of each loop; none if the stream ends before it
starts. -/
def reply? (steps : Nat) : Running (Option Reply) := do
  if ← of Reader.fill then return some (← frame steps)
  else return none

/-! ## Loops that end -/

/-- With fewer than `n` bytes ahead, the loop ends with what the bounded computation yields. -/
def Agrees (n : Nat) (x : Running α) (y : Reading α) : Prop :=
  ∀ r : Reader, r.remaining < n → x r = of y r

namespace Agrees

theorem refl (n : Nat) (x : Reading α) : Agrees n (of x) x := fun _ _ => rfl

theorem zero (x : Running α) (y : Reading α) : Agrees 0 x y := fun _ hr =>
  absurd hr (Nat.not_lt_zero _)

theorem pure (n : Nat) (a : α) : Agrees n (Pure.pure a) (Pure.pure a) := fun _ _ => rfl

theorem throw (n : Nat) (e : Error) :
    Agrees n (MonadExcept.throw e : Running α) (MonadExcept.throw e) := fun _ _ => rfl

end Agrees

/-- A computation that ends is followed by the next one, unless it has failed. -/
theorem of_bind (x : Reading α) (f : α → Running β) (r : Reader) :
    (of x >>= f) r =
      match x r with
      | .ok a r' => f a r'
      | .error e r' => some (.error e, r') := by
  show Option.bind (ended (x r)) _ = _
  cases x r with
  | ok a r' => rfl
  | error e r' => rfl

theorem bind_congr {x y : Running α} {r : Reader} (h : x r = y r) (f : α → Running β) :
    (x >>= f) r = (y >>= f) r := congrArg (Option.bind · _) h

/-- What comes after a computation has fewer bytes ahead by those that it consumes. -/
theorem Agrees.bind {n k : Nat} {x : Running α} {y : Reading α} {z : Tape.Scan α}
    {f : α → Running β} {g : α → Reading β} (hx : Agrees n x y) (hy : Reader.Mirrors n y z)
    (hz : Tape.Consumes k z) (hf : ∀ a, Agrees (n - k) (f a) (g a)) :
    Agrees n (x >>= f) (y >>= g) := by
  intro r hr
  rw [bind_congr (hx r hr), of_bind]
  show _ = ended (EStateM.bind y g r)
  rw [EStateM.bind]
  have htape := hy r hr
  have hleaves := hz r.tape
  rw [← htape] at hleaves
  cases hres : y r with
  | error e r' => rfl
  | ok a r' =>
      rw [hres] at hleaves
      have hconsumed := hleaves.2
      refine hf a r' ?_
      rw [Reader.remaining_eq] at hr ⊢
      omega

/-- One round of a line, on the bytes of the buffer. -/
theorem lineFrom_buffer (steps : Nat) (pieces : List Bytes) (r : Reader) (source : List Arrival)
    (bs : Bytes) (capacity : Nat) (hr : Reader.need r = .ok () ⟨source, bs, capacity⟩) :
    lineFrom (steps + 1) pieces r =
      match bs.dropWhile (· != 10) with
      | [] => lineFrom steps (bs :: pieces) ⟨source, [], capacity⟩
      | _ :: rest =>
          of (MonadExcept.ofExcept
            (Reader.withoutReturn (Reader.assemble (bs.takeWhile (· != 10) :: pieces))))
            ⟨source, rest, capacity⟩ := by
  rw [lineFrom, of_bind, hr]
  show (match bs.dropWhile (· != 10) with
    | [] => lineFrom steps (bs :: pieces)
    | _ :: rest => (of (Reader.putBack rest) >>= fun _ => of (MonadExcept.ofExcept
        (Reader.withoutReturn (Reader.assemble (bs.takeWhile (· != 10) :: pieces)))) :
          Running Bytes)) ⟨source, [], capacity⟩ = _
  cases bs.dropWhile (· != 10) with
  | nil => rfl
  | cons c rest => exact of_bind _ _ _

/-- A value that is looked at without reading on. -/
theorem Agrees.map {n : Nat} {x : Running α} {y : Reading α} (h : Agrees n x y) (f : α → β) :
    Agrees n (x >>= fun a => Pure.pure (f a)) (y >>= fun a => Pure.pure (f a)) := by
  intro r hr
  rw [bind_congr (h r hr), of_bind]
  show _ = ended (EStateM.bind y _ r)
  rw [EStateM.bind]
  cases y r with
  | ok a r' => rfl
  | error e r' => rfl

/-- A line without an end in sight stops where no byte comes. -/
theorem lineFrom_agrees {n steps rounds : Nat} (hsteps : n ≤ steps) (hrounds : n ≤ rounds)
    (pieces : List Bytes) : Agrees n (lineFrom steps pieces) (Reader.lineFrom rounds pieces) := by
  induction steps generalizing n rounds pieces with
  | zero =>
      obtain rfl : n = 0 := by omega
      exact Agrees.zero _ _
  | succ steps ih =>
      intro r hrem
      obtain ⟨rounds, rfl⟩ : ∃ k, rounds = k + 1 := ⟨rounds - 1, by omega⟩
      obtain ⟨b, bs, r', hr, hb, ht⟩ | ⟨e, r', hr, ht⟩ := Reader.need_cases r
      · obtain ⟨source, buffer, capacity⟩ := r'
        rw [Reader.remaining_eq, ← ht, ← Reader.remaining_eq] at hrem
        rw [lineFrom_buffer steps pieces r _ _ _ hr, of_eq,
          Reader.lineFrom_buffer rounds pieces r _ _ _ hr]
        cases hdrop : buffer.dropWhile (· != 10) with
        | nil =>
            -- the whole buffer is a piece of the line
            have hshorter : Reader.remaining ⟨source, [], capacity⟩ < n - 1 := by
              have hbuffer : buffer.length = bs.length + 1 := congrArg List.length hb
              simp only [Reader.remaining, List.length_nil] at hrem ⊢
              omega
            exact ih (by omega) (by omega) _ _ hshorter
        | cons c rest => rfl
      · have hbounded : Reader.lineFrom (rounds + 1) pieces r = .error e r' := by
          show EStateM.bind Reader.need _ r = _
          rw [EStateM.bind, hr]
        rw [lineFrom, of_bind, hr, of_eq, hbounded]
        rfl

/-- However many bytes are announced, each round takes one of those that are there. -/
theorem exactlyFrom_agrees {n steps rounds k : Nat} (hsteps : n ≤ steps) (hrounds : k ≤ rounds)
    (pieces : List Bytes) :
    Agrees n (exactlyFrom steps k pieces) (Reader.exactlyFrom rounds k pieces) := by
  induction steps generalizing n rounds k pieces with
  | zero =>
      obtain rfl : n = 0 := by omega
      exact Agrees.zero _ _
  | succ steps ih =>
      intro r hrem
      cases k with
      | zero =>
          rw [exactlyFrom, of_eq, Reader.exactlyFrom]
          rfl
      | succ k =>
          obtain ⟨rounds, rfl⟩ : ∃ k, rounds = k + 1 := ⟨rounds - 1, by omega⟩
          rw [exactlyFrom, of_bind]
          show _ = ended (EStateM.bind Reader.need _ r)
          rw [EStateM.bind]
          obtain ⟨b, bs, r', hr, hb, ht⟩ | ⟨e, r', hr, ht⟩ := Reader.need_cases r
          · obtain ⟨source, buffer, capacity⟩ := r'
            have hbuffer : buffer.length = bs.length + 1 := congrArg List.length hb
            rw [Reader.remaining_eq, ← ht, ← Reader.remaining_eq] at hrem
            have hshorter : Reader.remaining ⟨source, buffer.drop (k + 1), capacity⟩ < n - 1 := by
              simp only [Reader.remaining, List.length_drop] at hrem ⊢
              omega
            have hleft : k + 1 - buffer.length ≤ rounds := by omega
            rw [hr]
            exact ih (by omega) hleft _ _ hshorter
          · rw [hr]
            rfl

theorem integer_agrees {n steps rounds : Nat} (hsteps : n ≤ steps) (hrounds : n ≤ rounds) :
    Agrees n (integer steps) (Reader.integer rounds) :=
  (lineFrom_agrees hsteps hrounds []).bind (Reader.line_mirrors hrounds)
    (Tape.Consumes.lineAfter []) fun _ => Agrees.refl _ _

theorem payload_agrees {n steps : Nat} (hsteps : n ≤ steps) (k : Nat) :
    Agrees n (payload steps k) (Reader.payload k) := by
  have hbytes : Tape.Consumes 0 (Tape.times Tape.byte k) :=
    Tape.Consumes.times (Tape.Consumes.byte.weaken (by omega)) k
  rw [Reader.payload_eq]
  refine (exactlyFrom_agrees hsteps (Nat.le_refl k) []).bind (Reader.exactly_mirrors n k) hbytes
    fun data => ?_
  refine (Agrees.refl _ _).bind (Reader.mark_mirrors _ 13) (Tape.Consumes.mark 13) fun _ => ?_
  refine (Agrees.refl _ _).bind (Reader.mark_mirrors _ 10) (Tape.Consumes.mark 10) fun _ => ?_
  exact Agrees.pure _ data

/-- The frames of an array, when the one in front agrees and those behind it do. -/
theorem frames_step {n steps rounds : Nat} (hrounds : n ≤ rounds)
    (hframe : Agrees n (frame steps) (Reader.frame rounds))
    (hframes : ∀ k items,
      Agrees (n - 1) (frames steps k items) (Reader.frames rounds k items))
    (k : Nat) (items : List Reply) :
    Agrees n (frames (steps + 1) k items) (Reader.frames (rounds + 1) k items) := by
  cases k with
  | zero =>
      rw [frames, Reader.frames]
      exact Agrees.pure n items.reverse
  | succ k =>
      rw [frames, Reader.frames]
      exact hframe.bind (Reader.frame_mirrors hrounds (Nat.le_refl n)) (Tape.Consumes.frame n)
        fun item => hframes k (item :: items)

/-- A frame, when the frames in it agree. -/
theorem frame_step {n steps rounds : Nat} (hsteps : n ≤ steps + 1) (hrounds : n ≤ rounds + 1)
    (hframes : ∀ k, Agrees (n - 1 - 1) (frames steps k []) (Reader.frames rounds k [])) :
    Agrees n (frame (steps + 1)) (Reader.frame (rounds + 1)) := by
  have hline : Agrees (n - 1) (lineFrom steps []) (Reader.line rounds) :=
    lineFrom_agrees (by omega) (by omega) []
  have hinteger : Agrees (n - 1) (integer steps) (Reader.integer rounds) :=
    integer_agrees (by omega) (by omega)
  have hintegers : Reader.Mirrors (n - 1) (Reader.integer rounds) Tape.integer :=
    Reader.integer_mirrors (by omega)
  unfold frame Reader.frame
  refine (Agrees.refl n Reader.byte).bind (Reader.byte_mirrors n) Tape.Consumes.byte fun b => ?_
  split
  · exact hline.map _
  · exact hline.map _
  · exact hinteger.map _
  · refine hinteger.bind hintegers Tape.Consumes.integer fun l => ?_
    split
    · exact Agrees.pure _ _
    · split
      · exact Agrees.throw _ _
      · exact (payload_agrees (by omega) _).map _
  · refine hinteger.bind hintegers Tape.Consumes.integer fun l => ?_
    split
    · exact Agrees.pure _ _
    · split
      · exact Agrees.throw _ _
      · exact (hframes _).map _
  · -- no other byte is a type mark
    next h43 h45 h58 h36 h42 =>
    have hthrow : Agrees (n - 1) (throw (.protocol (.unknownMark b)) : Running Reply)
        (throw (.protocol (.unknownMark b))) := Agrees.throw _ _
    simpa only [h43, h45, h58, h36, h42] using hthrow

/-- A frame takes one of its steps for its type mark, and an array one for each frame in it: the
steps that are left are always more than the bytes ahead. -/
theorem frame_frames_agree (steps : Nat) :
    (∀ {n rounds : Nat}, n ≤ steps → n ≤ rounds → Agrees n (frame steps) (Reader.frame rounds))
      ∧ ∀ {n rounds : Nat} (k : Nat) (items : List Reply), n ≤ steps - 1 → n ≤ rounds - 1 →
        Agrees n (frames steps k items) (Reader.frames rounds k items) := by
  induction steps with
  | zero =>
      constructor
      · intro n rounds hsteps _
        obtain rfl : n = 0 := by omega
        exact Agrees.zero _ _
      · intro n rounds k items hsteps _
        obtain rfl : n = 0 := by omega
        exact Agrees.zero _ _
  | succ steps ih =>
      constructor
      · intro n rounds hsteps hrounds
        cases rounds with
        | zero =>
            obtain rfl : n = 0 := by omega
            exact Agrees.zero _ _
        | succ rounds =>
            exact frame_step hsteps hrounds fun k => ih.2 k [] (by omega) (by omega)
      · intro n rounds k items hsteps hrounds
        cases rounds with
        | zero =>
            obtain rfl : n = 0 := by omega
            exact Agrees.zero _ _
        | succ rounds =>
            exact frames_step (by omega) (ih.1 (by omega) (by omega))
              (fun k items => ih.2 k items (by omega) (by omega)) k items

/-- With more steps than there are bytes ahead, a call for the next reply comes to its end. -/
theorem reply?_ends {r : Reader} {steps : Nat} (hsteps : r.remaining < steps) :
    reply? steps r = of Reader.reply? r := by
  have hagrees : Agrees (r.remaining + 1) (reply? steps)
      (Reader.replyWithin (r.remaining + 1)) := by
    refine (Agrees.refl _ _).bind (Reader.fill_mirrors _) Tape.Consumes.ready fun more => ?_
    cases more with
    | false => exact Agrees.pure _ none
    | true => exact ((frame_frames_agree steps).1 hsteps (Nat.le_refl _)).map some
  exact hagrees r (Nat.lt_succ_self _)

end Running

/-! ## Costs -/

namespace Reply

mutual

/-- What a reply and all items in it add up to. -/
def total (f : Reply → Nat) : Reply → Nat
  | multi items => f (multi items) + totals f items
  | r => f r

/-- What some replies and all items in them add up to. -/
def totals (f : Reply → Nat) : List Reply → Nat
  | [] => 0
  | item :: items => total f item + totals f items

end

/-- How many bytes a reply has itself, if it is a status line or a bulk string. -/
def width (r : Reply) : Nat := (r.payload?.getD []).length

/-- How many nodes a reply has: itself and all items in it. -/
def nodes (r : Reply) : Nat := total (fun _ => 1) r

/-- How many bytes the status lines and the bulk strings in a reply have. -/
def contents (r : Reply) : Nat := total width r

theorem nodes_pos (r : Reply) : 0 < r.nodes := by
  cases r with
  | multi items =>
      show 0 < 1 + totals _ items
      omega
  | status | error | integer | bulk | timing => exact Nat.one_pos

end Reply

/-- A frame has three bytes for each node of its reply and then those of the contents. -/
theorem Framed.cost_le {b : Bytes} {r : Reply} (h : Framed b r) :
    3 * r.nodes + r.contents ≤ b.length := by
  -- by induction on the frame, and in an array on the frames that come one after the other
  refine @Framed.rec (fun b r _ => 3 * r.nodes + r.contents ≤ b.length)
    (fun parts items _ => 3 * Reply.totals (fun _ => 1) items + Reply.totals Reply.width items
      ≤ parts.flatten.length)
    ?status ?error ?integer ?bulk ?nullBulk ?nullArray ?array ?none ?more b r h
  case status =>
    intro l _
    show 3 * 1 + l.length ≤ (43 :: (l ++ crlf)).length
    simp [crlf]
    omega
  case error =>
    intro l _
    show 3 * 1 + 0 ≤ (45 :: (l ++ crlf)).length
    simp [crlf]
  case integer =>
    intro d n _
    show 3 * 1 + 0 ≤ (58 :: (d ++ crlf)).length
    simp [crlf]
  case bulk =>
    intro d data n _ _
    show 3 * 1 + data.length ≤ (36 :: (d ++ crlf ++ (data ++ crlf))).length
    simp [crlf]
    omega
  case nullBulk =>
    intro d _
    show 3 * 1 + 0 ≤ (36 :: (d ++ crlf)).length
    simp [crlf]
  case nullArray =>
    intro d _
    show 3 * 1 + 0 ≤ (42 :: (d ++ crlf)).length
    simp [crlf]
  case array =>
    intro d n parts items _ _ _ hparts
    show 3 * (1 + Reply.totals _ items) + (0 + Reply.totals Reply.width items)
      ≤ (42 :: (d ++ crlf ++ parts.flatten)).length
    simp only [crlf, List.length_cons, List.length_append]
    omega
  case none => exact Nat.le_refl 0
  case more =>
    intro part item parts items _ _ hpart hparts
    show 3 * (item.nodes + Reply.totals _ items) + (item.contents + Reply.totals Reply.width items)
      ≤ (part ++ parts.flatten).length
    rw [List.length_append]
    omega

namespace Reader

/-- A call for the next reply comes to an end, whatever lengths are announced: the loops need no
more rounds, and go no deeper, than there are bytes ahead and one more. It takes the front of what
is ahead. For a reply it takes three bytes at least, three for each node of the reply, and as many
as its status lines and bulk strings have. -/
theorem reply_terminates (r : Reader) :
    ∃ outcome r', (∀ steps, r.remaining < steps → Running.reply? steps r = some (outcome, r'))
      ∧ Running.ended (reply? r) = some (outcome, r')
      ∧ r'.tape <:+ r.tape
      ∧ ∀ reply, outcome = .ok (some reply) →
        ∃ taken, r.tape = Tape.ofBytes taken ++ r'.tape ∧ 3 ≤ taken.length
          ∧ 3 * reply.nodes ≤ taken.length ∧ reply.contents ≤ taken.length := by
  have htape := reply?_tape r
  have hleaves := Tape.Consumes.reply? r.tape
  rw [← htape] at hleaves
  cases hr : reply? r with
  | error e r' =>
      rw [hr] at hleaves
      refine ⟨.error e, r', fun steps hsteps => ?_, rfl, hleaves, fun reply h => by cases h⟩
      rw [Running.reply?_ends hsteps, Running.of_eq, hr]
      rfl
  | ok found r' =>
      rw [hr] at htape hleaves
      refine ⟨.ok found, r', fun steps hsteps => ?_, rfl, hleaves.1, fun reply h => ?_⟩
      · rw [Running.reply?_ends hsteps, Running.of_eq, hr]
        rfl
      · cases h
        obtain ⟨taken, ht, hframe⟩ := Tape.reply?_eq_some_iff.mp htape.symm
        have hcost := hframe.cost_le
        have hnodes := reply.nodes_pos
        exact ⟨taken, ht, by omega, by omega, by omega⟩

/-- A length line that announces more bytes than can ever come. -/
theorem reply_terminates_hugeLength :
    ∃ r', Running.reply? 25 (ofChunks [[36, 57, 50, 50, 51, 51, 55, 50, 48, 51, 54, 56, 53, 52, 55, 55,
        53, 56, 48, 55, 13, 10, 97, 98]] 16) = some (.error (.protocol .unexpectedEnd), r') := by
  obtain ⟨outcome, r', hsteps, hended, _⟩ := reply_terminates (ofChunks [[36, 57, 50, 50, 51, 51, 55,
    50, 48, 51, 54, 56, 53, 52, 55, 55, 53, 56, 48, 55, 13, 10, 97, 98]] 16)
  have houtcome : .error (.protocol .unexpectedEnd) = outcome :=
    Option.some.inj (congrArg (Option.map Prod.fst) hended)
  rw [← houtcome] at hsteps
  exact ⟨r', hsteps 25 (by decide)⟩

end Reader

end RespMux
