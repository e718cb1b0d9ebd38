import RespMux.Request

/-!
# A server with several databases

The server executes each command in the database that is selected at that moment. It accepts every
choice of a database. Inside a block it queues the commands, choices included, and executes them
only when the block is run; a block may as well be aborted, and which blocks are is not known
beforehand.

The server keeps a log of what it has executed and where. What the log should say is written beside
each command (`Sent.target`), where the server does not look.
-/

set_option autoImplicit false

namespace RespMux

namespace Frame

/-- The database that a command chooses, if that is what it does. -/
def chosen? (f : Frame) : Option Database :=
  match f.command, f.args with
  | .select, [.integer n] => some (UInt32.ofNat n.toNatClampNeg)
  | _, _ => none

/-- The command is executed or queued like any other: it neither starts nor ends a block. -/
def IsPlain (f : Frame) : Prop :=
  f.command ≠ .multi ∧ f.command ≠ .exec ∧ f.command ≠ .discard

theorem chosen?_of_ne {f : Frame} (h : f.command ≠ .select) : f.chosen? = none := by
  unfold chosen?
  split
  · next hc _ => exact absurd hc h
  · rfl

theorem chosen?_select (d : Database) : (Request.select d).frame.chosen? = some d := by
  have hlt : d.toNat < 2 ^ 63 := Nat.lt_trans d.toNat_lt (by decide)
  show some (UInt32.ofNat (Int64.ofNat d.toNat).toNatClampNeg) = some d
  rw [Int64.toNatClampNeg_ofNat_of_lt hlt, UInt32.ofNat_toNat]

end Frame

/-- A command as the server receives it, and the database it is meant for, if there is one. -/
structure Sent where
  frame : Frame
  target : Option Database
  deriving DecidableEq, Repr, Inhabited

/-- The server. -/
structure Backend where
  db : Database := 0
  /-- the commands that an open block has queued -/
  block : Option (List Sent) := none
  /-- how many blocks have come to their end -/
  ended : Nat := 0
  /-- what has been executed, with the database that was selected then -/
  executed : List (Sent × Database) := []
  deriving DecidableEq, Repr, Inhabited

namespace Backend

/-- Executes a command. -/
def execute (t : Backend) (c : Sent) : Backend :=
  { t with db := c.frame.chosen?.getD t.db, executed := t.executed ++ [(c, t.db)] }

/-- Receives a command. Whether a block is run when its end comes is decided by `runs`. -/
def receive (runs : Nat → Bool) (t : Backend) (c : Sent) : Backend :=
  match t.block with
  | none =>
      if c.frame.command = .multi then { t with block := some [] }
      else if c.frame.command = .exec ∨ c.frame.command = .discard then t
      else t.execute c
  | some queued =>
      if c.frame.command = .multi then t
      else if c.frame.command = .discard then { t with block := none }
      else if c.frame.command = .exec then
        let ended := { t with block := none, ended := t.ended + 1 }
        if runs t.ended then queued.foldl execute ended else ended
      else { t with block := some (queued ++ [c]) }

/-- Receives several commands. -/
def feed (runs : Nat → Bool) (t : Backend) (cs : List Sent) : Backend := cs.foldl (receive runs) t

variable {runs : Nat → Bool} {t : Backend} {c : Sent} {cs : List Sent}

theorem feed_append (runs : Nat → Bool) (t : Backend) (cs cs' : List Sent) :
    t.feed runs (cs ++ cs') = (t.feed runs cs).feed runs cs' :=
  List.foldl_append

/-! ## The log only grows -/

theorem foldl_execute_executed (t : Backend) (cs : List Sent) :
    t.executed <+: (cs.foldl execute t).executed := by
  induction cs generalizing t with
  | nil => exact List.prefix_rfl
  | cons c cs ih => exact (List.prefix_append _ _).trans (ih (t.execute c))

theorem receive_executed (runs : Nat → Bool) (t : Backend) (c : Sent) :
    t.executed <+: (t.receive runs c).executed := by
  unfold receive
  split
  · split
    · exact List.prefix_rfl
    · split
      · exact List.prefix_rfl
      · exact List.prefix_append _ _
  · split
    · exact List.prefix_rfl
    · split
      · exact List.prefix_rfl
      · split
        · dsimp only
          split
          · exact foldl_execute_executed { t with block := none, ended := t.ended + 1 } _
          · exact List.prefix_rfl
        · exact List.prefix_rfl

theorem feed_executed (runs : Nat → Bool) (t : Backend) (cs : List Sent) :
    t.executed <+: (t.feed runs cs).executed := by
  induction cs generalizing t with
  | nil => exact List.prefix_rfl
  | cons c cs ih => exact (receive_executed runs t c).trans (ih (t.receive runs c))

/-! ## Outside and inside of blocks -/

/-- Outside of a block a command is executed at once. -/
theorem receive_plain (h : t.block = none) (hc : c.frame.IsPlain) :
    t.receive runs c = t.execute c := by
  obtain ⟨hmulti, hexec, hdiscard⟩ := hc
  unfold receive
  rw [h]
  dsimp only
  rw [if_neg hmulti, if_neg (not_or.mpr ⟨hexec, hdiscard⟩)]

/-- A block begins. -/
theorem receive_multi (h : t.block = none) (hc : c.frame.command = .multi) :
    t.receive runs c = { t with block := some [] } := by
  unfold receive
  rw [h]
  dsimp only
  rw [if_pos hc]

/-- Inside of a block a command is queued. -/
theorem receive_queued {queued : List Sent} (h : t.block = some queued) (hc : c.frame.IsPlain) :
    t.receive runs c = { t with block := some (queued ++ [c]) } := by
  obtain ⟨hmulti, hexec, hdiscard⟩ := hc
  unfold receive
  rw [h]
  dsimp only
  rw [if_neg hmulti, if_neg hdiscard, if_neg hexec]

/-- A block ends, and is run or not. -/
theorem receive_exec {queued : List Sent} (h : t.block = some queued)
    (hc : c.frame.command = .exec) :
    t.receive runs c
      = if runs t.ended then queued.foldl execute { t with block := none, ended := t.ended + 1 }
        else { t with block := none, ended := t.ended + 1 } := by
  unfold receive
  rw [h]
  dsimp only
  rw [if_neg (by rw [hc]; decide), if_neg (by rw [hc]; decide), if_pos hc]

/-- Inside of a block the commands are queued. -/
theorem feed_queued {queued : List Sent} (h : t.block = some queued)
    (hcs : ∀ c ∈ cs, c.frame.IsPlain) :
    t.feed runs cs = { t with block := some (queued ++ cs) } := by
  induction cs generalizing t queued with
  | nil =>
      rw [List.append_nil, ← h]
      rfl
  | cons c cs ih =>
      show (t.receive runs c).feed runs cs = _
      rw [receive_queued h (hcs c List.mem_cons_self),
        ih rfl fun c hc => hcs c (List.mem_cons_of_mem _ hc), List.append_assoc]
      rfl

/-- A whole block is executed at its end, or has no effect. -/
theorem feed_block {multi exec : Sent} (h : t.block = none) (hmulti : multi.frame.command = .multi)
    (hcs : ∀ c ∈ cs, c.frame.IsPlain) (hexec : exec.frame.command = .exec) :
    t.feed runs (multi :: cs ++ [exec])
      = if runs t.ended then cs.foldl execute { t with ended := t.ended + 1 }
        else { t with ended := t.ended + 1 } := by
  -- no block was open, so none is open afterwards
  have hclosed : ({ t with block := none, ended := t.ended + 1 } : Backend)
      = { t with ended := t.ended + 1 } := by rw [← h]
  rw [feed_append]
  show ((t.receive runs multi).feed runs cs).receive runs exec = _
  rw [receive_multi h hmulti, feed_queued rfl hcs, List.nil_append, receive_exec rfl hexec]
  show (if runs t.ended then cs.foldl execute { t with block := none, ended := t.ended + 1 }
    else { t with block := none, ended := t.ended + 1 }) = _
  rw [hclosed]

/-! ## Following the commands -/

/-- Every command but a choice was executed in the database it was meant for. -/
def Routed (t : Backend) : Prop :=
  ∀ x ∈ t.executed, x.1.frame.command ≠ .select → ∀ d, x.1.target = some d → x.2 = d

/-- No block is open, the server is where it is believed to be, and it has always been where it
should. -/
structure Follows (t : Backend) (selected : Option Database) : Prop where
  block : t.block = none
  db : ∀ d, selected = some d → t.db = d
  routed : t.Routed

end Backend

/-- The command of a request. -/
def Request.sent (r : Request) : Sent := ⟨r.frame, r.db⟩

/-- What a caller may ask for: no start and no end of a block, and choices of a database only in the
form that is meant for them. -/
def Request.Routable (r : Request) : Prop :=
  r.sent.frame.IsPlain ∧ (r.command = .select → ∃ d, r = .select d)

theorem Request.select_routable (d : Database) : (Request.select d).Routable :=
  ⟨⟨(by decide : Literal.select ≠ .multi), (by decide : Literal.select ≠ .exec),
    (by decide : Literal.select ≠ .discard)⟩, fun _ => ⟨d, rfl⟩⟩

theorem Request.quit_routable : Request.quit.Routable :=
  ⟨⟨by decide, by decide, by decide⟩, fun h => by cases h⟩

namespace Backend

variable {t : Backend} {db : Option Database} {r : Request}

/-- A command goes where it should if its database is selected before it, or it is a choice. -/
theorem Follows.execute (h : t.Follows db) (hr : r.Routable)
    (hdb : ∀ d, r.db = some d → db = some d ∨ r.command = .select) :
    (t.execute r.sent).Follows (r.db.or db) := by
  by_cases hselect : r.command = .select
  · -- a choice moves the server to where it says
    obtain ⟨d, rfl⟩ := hr.2 hselect
    refine ⟨h.block, fun d' hd' => ?_, fun x hx hne => ?_⟩
    · obtain rfl : d = d' := Option.some.inj hd'
      show ((Request.select d).frame.chosen?).getD t.db = d
      rw [Frame.chosen?_select]
      rfl
    · rcases List.mem_append.mp hx with hx | hx
      · exact h.routed x hx hne
      · rw [List.mem_singleton.mp hx] at hne
        exact absurd rfl hne
  · -- any other command leaves it where it is
    have hstays : (t.execute r.sent).db = t.db := by
      show (r.frame.chosen?).getD t.db = t.db
      rw [Frame.chosen?_of_ne hselect]
      rfl
    have htarget : ∀ d, r.db = some d → db = some d := fun d hd =>
      (hdb d hd).resolve_right hselect
    refine ⟨h.block, fun d hd => ?_, fun x hx hne d hd => ?_⟩
    · rw [hstays]
      cases hrdb : r.db with
      | none =>
          rw [hrdb] at hd
          exact h.db d hd
      | some d' =>
          rw [hrdb] at hd
          obtain rfl : d' = d := Option.some.inj hd
          exact h.db d' (htarget d' hrdb)
    · rcases List.mem_append.mp hx with hx | hx
      · exact h.routed x hx hne d hd
      · rw [List.mem_singleton.mp hx] at hd ⊢
        exact h.db d (htarget d hd)

/-- The same at once, outside of a block. -/
theorem Follows.receive (h : t.Follows db) (runs : Nat → Bool) (hr : r.Routable)
    (hdb : ∀ d, r.db = some d → db = some d ∨ r.command = .select) :
    (t.receive runs r.sent).Follows (r.db.or db) := by
  rw [receive_plain h.block hr.1]
  exact h.execute hr hdb

/-- Where the server is believed to be may be forgotten. -/
theorem Follows.forget (h : t.Follows db) : t.Follows none where
  block := h.block
  db d hd := by cases hd
  routed := h.routed

theorem Follows.withEnded (h : t.Follows db) (n : Nat) :
    ({ t with ended := n } : Backend).Follows db :=
  ⟨h.block, h.db, h.routed⟩

end Backend

end RespMux
