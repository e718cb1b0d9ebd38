import Mathlib.Data.List.Induction
import RespMux.Proofs.Routing.Backend

/-!
# What the choices on the wire say

Which database is selected can be tracked from the commands alone, without a server: it is the one
that was chosen last. The choices in a block count as soon as they are written, but whether the
block is run is known only later, so after a block that has switched to another database nothing is
known (`Belief.hear`). That is the only way in which the database can be forgotten
(`forgotten_of_hearing`).

A server that runs every block executes the commands in the order in which they come. What it has
queued in an open block is executed before anything that comes later, so one may as well think of it
as executed already (`Backend.settled`). Of this server what is tracked is always right
(`Backend.Agrees`), inside of a block too.
-/

set_option autoImplicit false

namespace RespMux

/-! ## The tracked database -/

/-- What is known of the server from the commands that have been sent to it. -/
structure Belief where
  /-- the selected database, as far as it is known; in a block the one that its commands are for -/
  db : Option Database := some 0
  /-- a block is open, and whether it has switched to another database -/
  block : Option Bool := none
  deriving DecidableEq, Repr, Inhabited

namespace Belief

/-- One more command. -/
def hear (t : Belief) (c : Sent) : Belief :=
  if c.frame.command = .multi then { t with block := some false }
  else if c.frame.command = .exec then
    { db := if t.block = some true then none else t.db, block := none }
  else
    match c.frame.chosen? with
    | none => t
    | some d => { db := some d, block := t.block.map fun b => b || decide (t.db ≠ some d) }

variable {t : Belief} {c : Sent} {r : Request} {d : Database}

theorem hear_multi (t : Belief) (h : c.frame.command = .multi) :
    t.hear c = { t with block := some false } := by
  unfold hear
  rw [if_pos h]

theorem hear_exec (t : Belief) (h : c.frame.command = .exec) :
    t.hear c = { db := if t.block = some true then none else t.db, block := none } := by
  unfold hear
  rw [if_neg (by rw [h]; decide), if_pos h]

theorem hear_select (t : Belief) (d : Database) :
    t.hear (Request.select d).sent
      = { db := some d, block := t.block.map fun b => b || decide (t.db ≠ some d) } := by
  unfold hear
  rw [if_neg (Request.select_routable d).1.1, if_neg (Request.select_routable d).1.2.1,
    show (Request.select d).sent.frame.chosen? = some d from Frame.chosen?_select d]

/-- Only choices count. -/
theorem hear_of_ne (t : Belief) (hr : r.Routable) (h : r.command ≠ .select) :
    t.hear r.sent = t := by
  unfold hear
  rw [if_neg hr.1.1, if_neg hr.1.2.1,
    show r.sent.frame.chosen? = none from Frame.chosen?_of_ne h]

/-- In a block that began in the database `start`: whether it has been left is known, and if it has
not, it is still the one that is tracked. -/
structure Within (t : Belief) (start : Option Database) (left : Prop) : Prop where
  block : ∃ switched, t.block = some switched ∧ (switched = true ↔ left)
  stays : ¬ left → t.db = start

namespace Within

variable {start : Option Database} {left left' : Prop}

theorem congr (h : t.Within start left) (hiff : left ↔ left') : t.Within start left' := by
  rw [← propext hiff]
  exact h

/-- A block begins in the database that is tracked. -/
theorem multi (t : Belief) (h : c.frame.command = .multi) : (t.hear c).Within t.db False := by
  rw [hear_multi t h]
  exact ⟨⟨false, rfl, by simp⟩, fun _ => rfl⟩

/-- A command that is for the tracked database or chooses one by itself. -/
theorem hear (h : t.Within start left) (hr : r.Routable)
    (hstay : ∀ d, r.db = some d → t.db = some d ∨ r.command = .select) :
    (t.hear r.sent).Within start (left ∨ ∃ d, r.db = some d ∧ start ≠ some d)
      ∧ (t.hear r.sent).db = r.db.or t.db := by
  obtain ⟨⟨switched, hblock, hleft⟩, hdb⟩ := h
  by_cases hselect : r.command = .select
  · obtain ⟨d, rfl⟩ := hr.2 hselect
    have hmoves : (left ∨ ∃ d', (Request.select d).db = some d' ∧ start ≠ some d')
        ↔ left ∨ start ≠ some d := by simp [Request.select]
    rw [hear_select, hblock]
    refine ⟨⟨⟨_, rfl, ?_⟩, fun hnot => ?_⟩, rfl⟩
    · rw [hmoves, Bool.or_eq_true, hleft, decide_eq_true_iff]
      by_cases hl : left
      · simp [hl]
      · rw [hdb hl]
    · rw [hmoves, not_or, not_not] at hnot
      exact hnot.2.symm
  · -- the command is for the tracked database, so if that is not the first, that has been left
    have hstays : ∀ d, r.db = some d → t.db = some d := fun d hd =>
      (hstay d hd).resolve_right hselect
    have hmoves : (left ∨ ∃ d, r.db = some d ∧ start ≠ some d) ↔ left := by
      refine ⟨fun h => h.elim id ?_, Or.inl⟩
      rintro ⟨d, hd, hne⟩
      exact not_not.mp fun hl => hne ((hdb hl).symm.trans (hstays d hd))
    rw [hear_of_ne t hr hselect]
    refine ⟨⟨⟨switched, hblock, hleft.trans hmoves.symm⟩, fun hnot => ?_⟩, ?_⟩
    · exact hdb (mt hmoves.mpr hnot)
    · cases hd : r.db with
      | none => rfl
      | some d => exact hstays d hd

/-- At the end of the block the database is forgotten just if it has been left. -/
theorem exec (h : t.Within start left) (hc : c.frame.command = .exec) :
    (left → t.hear c = ⟨none, none⟩) ∧ (¬ left → t.hear c = ⟨start, none⟩) := by
  obtain ⟨⟨switched, hblock, hleft⟩, hdb⟩ := h
  rw [hear_exec t hc, hblock]
  constructor
  · intro hl
    rw [if_pos (congrArg some (hleft.mpr hl))]
  · intro hl
    rw [if_neg fun hsw => hl (hleft.mp (Option.some.inj hsw)), hdb hl]

end Within

end Belief

/-- What is known after these commands. -/
def hearing (cs : List Sent) : Belief := cs.foldl Belief.hear {}

@[simp] theorem hearing_concat (cs : List Sent) (c : Sent) :
    hearing (cs ++ [c]) = (hearing cs).hear c :=
  List.foldl_append

/-! ## How it can be forgotten -/

/-- After the commands `pre` comes a choice of a database other than the tracked one. -/
def Switches (pre : List Sent) (c : Sent) : Prop :=
  ∃ d, c.frame.chosen? = some d ∧ (hearing pre).db ≠ some d

/-- After the commands `pre` a block begins with `multi` and goes on with `body`. -/
structure OpenBlock (pre : List Sent) (multi : Sent) (body : List Sent) : Prop where
  multi : multi.frame.command = .multi
  body : ∀ c ∈ body, c.frame.command ≠ .multi ∧ c.frame.command ≠ .exec

/-- Somewhere in it the block switches to another database. -/
def BlockSwitches (pre : List Sent) (multi : Sent) (body : List Sent) : Prop :=
  ∃ front c back, body = front ++ c :: back ∧ Switches (pre ++ multi :: front) c

/-- The commands end with a block that contains a switch, and with commands for no database. -/
def Forgotten (cs : List Sent) : Prop :=
  ∃ pre multi body exec idle, cs = pre ++ multi :: body ++ exec :: idle
    ∧ OpenBlock pre multi body ∧ BlockSwitches pre multi body ∧ exec.frame.command = .exec
    ∧ ∀ c ∈ idle, c.target = none

theorem Forgotten.concat {cs : List Sent} {c : Sent} (h : Forgotten cs) (hc : c.target = none) :
    Forgotten (cs ++ [c]) := by
  obtain ⟨pre, multi, body, exec, idle, rfl, hopen, hswitch, hexec, hidle⟩ := h
  refine ⟨pre, multi, body, exec, idle ++ [c], ?_, hopen, hswitch, hexec, fun x hx => ?_⟩
  · rw [List.append_assoc]
    rfl
  · rcases List.mem_append.mp hx with hx | hx
    · exact hidle x hx
    · rw [List.mem_singleton.mp hx]
      exact hc

/-- An open block has been opened, and what is known about its switches is right. -/
theorem openBlock_of_hearing {cs : List Sent} {switched : Bool}
    (h : (hearing cs).block = some switched) :
    ∃ pre multi body, cs = pre ++ multi :: body ∧ OpenBlock pre multi body
      ∧ (switched = true → BlockSwitches pre multi body) := by
  induction cs using List.reverseRecOn generalizing switched with
  | nil => cases h
  | append_singleton cs c ih =>
      rw [hearing_concat] at h
      by_cases hmulti : c.frame.command = .multi
      · rw [Belief.hear_multi _ hmulti] at h
        obtain rfl := Option.some.inj h
        exact ⟨cs, c, [], rfl, ⟨hmulti, fun x hx => by cases hx⟩, fun hf => by cases hf⟩
      by_cases hexec : c.frame.command = .exec
      · rw [Belief.hear_exec _ hexec] at h
        cases h
      -- any other command stays inside of the block
      have hblock : ∃ sw, (hearing cs).block = some sw
          ∧ (switched = true → sw = true ∨ Switches cs c) := by
        unfold Belief.hear at h
        rw [if_neg hmulti, if_neg hexec] at h
        cases hd : c.frame.chosen? with
        | none =>
            rw [hd] at h
            exact ⟨switched, h, Or.inl⟩
        | some d =>
            rw [hd] at h
            obtain ⟨sw, hsw, rfl⟩ := Option.map_eq_some_iff.mp h
            refine ⟨sw, hsw, fun hor => ?_⟩
            rcases Bool.or_eq_true_iff.mp hor with hsw | hne
            · exact Or.inl hsw
            · exact Or.inr ⟨d, hd, of_decide_eq_true hne⟩
      obtain ⟨sw, hsw, hswitched⟩ := hblock
      obtain ⟨pre, multi, body, rfl, hopen, hbody⟩ := ih hsw
      refine ⟨pre, multi, body ++ [c], by simp, ⟨hopen.multi, fun x hx => ?_⟩, fun htrue => ?_⟩
      · rcases List.mem_append.mp hx with hx | hx
        · exact hopen.body x hx
        · rw [List.mem_singleton.mp hx]
          exact ⟨hmulti, hexec⟩
      · rcases hswitched htrue with hsw | hswitch
        · obtain ⟨front, x, back, rfl, hx⟩ := hbody hsw
          exact ⟨front, x, back ++ [c], by simp, hx⟩
        · exact ⟨body, c, [], rfl, hswitch⟩

/-- The end of a block makes forget which database is selected, if there was a switch in it. -/
theorem forgotten_of_exec {cs : List Sent} {c : Sent} (hc : c.frame.command = .exec)
    (h : (hearing cs).block = some true) : Forgotten (cs ++ [c]) := by
  obtain ⟨pre, multi, body, rfl, hopen, hswitch⟩ := openBlock_of_hearing h
  exact ⟨pre, multi, body, c, [], rfl, hopen, hswitch rfl, hc, fun x hx => by cases hx⟩

/-! ## The server that runs every block -/

namespace Backend

variable {u : Backend} {t : Belief} {c : Sent} {cs queued : List Sent} {runs : Nat → Bool}

/-- The log and the database of the server when the block that is open, if there is one, has been
run. -/
def settled (u : Backend) : Backend :=
  (u.block.getD []).foldl execute { db := u.db, executed := u.executed }

theorem settled_of_none (h : u.block = none) :
    u.settled = { db := u.db, executed := u.executed } := by
  unfold settled
  rw [h]
  rfl

/-- Neither the block nor the number of blocks plays a part when commands are executed. -/
theorem foldl_execute_settled (h : u.block = none) (cs : List Sent) :
    (cs.foldl execute u).settled
      = cs.foldl execute { db := u.db, executed := u.executed } := by
  induction cs generalizing u with
  | nil => exact settled_of_none h
  | cons c cs ih => exact ih (u := u.execute c) h

/-- A command is executed behind all others, be it at once or with its block. -/
theorem receive_settled_plain (runs : Nat → Bool) (hc : c.frame.IsPlain) :
    (u.receive runs c).settled = u.settled.execute c := by
  cases hb : u.block with
  | none =>
      rw [receive_plain hb hc, settled_of_none hb, settled_of_none (u := u.execute c) hb]
      rfl
  | some queued =>
      rw [receive_queued hb hc]
      unfold settled
      rw [hb]
      exact List.foldl_append

theorem receive_settled_multi (runs : Nat → Bool) (h : u.block = none)
    (hc : c.frame.command = .multi) : (u.receive runs c).settled = u.settled := by
  rw [receive_multi h hc, settled_of_none h]
  rfl

/-- The end of a block does what has been taken for granted. -/
theorem receive_settled_exec (h : u.block = some queued) (hc : c.frame.command = .exec) :
    (u.receive (fun _ => true) c).block = none
      ∧ (u.receive (fun _ => true) c).settled = u.settled := by
  have hrun : u.receive (fun _ => true) c
      = queued.foldl execute { u with block := none, ended := u.ended + 1 } := by
    rw [receive_exec h hc, if_pos rfl]
  have hblock : ∀ (cs : List Sent) (v : Backend), (cs.foldl execute v).block = v.block := by
    intro cs
    induction cs with
    | nil => exact fun v => rfl
    | cons c cs ih => exact fun v => ih (v.execute c)
  rw [hrun]
  refine ⟨hblock queued _, ?_⟩
  rw [foldl_execute_settled rfl]
  unfold settled
  rw [h]
  rfl

/-- As long as no block is given up, a command is executed behind all others or not at all. -/
theorem receive_settled (u : Backend) (hc : c.frame.command ≠ .discard) :
    (u.receive (fun _ => true) c).settled = u.settled
      ∨ (u.receive (fun _ => true) c).settled = u.settled.execute c := by
  by_cases hmulti : c.frame.command = .multi
  · left
    cases hb : u.block with
    | none => exact receive_settled_multi _ hb hmulti
    | some queued =>
        unfold receive
        rw [hb]
        dsimp only
        rw [if_pos hmulti]
  by_cases hexec : c.frame.command = .exec
  · left
    cases hb : u.block with
    | none =>
        unfold receive
        rw [hb]
        dsimp only
        rw [if_neg hmulti, if_pos (Or.inl hexec)]
    | some queued => exact (receive_settled_exec hb hexec).2
  exact Or.inr (receive_settled_plain _ ⟨hmulti, hexec, hc⟩)

/-- So what has been taken for granted stays in the log. -/
theorem feed_settled_executed (u : Backend) (hcs : ∀ c ∈ cs, c.frame.command ≠ .discard) :
    u.settled.executed <+: (u.feed (fun _ => true) cs).settled.executed := by
  induction cs generalizing u with
  | nil => exact List.prefix_rfl
  | cons c cs ih =>
      have hrest := ih (u.receive (fun _ => true) c) fun x hx => hcs x (List.mem_cons_of_mem c hx)
      rcases receive_settled u (hcs c List.mem_cons_self) with heq | heq
      · rw [heq] at hrest
        exact hrest
      · rw [heq] at hrest
        exact (List.prefix_append _ _).trans hrest

/-- What is known of the server is right. -/
structure Agrees (u : Backend) (t : Belief) : Prop where
  block : u.block.isSome = t.block.isSome
  db : ∀ d, t.db = some d → u.settled.db = d

namespace Agrees

variable {r : Request}

/-- A command of a caller or a choice. -/
theorem plain (h : u.Agrees t) (runs : Nat → Bool) (hr : r.Routable) :
    (u.receive runs r.sent).Agrees (t.hear r.sent) := by
  have hblock : (u.receive runs r.sent).block.isSome = u.block.isSome := by
    cases hb : u.block with
    | none =>
        rw [receive_plain hb hr.1]
        exact congrArg Option.isSome hb
    | some queued =>
        rw [receive_queued hb hr.1]
        rfl
  by_cases hselect : r.command = .select
  · obtain ⟨d, rfl⟩ := hr.2 hselect
    rw [Belief.hear_select]
    refine ⟨?_, fun d' hd' => ?_⟩
    · rw [hblock, h.block]
      cases t.block <;> rfl
    · rw [receive_settled_plain runs hr.1]
      obtain rfl : d = d' := Option.some.inj hd'
      show ((Request.select d).frame.chosen?).getD u.settled.db = d
      rw [Frame.chosen?_select]
      rfl
  · rw [Belief.hear_of_ne t hr hselect]
    refine ⟨hblock.trans h.block, fun d hd => ?_⟩
    rw [receive_settled_plain runs hr.1]
    show (r.frame.chosen?).getD u.settled.db = d
    rw [Frame.chosen?_of_ne hselect]
    exact h.db d hd

/-- The beginning of a block. -/
theorem multi (h : u.Agrees t) (runs : Nat → Bool) (ht : t.block = none)
    (hc : c.frame.command = .multi) : (u.receive runs c).Agrees (t.hear c) := by
  have hb : u.block = none := by
    rw [← Option.isNone_iff_eq_none, ← Option.not_isSome, h.block, ht]
    rfl
  rw [Belief.hear_multi t hc]
  refine ⟨by rw [receive_multi hb hc]; rfl, fun d hd => ?_⟩
  rw [receive_settled_multi runs hb hc]
  exact h.db d hd

/-- The end of a block. -/
theorem exec (h : u.Agrees t) {switched : Bool} (ht : t.block = some switched)
    (hc : c.frame.command = .exec) : (u.receive (fun _ => true) c).Agrees (t.hear c) := by
  obtain ⟨queued, hb⟩ : ∃ queued, u.block = some queued := by
    rw [← Option.isSome_iff_exists, h.block, ht]
    rfl
  obtain ⟨hclosed, hsettled⟩ := receive_settled_exec hb hc
  rw [Belief.hear_exec t hc]
  refine ⟨by rw [hclosed]; rfl, fun d hd => ?_⟩
  rw [hsettled]
  refine h.db d ?_
  by_cases hsw : t.block = some true
  · rw [if_pos hsw] at hd
    cases hd
  · rw [if_neg hsw] at hd
    exact hd

end Agrees

end Backend

end RespMux
