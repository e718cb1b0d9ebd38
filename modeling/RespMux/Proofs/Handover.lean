import Mathlib.Data.List.Induction
import RespMux.Proofs.Store.Aspects

/-!
# The one outcome of a completion

A completion and its completer are two ends of one thing. The completer is used up once: it gives an
outcome, or a reply to make one of, or an error, or it goes away, which counts as an error. That
fixes the outcome. Whoever holds the completion may look at it at any time, before that and after.

`Operation` lists what can be done at either end, and a history is a list of operations. What the
next operation answers is a matter of the history alone: of the outcome that has been fixed and of
what has been done since (`Origin.fixed?`). The outcome is handed out once
(`Origin.handed_out_once`). Whether it is there is told alike by all that look at it, but for one
case: nobody has fetched it yet, and the completer has gone away without giving one
(`Origin.complete_unless_unnoticed`).

The proof follows the stage of the completion along the history (`Origin.follows`).
-/

set_option autoImplicit false

namespace RespMux

/-! ## Stages -/

namespace Stage

/-- The outcome that has not been handed out yet. -/
def outcome? : Stage → Option Outcome
  | waiting => none
  | delivered o => some o
  | abandoned => some (.error Completion.dropped)
  | fetched o => some o
  | spent => none

/-- The stage once the outcome has been fetched, if there is one. -/
def fetch : Stage → Stage
  | waiting => waiting
  | delivered o => fetched o
  | abandoned => fetched (.error Completion.dropped)
  | fetched o => fetched o
  | spent => spent

/-- The stage once the outcome has been handed out, if there is one. -/
def handOut : Stage → Stage
  | waiting => waiting
  | _ => spent

theorem outcome?_fetch (s : Stage) : s.fetch.outcome? = s.outcome? := by
  cases s <;> rfl

theorem fetch_ne_abandoned (s : Stage) : s.fetch ≠ abandoned := by
  cases s <;> exact Stage.noConfusion

theorem handOut_of_outcome {s : Stage} {o : Outcome} (h : s.outcome? = some o) :
    s.handOut = spent := by
  cases s with
  | waiting => cases h
  | delivered => rfl
  | abandoned => rfl
  | fetched => rfl
  | spent => rfl

end Stage

namespace Completion

variable {c : Completion}

theorem abandon_of_waits (h : c.Waits) : c.abandon = { c with stage := .abandoned }.wake := by
  obtain ⟨hs, ho⟩ := h
  unfold abandon
  rw [hs, ho]

theorem abandon_of_not_waits (h : ¬ c.Waits) : c.abandon = c := by
  unfold abandon
  split
  · next hs ho => exact absurd ⟨hs, ho⟩ h
  · rfl

theorem abandon_isOpen (c : Completion) : c.abandon.isOpen = c.isOpen := by
  by_cases h : c.Waits
  · rw [abandon_of_waits h, wake_isOpen]
  · rw [abandon_of_not_waits h]

theorem take?_eq (c : Completion) :
    c.take? = (c.stage.outcome?, { c with stage := c.stage.handOut }) := by
  obtain ⟨stage, waker, isOpen, target⟩ := c
  cases stage <;> rfl

theorem pollComplete_stage (c : Completion) : c.pollComplete.2.stage = c.stage.fetch := by
  unfold pollComplete
  cases c.stage <;> simp [Stage.fetch]

theorem pollComplete_isOpen (c : Completion) : c.pollComplete.2.isOpen = c.isOpen := by
  unfold pollComplete
  cases c.stage <;> rfl

theorem poll_stage (c : Completion) : c.poll.2.stage = c.stage.handOut := by
  unfold poll pollComplete
  cases c.stage <;> simp [Stage.handOut]

theorem poll_isOpen (c : Completion) : c.poll.2.isOpen = c.isOpen := by
  unfold poll pollComplete
  cases c.stage <;> simp

theorem poll_of_outcome {o : Outcome} (h : c.stage.outcome? = some o) : c.poll.1 = some o := by
  unfold poll pollComplete
  cases hs : c.stage <;> simp_all [Stage.outcome?]

theorem poll_of_spent (h : c.stage = .spent) : c.poll.1 = some (.error polledAgain) := by
  simp [poll, pollComplete, h]

theorem pollComplete_iff (c : Completion) : c.pollComplete.1 = true ↔ c.stage ≠ .waiting := by
  unfold pollComplete
  cases c.stage <;> simp

theorem isComplete_iff (c : Completion) :
    c.isComplete = true ↔ c.stage ≠ .waiting ∧ c.stage ≠ .abandoned := by
  unfold isComplete
  cases c.stage <;> simp

end Completion

namespace CompletionPair

/-! ## Operations -/

/-- How a completer is used up. -/
inductive Use where
  | resolve (o : Outcome)
  | complete (r : Reply)
  | fail (e : Error)
  | drop

/-- The outcome that is fixed by using up a completer for the shape `s`. -/
def Use.outcome (s : Shape) : Use → Outcome
  | resolve o => o
  | complete r => s.extract r
  | fail e => .error e
  | drop => .error Completion.dropped

/-- What is done at one of the two ends. -/
inductive Operation where
  | use (u : Use)
  | take
  | poll
  | pollComplete
  | isComplete
  /-- the completion is given up -/
  | close

/-- The answer to an operation. -/
inductive Answer where
  /-- there is no such end any more -/
  | gone
  | done
  | flag (b : Bool)
  /-- none if there is no outcome to hand out -/
  | outcome (o : Option Outcome)

/-- Uses the completer up. -/
def use (p : CompletionPair) (u : Use) : Answer × CompletionPair :=
  match p.completer with
  | none => (.gone, p)
  | some _ =>
      match u with
      | .resolve o => (.flag ((p.resolve o).1.getD false), (p.resolve o).2)
      | .complete r => (.done, (p.finish fun s => s.extract r).2)
      | .fail e => (.done, (p.finish fun _ => .error e).2)
      | .drop => (.done, p.dropCompleter.2)

/-- Does something with the completion, if it has not been given up. -/
def look (p : CompletionPair) (f : Completion → Answer × Completion) : Answer × CompletionPair :=
  if p.completion.isOpen then
    ((f p.completion).1, { p with completion := (f p.completion).2 })
  else (.gone, p)

/-- One operation, with its answer. -/
def apply (p : CompletionPair) : Operation → Answer × CompletionPair
  | .use u => p.use u
  | .take => p.look fun c => (.outcome c.take?.1, c.take?.2)
  | .poll => p.look fun c => (.outcome c.poll.1, c.poll.2)
  | .pollComplete => p.look fun c => (.flag c.pollComplete.1, c.pollComplete.2)
  | .isComplete => p.look fun c => (.flag c.isComplete, c)
  | .close => p.look fun c => (.done, c.close)

/-- The pair after a history. -/
def after (p : CompletionPair) (ops : List Operation) : CompletionPair :=
  ops.foldl (fun p op => (p.apply op).2) p

theorem use_of_none {p : CompletionPair} (h : p.completer = none) (u : Use) :
    p.use u = (.gone, p) := by
  simp [use, h]

theorem look_of_open {p : CompletionPair} (h : p.completion.isOpen = true)
    (f : Completion → Answer × Completion) :
    p.look f = ((f p.completion).1, { p with completion := (f p.completion).2 }) :=
  if_pos h

theorem look_of_not_open {p : CompletionPair} (h : p.completion.isOpen ≠ true)
    (f : Completion → Answer × Completion) : p.look f = (.gone, p) :=
  if_neg h

theorem apply_of_not_open {p : CompletionPair} (h : p.completion.isOpen ≠ true) {op : Operation}
    (hop : ∀ u, op ≠ .use u) : p.apply op = (.gone, p) := by
  cases op with
  | use u => exact absurd rfl (hop u)
  | take => rw [apply, look_of_not_open h]
  | poll => rw [apply, look_of_not_open h]
  | pollComplete => rw [apply, look_of_not_open h]
  | isComplete => rw [apply, look_of_not_open h]
  | close => rw [apply, look_of_not_open h]

/-- What the use of its completer does to a completion. -/
def Use.settle (s : Shape) (c : Completion) : Use → Completion
  | drop => c.abandon
  | u => c.deliver (u.outcome s)

theorem use_of_some {p : CompletionPair} {s : Shape} (h : p.completer = some s) (u : Use) :
    (p.use u).2 = ⟨u.settle s p.completion, none⟩ := by
  cases u <;> simp [use, resolve, finish, dropCompleter, h, Use.settle, Use.outcome]

namespace Use

variable {s : Shape} {c : Completion}

theorem settle_isOpen (u : Use) : (u.settle s c).isOpen = c.isOpen := by
  cases u with
  | drop => exact c.abandon_isOpen
  | _ => exact c.deliver_isOpen _

theorem settle_of_not_waits (h : ¬ c.Waits) (u : Use) : u.settle s c = c := by
  cases u with
  | drop => exact Completion.abandon_of_not_waits h
  | _ => exact Completion.deliver_of_not_waits h _

theorem settle_outcome? (h : c.Waits) (u : Use) :
    (u.settle s c).stage.outcome? = some (u.outcome s) := by
  cases u with
  | drop => simp [settle, Completion.abandon_of_waits h, Stage.outcome?, outcome]
  | _ => simp [settle, Completion.deliver_stage h, Stage.outcome?]

theorem settle_stage_iff (h : c.Waits) (u : Use) :
    (u.settle s c).stage = .abandoned ↔ u = .drop := by
  cases u with
  | drop => simp [settle, Completion.abandon_of_waits h]
  | _ => simp [settle, Completion.deliver_stage h]

end Use

theorem after_append_singleton (p : CompletionPair) (ops : List Operation) (op : Operation) :
    p.after (ops ++ [op]) = ((p.after ops).apply op).2 :=
  List.foldl_append

/-! ## Histories -/

namespace Operation

/-- The operation asks for the outcome to be handed out. -/
def asks : Operation → Bool
  | take => true
  | poll => true
  | _ => false

/-- The operation moves an outcome that is there. -/
def fetches : Operation → Bool
  | take => true
  | poll => true
  | pollComplete => true
  | _ => false

/-- The operation gives the completion up. -/
def closes : Operation → Bool
  | close => true
  | _ => false

theorem fetches_of_asks {op : Operation} (h : op.asks = true) : op.fetches = true := by
  cases op with
  | take => rfl
  | poll => rfl
  | use => cases h
  | pollComplete => cases h
  | isComplete => cases h
  | close => cases h

/-- The first use of the completer, and what has been done since. -/
def settled? : List Operation → Option (Use × List Operation)
  | [] => none
  | use u :: ops => some (u, ops)
  | _ :: ops => settled? ops

theorem settled?_append {ops : List Operation} {u : Use} {since : List Operation}
    (h : settled? ops = some (u, since)) (op : Operation) :
    settled? (ops ++ [op]) = some (u, since ++ [op]) := by
  induction ops with
  | nil => cases h
  | cons first ops ih =>
    cases first with
    | use v =>
      obtain ⟨rfl, rfl⟩ : v = u ∧ ops = since := by simpa [settled?] using h
      rfl
    | take => exact ih h
    | poll => exact ih h
    | pollComplete => exact ih h
    | isComplete => exact ih h
    | close => exact ih h

theorem settled?_append_of_none {ops : List Operation} (h : settled? ops = none) (op : Operation) :
    settled? (ops ++ [op]) = settled? [op] := by
  induction ops with
  | nil => rfl
  | cons first ops ih =>
    cases first with
    | use v => cases h
    | take => exact ih h
    | poll => exact ih h
    | pollComplete => exact ih h
    | isComplete => exact ih h
    | close => exact ih h

/-- The completion has not been given up. -/
def Held (ops : List Operation) : Prop := ops.any closes = false

instance (ops : List Operation) : Decidable (Held ops) := inferInstanceAs (Decidable (_ = _))

end Operation

/-- Where a completion comes from. -/
inductive Origin where
  /-- made together with a completer for a shape -/
  | pair (s : Shape)
  /-- made with its outcome -/
  | ready (o : Outcome)

namespace Origin

/-- The two ends at the start. -/
def start : Origin → CompletionPair
  | pair s => { completer := some s }
  | ready o => { completion := .ready o, completer := none }

/-- The two ends after a history. -/
def after (origin : Origin) (ops : List Operation) : CompletionPair := origin.start.after ops

/-- The answer to an operation after a history. -/
def answer (origin : Origin) (ops : List Operation) (op : Operation) : Answer :=
  ((origin.after ops).apply op).1

/-- The outcome, if it is fixed, and what has been done since. -/
def fixed? : Origin → List Operation → Option (Outcome × List Operation)
  | pair s, ops => (Operation.settled? ops).map fun settled => (settled.1.outcome s, settled.2)
  | ready o, ops => some (o, ops)

/-- The completer, as long as it has not been used. -/
def unused? : Origin → List Operation → Option Shape
  | pair s, ops => if (Operation.settled? ops).isSome then none else some s
  | ready _, _ => none

/-- The completer has gone away without an outcome, and nobody has asked for it since. -/
def unnoticed : Origin → List Operation → Bool
  | pair _, ops =>
      match Operation.settled? ops with
      | some (.drop, since) => !since.any Operation.fetches
      | _ => false
  | ready _, _ => false

/-! ## What is fixed by a history -/

variable {origin : Origin} {ops : List Operation} {o : Outcome} {since : List Operation}

theorem fixed?_append (h : origin.fixed? ops = some (o, since)) (op : Operation) :
    origin.fixed? (ops ++ [op]) = some (o, since ++ [op]) := by
  cases origin with
  | ready r =>
    obtain ⟨rfl, rfl⟩ : r = o ∧ ops = since := by simpa [fixed?] using h
    rfl
  | pair s =>
    obtain ⟨⟨u, rest⟩, hsettled, heq⟩ := Option.map_eq_some_iff.1 h
    obtain ⟨rfl, rfl⟩ : u.outcome s = o ∧ rest = since := by simpa using heq
    simp [fixed?, Operation.settled?_append hsettled]

theorem fixed?_use {s : Shape} (h : origin.unused? ops = some s) (u : Use) :
    origin.fixed? (ops ++ [.use u]) = some (u.outcome s, []) := by
  cases origin with
  | ready r => cases h
  | pair shape =>
    cases hsettled : Operation.settled? ops with
    | some settled => simp [unused?, hsettled] at h
    | none =>
      obtain rfl : shape = s := by simpa [unused?, hsettled] using h
      simp [fixed?, Operation.settled?_append_of_none hsettled, Operation.settled?]

theorem fixed?_append_of_none (h : origin.fixed? ops = none) {op : Operation}
    (hop : ∀ u, op ≠ .use u) : origin.fixed? (ops ++ [op]) = none := by
  cases origin with
  | ready r => cases h
  | pair s =>
    have hsettled : Operation.settled? ops = none := Option.map_eq_none_iff.1 h
    cases op with
    | use u => exact absurd rfl (hop u)
    | _ => simp [fixed?, Operation.settled?_append_of_none hsettled, Operation.settled?]

theorem unused?_eq_none_iff : origin.unused? ops = none ↔ origin.fixed? ops ≠ none := by
  cases origin with
  | ready r => simp [unused?, fixed?]
  | pair s => cases h : Operation.settled? ops <;> simp [unused?, fixed?, h]

theorem unused?_append (h : origin.unused? ops = none) (op : Operation) :
    origin.unused? (ops ++ [op]) = none := by
  obtain ⟨fixed, hfixed⟩ := Option.ne_none_iff_exists'.1 (unused?_eq_none_iff.1 h)
  rw [unused?_eq_none_iff, fixed?_append hfixed]
  exact Option.some_ne_none _

theorem unused?_append_of_look {op : Operation} (hop : ∀ u, op ≠ .use u) :
    origin.unused? (ops ++ [op]) = origin.unused? ops := by
  cases origin with
  | ready r => rfl
  | pair s =>
    cases hsettled : Operation.settled? ops with
    | some settled => simp [unused?, Operation.settled?_append hsettled, hsettled]
    | none =>
      cases op with
      | use u => exact absurd rfl (hop u)
      | _ =>
        have happend := Operation.settled?_append_of_none hsettled
        simp [unused?, happend, hsettled, Operation.settled?]

theorem unnoticed_append (h : origin.fixed? ops = some (o, since)) (op : Operation) :
    origin.unnoticed (ops ++ [op]) = (origin.unnoticed ops && !op.fetches) := by
  cases origin with
  | ready r => rfl
  | pair s =>
    obtain ⟨⟨u, rest⟩, hsettled, -⟩ := Option.map_eq_some_iff.1 h
    cases u <;> simp [unnoticed, Operation.settled?_append hsettled, hsettled]

theorem unnoticed_of_asks (h : origin.fixed? ops = some (o, since))
    (hasks : since.any Operation.asks = true) : origin.unnoticed ops = false := by
  cases origin with
  | ready r => rfl
  | pair s =>
    obtain ⟨⟨u, rest⟩, hsettled, heq⟩ := Option.map_eq_some_iff.1 h
    obtain ⟨-, rfl⟩ : u.outcome s = o ∧ rest = since := by simpa using heq
    obtain ⟨op, hop, hasks⟩ := List.any_eq_true.1 hasks
    cases u with
    | drop =>
      have hfetches : rest.any Operation.fetches = true :=
        List.any_eq_true.2 ⟨op, hop, Operation.fetches_of_asks hasks⟩
      simp [unnoticed, hsettled, hfetches]
    | _ => simp [unnoticed, hsettled]

theorem unnoticed_of_none (h : origin.fixed? ops = none) : origin.unnoticed ops = false := by
  cases origin with
  | ready r => rfl
  | pair s => simp [unnoticed, Option.map_eq_none_iff.1 h]

/-! ## The stage along a history -/

/-- The stage in which a history leaves a completion that is held. -/
inductive Stands (origin : Origin) (ops : List Operation) : Stage → Prop where
  | unfixed (h : origin.fixed? ops = none) : Stands origin ops .waiting
  | ready {stage : Stage} {o : Outcome} {since : List Operation}
      (h : origin.fixed? ops = some (o, since)) (hasks : since.any Operation.asks = false)
      (hstage : stage.outcome? = some o)
      (hgone : stage = .abandoned ↔ origin.unnoticed ops = true) : Stands origin ops stage
  | spent {o : Outcome} {since : List Operation} (h : origin.fixed? ops = some (o, since))
      (hasks : since.any Operation.asks = true) : Stands origin ops .spent

namespace Stands

variable {stage : Stage}

theorem waiting_iff (h : Stands origin ops stage) :
    stage = .waiting ↔ origin.fixed? ops = none := by
  cases h with
  | unfixed hfixed => simp [hfixed]
  | ready hfixed _ hstage _ =>
    rw [hfixed]
    exact ⟨fun hw => (by rw [hw] at hstage; cases hstage), fun h => (by cases h)⟩
  | spent hfixed _ => simp [hfixed]

theorem abandoned_iff (h : Stands origin ops stage) :
    stage = .abandoned ↔ origin.unnoticed ops = true := by
  cases h with
  | unfixed hfixed => simp [unnoticed_of_none hfixed]
  | ready _ _ _ hgone => exact hgone
  | spent hfixed hasks => simp [unnoticed_of_asks hfixed hasks]

theorem outcome?_eq (h : Stands origin ops stage) (hfixed : origin.fixed? ops = some (o, since))
    (hasks : since.any Operation.asks = false) : stage.outcome? = some o := by
  cases h with
  | unfixed hnone =>
    rw [hnone] at hfixed
    cases hfixed
  | ready hfixed' _ hstage _ =>
    rw [hfixed'] at hfixed
    cases hfixed
    exact hstage
  | spent hfixed' hasked =>
    rw [hfixed'] at hfixed
    cases hfixed
    rw [hasked] at hasks
    cases hasks

theorem eq_spent (h : Stands origin ops stage) (hfixed : origin.fixed? ops = some (o, since))
    (hasks : since.any Operation.asks = true) : stage = .spent := by
  cases h with
  | unfixed hnone =>
    rw [hnone] at hfixed
    cases hfixed
  | ready hfixed' hnot _ _ =>
    rw [hfixed'] at hfixed
    cases hfixed
    rw [hasks] at hnot
    cases hnot
  | spent _ _ => rfl

theorem of_use {s : Shape} (h : origin.unused? ops = some s) (u : Use)
    (hstage : stage.outcome? = some (u.outcome s))
    (hgone : stage = .abandoned ↔ u = .drop) : Stands origin (ops ++ [.use u]) stage := by
  refine .ready (fixed?_use h u) rfl hstage (hgone.trans ?_)
  cases origin with
  | ready r => cases h
  | pair shape =>
    have hsettled : Operation.settled? ops = none := by
      cases hsettled : Operation.settled? ops with
      | none => rfl
      | some settled => simp [unused?, hsettled] at h
    cases u <;>
      simp [unnoticed, Operation.settled?_append_of_none hsettled, Operation.settled?]

/-- An operation that moves nothing leaves the stage as it is. -/
theorem same (h : Stands origin ops stage) {op : Operation} (hfetches : op.fetches = false)
    (huse : ∀ u, op = .use u → origin.unused? ops = none) : Stands origin (ops ++ [op]) stage := by
  have hasks : op.asks = false := by
    by_contra hasks
    simp [Operation.fetches_of_asks (eq_true_of_ne_false hasks)] at hfetches
  cases h with
  | unfixed hfixed =>
    exact .unfixed (fixed?_append_of_none hfixed fun u hu =>
      unused?_eq_none_iff.1 (huse u hu) hfixed)
  | ready hfixed hnot hstage hgone =>
    refine .ready (fixed?_append hfixed op) (by simp [hnot, hasks]) hstage ?_
    simp [unnoticed_append hfixed op, hfetches, hgone]
  | spent hfixed hasked => exact .spent (fixed?_append hfixed op) (by simp [hasked])

theorem fetch (h : Stands origin ops stage) :
    Stands origin (ops ++ [.pollComplete]) stage.fetch := by
  cases h with
  | unfixed hfixed => exact .unfixed (fixed?_append_of_none hfixed fun u => Operation.noConfusion)
  | ready hfixed hnot hstage hgone =>
    refine .ready (fixed?_append hfixed _) (by simp [hnot, Operation.asks])
      ((Stage.outcome?_fetch _).trans hstage) ?_
    simp [unnoticed_append hfixed, Operation.fetches, Stage.fetch_ne_abandoned]
  | spent hfixed hasked => exact .spent (fixed?_append hfixed _) (by simp [hasked])

theorem handOut (h : Stands origin ops stage) {op : Operation} (hasks : op.asks = true) :
    Stands origin (ops ++ [op]) stage.handOut := by
  cases h with
  | unfixed hfixed =>
    refine .unfixed (fixed?_append_of_none hfixed fun u hu => ?_)
    rw [hu] at hasks
    cases hasks
  | ready hfixed _ hstage _ =>
    rw [Stage.handOut_of_outcome hstage]
    exact .spent (fixed?_append hfixed op) (by simp [hasks])
  | spent hfixed hasked => exact .spent (fixed?_append hfixed op) (by simp [hasked])

end Stands

/-- The two ends are where a history has left them. -/
structure Follows (origin : Origin) (ops : List Operation) (p : CompletionPair) : Prop where
  held : p.completion.isOpen = true ↔ Operation.Held ops
  completer : p.completer = origin.unused? ops
  stage : Operation.Held ops → Stands origin ops p.completion.stage

namespace Follows

variable {p : CompletionPair}

theorem use (h : Follows origin ops p) (u : Use) :
    Follows origin (ops ++ [.use u]) (p.use u).2 := by
  have hheld : Operation.Held (ops ++ [.use u]) ↔ Operation.Held ops := by
    simp [Operation.Held, Operation.closes]
  cases hc : origin.unused? ops with
  | none =>
    rw [use_of_none (h.completer.trans hc)]
    exact ⟨h.held.trans hheld.symm, (h.completer.trans hc).trans (unused?_append hc _).symm,
      fun hopen => (h.stage (hheld.1 hopen)).same rfl fun _ _ => hc⟩
  | some s =>
    rw [use_of_some (h.completer.trans hc)]
    have hused : origin.unused? (ops ++ [.use u]) = none := by
      rw [unused?_eq_none_iff, fixed?_use hc]
      exact Option.some_ne_none _
    refine ⟨by rw [Use.settle_isOpen, h.held, hheld], hused.symm, fun hopen => ?_⟩
    have hunfixed : origin.fixed? ops = none := by
      by_contra hne
      rw [unused?_eq_none_iff.2 hne] at hc
      cases hc
    have hwaits : p.completion.Waits :=
      ⟨((h.stage (hheld.1 hopen)).waiting_iff).2 hunfixed, h.held.2 (hheld.1 hopen)⟩
    exact .of_use hc u (Use.settle_outcome? hwaits u) (Use.settle_stage_iff hwaits u)

/-- To look at a completion is to move its stage, if it is held. -/
theorem look (h : Follows origin ops p) {op : Operation} (hop : ∀ u, op ≠ .use u)
    (hopen : op.closes = false) {f : Completion → Answer × Completion}
    (hf : (f p.completion).2.isOpen = p.completion.isOpen)
    (hstage : Stands origin ops p.completion.stage →
      Stands origin (ops ++ [op]) (f p.completion).2.stage) :
    Follows origin (ops ++ [op]) (p.look f).2 := by
  have hheld : Operation.Held (ops ++ [op]) ↔ Operation.Held ops := by
    simp [Operation.Held, hopen]
  have hcompleter : p.completer = origin.unused? (ops ++ [op]) :=
    h.completer.trans (unused?_append_of_look hop).symm
  by_cases hp : p.completion.isOpen = true
  · rw [look_of_open hp]
    exact ⟨by rw [hf, h.held, hheld], hcompleter, fun hh => hstage (h.stage (hheld.1 hh))⟩
  · rw [look_of_not_open hp]
    exact ⟨h.held.trans hheld.symm, hcompleter, fun hh => absurd (h.held.2 (hheld.1 hh)) hp⟩

theorem close (h : Follows origin ops p) :
    Follows origin (ops ++ [.close]) (p.look fun c => (.done, c.close)).2 := by
  have hheld : ¬ Operation.Held (ops ++ [.close]) := by
    simp [Operation.Held, Operation.closes]
  have hcompleter : p.completer = origin.unused? (ops ++ [.close]) :=
    h.completer.trans (unused?_append_of_look fun _ => Operation.noConfusion).symm
  by_cases hp : p.completion.isOpen = true
  · rw [look_of_open hp]
    exact ⟨iff_of_false Bool.false_ne_true hheld, hcompleter, fun hh => absurd hh hheld⟩
  · rw [look_of_not_open hp]
    exact ⟨iff_of_false hp hheld, hcompleter, fun hh => absurd hh hheld⟩

/-- One operation. -/
theorem apply (h : Follows origin ops p) (op : Operation) :
    Follows origin (ops ++ [op]) (p.apply op).2 := by
  cases op with
  | use u => exact h.use u
  | take =>
    refine h.look (fun _ => Operation.noConfusion) rfl ?_ fun hs => ?_
    · rw [Completion.take?_eq]
    · rw [Completion.take?_eq]
      exact hs.handOut rfl
  | poll =>
    refine h.look (fun _ => Operation.noConfusion) rfl (Completion.poll_isOpen _) fun hs => ?_
    rw [Completion.poll_stage]
    exact hs.handOut rfl
  | pollComplete =>
    refine h.look (fun _ => Operation.noConfusion) rfl (Completion.pollComplete_isOpen _)
      fun hs => ?_
    rw [Completion.pollComplete_stage]
    exact hs.fetch
  | isComplete =>
    exact h.look (fun _ => Operation.noConfusion) rfl rfl fun hs =>
      hs.same rfl fun _ => Operation.noConfusion
  | close => exact h.close

end Follows

theorem follows_start (origin : Origin) : Follows origin [] origin.start := by
  cases origin with
  | pair s => exact ⟨iff_of_true rfl rfl, rfl, fun _ => .unfixed rfl⟩
  | ready o =>
    refine ⟨iff_of_true rfl rfl, rfl, fun _ => .ready rfl rfl rfl ?_⟩
    simp [unnoticed, start, Completion.ready]

/-- A whole history, one operation after the other. -/
theorem follows (origin : Origin) (ops : List Operation) :
    Follows origin ops (origin.after ops) := by
  induction ops using List.reverseRecOn with
  | nil => exact follows_start origin
  | append_singleton ops op ih =>
    unfold after
    rw [after_append_singleton]
    exact ih.apply op

/-! ## The answers -/

section Answers

variable (hheld : Operation.Held ops)
include hheld

/-- The stage of a completion that is held. -/
theorem stands : Stands origin ops (origin.after ops).completion.stage :=
  (origin.follows ops).stage hheld

theorem isOpen_after : (origin.after ops).completion.isOpen = true :=
  (origin.follows ops).held.2 hheld

theorem answer_take :
    origin.answer ops .take = .outcome (origin.after ops).completion.stage.outcome? := by
  refine (congrArg Prod.fst (look_of_open (isOpen_after hheld) _)).trans ?_
  rw [Completion.take?_eq]

theorem answer_poll : origin.answer ops .poll = .outcome (origin.after ops).completion.poll.1 :=
  congrArg Prod.fst (look_of_open (isOpen_after hheld) _)

theorem answer_pollComplete :
    origin.answer ops .pollComplete = .flag (origin.fixed? ops).isSome := by
  refine (congrArg Prod.fst (look_of_open (isOpen_after hheld) _)).trans (congrArg Answer.flag ?_)
  rw [Bool.eq_iff_iff, Completion.pollComplete_iff, Ne, (stands hheld).waiting_iff,
    Option.isSome_iff_ne_none]

theorem answer_isComplete :
    origin.answer ops .isComplete =
      .flag ((origin.fixed? ops).isSome && !origin.unnoticed ops) := by
  refine (congrArg Prod.fst (look_of_open (isOpen_after hheld) _)).trans (congrArg Answer.flag ?_)
  rw [Bool.eq_iff_iff, Completion.isComplete_iff, Ne, Ne, (stands hheld).waiting_iff,
    (stands hheld).abandoned_iff, Bool.and_eq_true, Option.isSome_iff_ne_none, Bool.not_eq_true,
    Bool.not_eq_true']

end Answers

/-- The answers of a completion and its completer after a history. -/
structure HandsOutOnce (origin : Origin) (ops : List Operation) : Prop where
  /-- nobody is given an outcome that is not fixed -/
  before : Operation.Held ops → origin.fixed? ops = none →
    origin.answer ops .take = .outcome none ∧ origin.answer ops .poll = .outcome none ∧
      origin.answer ops .pollComplete = .flag false
  /-- the first who asks is given the outcome -/
  first : ∀ o since, Operation.Held ops → origin.fixed? ops = some (o, since) →
    since.any Operation.asks = false →
    origin.answer ops .take = .outcome (some o) ∧ origin.answer ops .poll = .outcome (some o) ∧
      origin.answer ops .pollComplete = .flag true
  /-- and nobody after that -/
  later : ∀ o since, Operation.Held ops → origin.fixed? ops = some (o, since) →
    since.any Operation.asks = true →
    origin.answer ops .take = .outcome none ∧
      origin.answer ops .poll = .outcome (some (.error Completion.polledAgain)) ∧
      origin.answer ops .pollComplete = .flag true
  /-- the outcome is fixed once -/
  used : origin.fixed? ops ≠ none → ∀ u, origin.answer ops (.use u) = .gone
  /-- who resolves the completion is told whether it is held -/
  resolved : origin.fixed? ops = none → ∀ o,
    origin.answer ops (.use (.resolve o)) = .flag (decide (Operation.Held ops))
  /-- nothing becomes of a completion that has been given up -/
  closed : ¬ Operation.Held ops → ∀ op,
    (origin.after (ops ++ [op])).completion = (origin.after ops).completion ∧
      ((∀ u, op ≠ .use u) → origin.answer ops op = .gone)

theorem unused?_of_unfixed (h : origin.fixed? ops = none) : ∃ s, origin.unused? ops = some s := by
  refine Option.ne_none_iff_exists'.1 fun hnone => ?_
  exact unused?_eq_none_iff.1 hnone h

theorem resolve_told (h : origin.fixed? ops = none) (o : Outcome) :
    origin.answer ops (.use (.resolve o)) = .flag (decide (Operation.Held ops)) := by
  obtain ⟨s, hs⟩ := unused?_of_unfixed h
  have hc : (origin.after ops).completer = some s := (origin.follows ops).completer.trans hs
  have hopen : (origin.after ops).completion.isOpen = decide (Operation.Held ops) := by
    rw [Bool.eq_iff_iff, (origin.follows ops).held, decide_eq_true_iff]
  simp [answer, CompletionPair.apply, CompletionPair.use, resolve, finish, hc, hopen]

theorem closed_inert (h : ¬ Operation.Held ops) (op : Operation) :
    (origin.after (ops ++ [op])).completion = (origin.after ops).completion ∧
      ((∀ u, op ≠ .use u) → origin.answer ops op = .gone) := by
  have hopen : (origin.after ops).completion.isOpen ≠ true :=
    mt (origin.follows ops).held.1 h
  have hafter : origin.after (ops ++ [op]) = ((origin.after ops).apply op).2 :=
    after_append_singleton _ _ _
  rw [hafter]
  by_cases hop : ∀ u, op ≠ .use u
  · unfold answer
    rw [apply_of_not_open hopen hop]
    exact ⟨rfl, fun _ => rfl⟩
  · refine ⟨?_, fun h => absurd h hop⟩
    obtain ⟨u, hu⟩ := not_forall.1 hop
    obtain rfl := not_not.1 hu
    cases hc : (origin.after ops).completer with
    | none => exact congrArg (fun r => r.2.completion) (use_of_none hc u)
    | some s =>
      refine (congrArg CompletionPair.completion (use_of_some hc u)).trans ?_
      exact Use.settle_of_not_waits (fun hw => hopen hw.2) u

/-- Every history. -/
theorem handed_out_once (origin : Origin) (ops : List Operation) : HandsOutOnce origin ops where
  before hheld hfixed := by
    have hwaiting := (stands hheld).waiting_iff.2 hfixed
    refine ⟨?_, ?_, ?_⟩
    · rw [answer_take hheld, hwaiting]
      rfl
    · rw [answer_poll hheld]
      simp [Completion.poll, Completion.pollComplete, hwaiting]
    · rw [answer_pollComplete hheld, hfixed]
      rfl
  first o since hheld hfixed hasks := by
    have hstage : (origin.after ops).completion.stage.outcome? = some o :=
      (stands hheld).outcome?_eq hfixed hasks
    refine ⟨?_, ?_, ?_⟩
    · rw [answer_take hheld, hstage]
    · rw [answer_poll hheld, Completion.poll_of_outcome hstage]
    · rw [answer_pollComplete hheld, hfixed]
      rfl
  later o since hheld hfixed hasks := by
    have hstage : (origin.after ops).completion.stage = .spent :=
      (stands hheld).eq_spent hfixed hasks
    refine ⟨?_, ?_, ?_⟩
    · rw [answer_take hheld, hstage]
      rfl
    · rw [answer_poll hheld, Completion.poll_of_spent hstage]
    · rw [answer_pollComplete hheld, hfixed]
      rfl
  used hfixed u := by
    have hc := (origin.follows ops).completer.trans (unused?_eq_none_iff.2 hfixed)
    exact congrArg Prod.fst (use_of_none hc u)
  resolved := resolve_told
  closed := closed_inert

/-! ## Whether the outcome is there -/

/-- The three that look at a completion agree on whether its outcome is there, unless the completer
has gone away without one and nobody has asked for it since. -/
structure Consistent (origin : Origin) (ops : List Operation) : Prop where
  /-- `isComplete` is as good as `pollComplete` -/
  noticed : origin.unnoticed ops = false →
    (origin.answer ops .isComplete = .flag true ↔ origin.answer ops .pollComplete = .flag true)
  /-- an outcome that has not been handed out can be fetched if and only if it can be taken -/
  taken : (∀ o since, origin.fixed? ops = some (o, since) → since.any Operation.asks = false) →
    (origin.answer ops .pollComplete = .flag true ↔
      ∃ o, origin.answer ops .take = .outcome (some o))
  /-- `isComplete` does not tell of a completer that has gone away -/
  unnoticed : origin.unnoticed ops = true →
    origin.answer ops .isComplete = .flag false ∧ origin.answer ops .pollComplete = .flag true ∧
      origin.answer ops .take = .outcome (some (.error Completion.dropped))

theorem fixed?_of_unnoticed (h : origin.unnoticed ops = true) :
    ∃ since, origin.fixed? ops = some (.error Completion.dropped, since) ∧
      since.any Operation.asks = false := by
  cases hfixed : origin.fixed? ops with
  | none =>
    rw [unnoticed_of_none hfixed] at h
    cases h
  | some fixed =>
    obtain ⟨o, since⟩ := fixed
    have hasks : since.any Operation.asks = false := by
      by_contra hasks
      rw [unnoticed_of_asks hfixed (eq_true_of_ne_false hasks)] at h
      cases h
    cases origin with
    | ready r => cases h
    | pair s =>
      obtain ⟨⟨u, rest⟩, hsettled, heq⟩ := Option.map_eq_some_iff.1 hfixed
      obtain ⟨rfl, rfl⟩ : u.outcome s = o ∧ rest = since := by simpa using heq
      cases u with
      | drop => exact ⟨rest, rfl, hasks⟩
      | _ => simp [Origin.unnoticed, hsettled] at h

/-- Whenever a completion is held. -/
theorem complete_unless_unnoticed (origin : Origin) (ops : List Operation)
    (hheld : Operation.Held ops) : Consistent origin ops where
  noticed hnoticed := by
    rw [answer_isComplete hheld, answer_pollComplete hheld, hnoticed]
    simp
  taken hnot := by
    rw [answer_pollComplete hheld, answer_take hheld]
    cases hfixed : origin.fixed? ops with
    | none =>
      rw [(stands hheld).waiting_iff.2 hfixed]
      simp [Stage.outcome?]
    | some fixed =>
      rw [(stands hheld).outcome?_eq hfixed (hnot _ _ hfixed)]
      simp
  unnoticed hgone := by
    obtain ⟨since, hfixed, hasks⟩ := fixed?_of_unnoticed hgone
    refine ⟨?_, ?_, ?_⟩
    · rw [answer_isComplete hheld, hgone]
      simp
    · rw [answer_pollComplete hheld, hfixed]
      rfl
    · rw [answer_take hheld, (stands hheld).outcome?_eq hfixed hasks]

/-- A completer that goes away is noticed by whoever polls. -/
theorem complete_unless_unnoticed_polled :
    Operation.Held [.use .drop, .pollComplete] ∧
      (pair .unit).answer [.use .drop, .pollComplete] .isComplete = .flag true := by
  refine ⟨rfl, ?_⟩
  have h := (pair .unit).complete_unless_unnoticed [.use .drop, .pollComplete] rfl
  exact (h.noticed rfl).2 rfl

/-- The completer has gone away: `isComplete` says that there is no outcome, `pollComplete` that
there is one, and it can be taken. -/
theorem dropped_not_complete :
    ¬ ((pair .unit).answer [.use .drop] .isComplete = .flag true ↔
      (pair .unit).answer [.use .drop] .pollComplete = .flag true) ∧
    (pair .unit).answer [.use .drop] .take = .outcome (some (.error Completion.dropped)) := by
  refine ⟨fun h => ?_, rfl⟩
  have hcomplete := h.2 rfl
  cases hcomplete

end Origin

end CompletionPair

end RespMux
