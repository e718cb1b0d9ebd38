import RespMux.Reply.Extract

/-!
# Completions

A completion is the reading end of the result of one command. Its outcome arrives once, from the
completer on the other side, and is handed out once. If the completer goes away without an
outcome, the completion yields a failure that says so.

`isComplete` looks at what has arrived, `pollComplete` also fetches it and otherwise asks to be
woken, `take?` and `poll` hand it out.
-/

set_option autoImplicit false

namespace RespMux

/-- The number of a message in the order of creation. -/
abbrev MessageId := Nat

/-- The number of a completion in the order of creation. -/
abbrev CompletionId := Nat

/-- The result of one command. -/
abbrev Outcome := Except Error Value

/-- How far the outcome of a completion has come. -/
inductive Stage where
  /-- the completer has it still to give -/
  | waiting
  /-- it has been given and not been looked at -/
  | delivered (o : Outcome)
  /-- the completer went away without giving one -/
  | abandoned
  /-- it has been fetched, but not handed out -/
  | fetched (o : Outcome)
  /-- it has been handed out -/
  | spent
  deriving Inhabited

/-- Whether the reader of a completion waits to be woken. -/
inductive Waker where
  | idle | armed | woken
  deriving DecidableEq, Repr, Inhabited

/-- The reading end of a result. -/
structure Completion where
  stage : Stage := .waiting
  waker : Waker := .idle
  /-- somebody still holds the reading end -/
  isOpen : Bool := true
  /-- the message that can be cancelled through the completion -/
  target : Option MessageId := none
  deriving Inhabited

namespace Completion

/-- The failure of a completion whose completer went away. -/
def dropped : Error := .connectionTerminated "the message was dropped without a reply"

/-- The failure of a completion that is asked again for what it has handed out. -/
def polledAgain : Error := .invalidState "completion polled after it returned a result"

/-- A completion that has its outcome from the start. -/
def ready (o : Outcome) : Completion := { stage := .fetched o }

/-! ## The side of the completer -/

/-- Wakes the reader if it waits. -/
def wake (c : Completion) : Completion :=
  match c.waker with
  | .armed => { c with waker := .woken }
  | _ => c

/-- Gives the outcome. -/
def deliver (c : Completion) (o : Outcome) : Completion :=
  match c.stage, c.isOpen with
  | .waiting, true => { c with stage := .delivered o }.wake
  | _, _ => c

/-- The completer goes away. -/
def abandon (c : Completion) : Completion :=
  match c.stage, c.isOpen with
  | .waiting, true => { c with stage := .abandoned }.wake
  | _, _ => c

/-! ## The side of the reader -/

/-- The outcome has arrived. -/
def isComplete (c : Completion) : Bool :=
  match c.stage with
  | .waiting => false
  | .delivered _ => true
  | .abandoned => false
  | .fetched _ => true
  | .spent => true

/-- Hands the outcome out if it is there. -/
def take? (c : Completion) : Option Outcome × Completion :=
  match c.stage with
  | .waiting => (none, c)
  | .delivered o => (some o, { c with stage := .spent })
  | .abandoned => (some (.error dropped), { c with stage := .spent })
  | .fetched o => (some o, { c with stage := .spent })
  | .spent => (none, c)

/-- Fetches the outcome, and tells whether there is one; if not, the reader waits for it. -/
def pollComplete (c : Completion) : Bool × Completion :=
  match c.stage with
  | .waiting => (false, { c with waker := .armed })
  | .delivered o => (true, { c with stage := .fetched o, waker := .idle })
  | .abandoned => (true, { c with stage := .fetched (.error dropped), waker := .idle })
  | .fetched _ => (true, { c with waker := .idle })
  | .spent => (true, { c with waker := .idle })

/-- Fetches the outcome and hands it out; none while the completion waits for it. -/
def poll (c : Completion) : Option Outcome × Completion :=
  let (isReady, c) := c.pollComplete
  match isReady, c.stage with
  | false, _ => (none, c)
  | true, .fetched o => (some o, { c with stage := .spent })
  | true, _ => (some (.error polledAgain), c)

/-- The completion after somebody else has blocked on it. A reader who waited to be woken `before`
has lost that place; one who had been woken still has. -/
def afterBlocking (c before : Completion) : Completion :=
  { c with waker := if before.waker = .woken then .woken else .idle }

/-- The reader that waited has been woken. -/
def isWoken (c : Completion) : Bool := c.waker == .woken

/-- Gives the reading end up. -/
def close (c : Completion) : Completion := { c with isOpen := false }

end Completion

/-! ## A completion and its completer -/

/-- A completion together with its completer, as long as that has not been used. -/
structure CompletionPair where
  completion : Completion := {}
  /-- the shape in which the completer gives a reply -/
  completer : Option Shape
  deriving Inhabited

namespace CompletionPair

/-- Uses the completer up; says whether there was one. -/
def finish (p : CompletionPair) (o : Shape → Outcome) : Option Shape × CompletionPair :=
  match p.completer with
  | some s => (some s, ⟨p.completion.deliver (o s), none⟩)
  | none => (none, p)

/-- Gives the outcome directly. Says whether somebody still holds the completion, if there was a
completer. -/
def resolve (p : CompletionPair) (o : Outcome) : Option Bool × CompletionPair :=
  let (used, q) := p.finish fun _ => o
  (used.map fun _ => p.completion.isOpen, q)

/-- Gives the completer away; says whether there was one. -/
def dropCompleter (p : CompletionPair) : Bool × CompletionPair :=
  match p.completer with
  | some _ => (true, ⟨p.completion.abandon, none⟩)
  | none => (false, p)

end CompletionPair

end RespMux
