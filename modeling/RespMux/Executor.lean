import RespMux.PriorityQueue
import RespMux.Store

/-!
# Submitting commands

An executor is whatever takes messages: a connection, which sends them, or a transaction, which
collects them. Submitting a message gives it a completer and returns the completion. Whatever
happens to the submission, the completion has or will get an outcome: a message that already had
a completer is not submitted, and one that the executor refuses fails.

A `Recorder` is an executor that only notes what it takes.
-/

set_option autoImplicit false

namespace RespMux

/-- What takes messages, as part of a state `σ` that holds the store. -/
structure Executor (σ : Type) where
  store : σ → Store
  withStore : σ → Store → σ
  /-- takes a message; none if the caller has to wait for room -/
  enqueue : σ → MessageId → Priority → Option (Except Error σ)
  store_withStore : ∀ s store', store (withStore s store') = store' := by intros; rfl

/-- Submits a message, for a result of the given shape; none if the caller has to wait. -/
def Executor.submit {σ : Type} (x : Executor σ) (s : σ) (id : MessageId) (priority : Priority)
    (shape : Shape) : Option (CompletionId × σ) :=
  let (k, store) := (x.store s).addCompletion {}
  match store.assign id ⟨k, shape⟩ with
  | .error e =>
      let (k, store) := (x.store s).addCompletion (.ready (.error e))
      some (k, x.withStore s store)
  | .ok store =>
      let store := store.link k id
      match x.enqueue (x.withStore s store) id priority with
      | none => none
      | some (.ok s) => some (k, s)
      | some (.error e) => some (k, x.withStore s (store.fail id e))

/-! ## A recorder -/

/-- An executor that keeps what it takes, or refuses everything. -/
structure Recorder where
  store : Store := {}
  accepted : List (MessageId × Priority) := []
  refusal : Option Error := none
  deriving Inhabited

/-- A recorder as an executor. -/
def Recorder.executor : Executor Recorder where
  store r := r.store
  withStore r s := { r with store := s }
  enqueue r id priority :=
    match r.refusal with
    | some e => some (.error e)
    | none => some (.ok { r with accepted := r.accepted ++ [(id, priority)] })

end RespMux
