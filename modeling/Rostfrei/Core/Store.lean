import Rostfrei.Core.Completion

/-!
# Transactions, receipts and store errors

The data of `store.rs`: what a store is asked to commit (`EventTransaction`), what it answers
(`TransactionReceipt`) and how it fails (`EventStoreError`). `validateTransactionItemLimit` bounds
a transaction to 100 durable items: its events, its read guards and its receipt.
-/

namespace Rostfrei

open Lib

/-- `usize::checked_add` on a 64-bit target. -/
def checkedAdd (a b : Nat) : Option Nat := if a + b < 2 ^ 64 then some (a + b) else none

@[simp] theorem checkedAdd_eq_some {a b c : Nat} :
    checkedAdd a b = some c ↔ a + b < 2 ^ 64 ∧ a + b = c := by
  unfold checkedAdd
  split <;> simp_all

def maxTransactionItems : Nat := 100
def transactionReceiptItems : Nat := 1

/-! ## Errors -/

inductive EventStoreErrorKind where
  | invalidRequest
  | conflict
  | identityConflict
  | corruptHistory
  | capacityExhausted
  | configurationMismatch
  | unavailable
  | detailForbidden
  | completedDetailsExpired
  | completedDetailsUnavailable
deriving DecidableEq, Repr

/-- The `Debug` name, which is also the `Display` text. -/
def EventStoreErrorKind.name : EventStoreErrorKind → String
  | invalidRequest => "InvalidRequest"
  | conflict => "Conflict"
  | identityConflict => "IdentityConflict"
  | corruptHistory => "CorruptHistory"
  | capacityExhausted => "CapacityExhausted"
  | configurationMismatch => "ConfigurationMismatch"
  | unavailable => "Unavailable"
  | detailForbidden => "DetailForbidden"
  | completedDetailsExpired => "CompletedDetailsExpired"
  | completedDetailsUnavailable => "CompletedDetailsUnavailable"

inductive EventStoreErrorOrigin where
  | backend
  | outcomeRecovery
deriving DecidableEq, Repr

structure EventStoreError where
  kind : EventStoreErrorKind
  message : String
  origin : EventStoreErrorOrigin
deriving DecidableEq, Repr

namespace EventStoreError

/-- `EventStoreError::new`. -/
def new (kind : EventStoreErrorKind) (message : String) : EventStoreError :=
  ⟨kind, message, .backend⟩

/-- The `Display` text. -/
def toString (e : EventStoreError) : String := e.kind.name ++ ": " ++ e.message

/-- `in_outcome_recovery`: marks an error after a committed winner. -/
def inOutcomeRecovery (e : EventStoreError) : EventStoreError :=
  { e with origin := .outcomeRecovery }

end EventStoreError

def invalid (message : String) : EventStoreError := .new .invalidRequest message
def identityConflict (message : String) : EventStoreError := .new .identityConflict message
def corrupt (message : String) : EventStoreError := .new .corruptHistory message

/-! ## Transactions -/

/-- A stream of a transaction: events to append, or a read guard if there is no batch. -/
structure TransactionParticipant where
  streamId : StreamId
  expectedVersion : ExpectedVersion
  batch : Option EventBatch
deriving DecidableEq

/-- An atomic command acceptance, with zero or more participants. -/
structure EventTransaction where
  actor : Option ActorRef
  securityScope : Option SecurityScope
  completion : Option CommandCompletion
  boundedContext : Option BoundedContextName
  operationId : OperationId
  operationFingerprint : ContentFingerprint
  correlationId : Option CorrelationId
  causationId : Option CausationId
  participants : List TransactionParticipant
deriving DecidableEq

namespace EventTransaction

/-- `EventTransaction::new`; the optional parts are set afterwards. -/
def new (operationId : OperationId) (operationFingerprint : ContentFingerprint)
    (participants : List TransactionParticipant) : EventTransaction where
  actor := none
  securityScope := none
  completion := none
  boundedContext := none
  operationId := operationId
  operationFingerprint := operationFingerprint
  correlationId := none
  causationId := none
  participants := participants

/-- The batches of the written participants, in order. -/
def batches (t : EventTransaction) : List EventBatch :=
  t.participants.filterMap (·.batch)

/-- The number of domain events. -/
def eventCount (t : EventTransaction) : Nat := (t.batches.map (·.events.length)).sum

/-- The number of read guards. -/
def guardCount (t : EventTransaction) : Nat :=
  (t.participants.filter (·.batch.isNone)).length

end EventTransaction

/-- The sum of the event counts; `none` when it overflows a `usize`. -/
def sumEvents (batches : List EventBatch) : Option Nat :=
  batches.foldlM (fun total batch => checkedAdd total batch.events.length) 0

/-- `validate_transaction_item_limit`: the number of domain events. -/
def validateTransactionItemLimit (t : EventTransaction) : Except EventStoreError Nat := do
  let domainEventCount ← okOr (invalid "transaction event count overflowed") (sumEvents t.batches)
  let itemCount ← okOr (invalid "transaction item count overflowed")
    ((checkedAdd domainEventCount t.guardCount).bind (checkedAdd · transactionReceiptItems))
  rejectIf (itemCount > maxTransactionItems) (invalid
    ("event transaction contains " ++ toString itemCount ++ " atomic items, exceeding the " ++
      toString maxTransactionItems ++ "-item limit; reduce its domain events or read guards, " ++
      "or split the work across commands"))
  return domainEventCount

theorem foldlM_checkedAdd {batches : List EventBatch} {start total : Nat}
    (hstart : start < 2 ^ 64) :
    batches.foldlM (fun total batch => checkedAdd total batch.events.length) start = some total ↔
      start + (batches.map (·.events.length)).sum < 2 ^ 64 ∧
        start + (batches.map (·.events.length)).sum = total := by
  induction batches generalizing start with
  | nil => simpa [eq_comm] using fun _ => hstart
  | cons b bs ih =>
    simp only [List.foldlM_cons, Option.bind_eq_bind, Option.bind_eq_some_iff, checkedAdd_eq_some,
      List.map_cons, List.sum_cons]
    constructor
    · rintro ⟨c, ⟨hc, rfl⟩, hrest⟩
      have := (ih hc).mp hrest
      omega
    · rintro ⟨hlt, htotal⟩
      have hc : start + b.events.length < 2 ^ 64 := by omega
      exact ⟨_, ⟨hc, rfl⟩, (ih hc).mpr (by omega)⟩

/-- The limit passes if events, guards and the receipt are at most 100 items. -/
theorem validateTransactionItemLimit_eq_ok {t : EventTransaction} {n : Nat} :
    validateTransactionItemLimit t = .ok n ↔
      t.eventCount + t.guardCount + transactionReceiptItems ≤ maxTransactionItems ∧
        t.eventCount = n := by
  simp only [validateTransactionItemLimit, bind_eq_ok, okOr_eq_ok, rejectIf_eq_ok, pure_eq_ok,
    Option.bind_eq_some_iff, checkedAdd_eq_some, sumEvents,
    foldlM_checkedAdd (by decide : 0 < 2 ^ 64), Nat.zero_add, EventTransaction.eventCount]
  have hmax : maxTransactionItems = 100 := rfl
  constructor
  · rintro ⟨_, ⟨-, rfl⟩, c, ⟨_, ⟨-, rfl⟩, -, rfl⟩, -, hle, rfl⟩
    exact ⟨by omega, rfl⟩
  · rintro ⟨hle, rfl⟩
    exact ⟨_, ⟨by omega, rfl⟩, _, ⟨_, ⟨by omega, rfl⟩, by omega, rfl⟩, (), by omega, rfl⟩

/-! ## Receipts -/

/-- What a transaction did to one participant; a read guard has no events. -/
structure TransactionStreamReceipt where
  streamId : StreamId
  baseVersion : Nat
  events : List RecordedEvent
deriving DecidableEq

structure TransactionReceipt where
  actor : Option ActorRef
  securityScope : Option SecurityScope
  completion : Option CommandCompletion
  boundedContext : Option BoundedContextName
  operationId : OperationId
  operationFingerprint : ContentFingerprint
  correlationId : Option CorrelationId
  causationId : Option CausationId
  streams : List TransactionStreamReceipt
deriving DecidableEq

namespace TransactionReceipt

/-- `TransactionReceipt::without_completion`. -/
def withoutCompletion (r : TransactionReceipt) : TransactionReceipt := { r with completion := none }

/-- `TransactionReceipt::require_acceptance`. -/
def requireAcceptance (r : TransactionReceipt) : Except EventStoreError TransactionReceipt := do
  rejectIf (r.completion.any (·.rejection.isSome))
    (identityConflict "operation has a completed rejection, not acceptance")
  return r

end TransactionReceipt

/-- The answer to a single-stream append. -/
inductive AppendOutcome where
  | appended (events : List RecordedEvent)
  | exactReplay (events : List RecordedEvent)
deriving DecidableEq

/-- The answer to a transaction. -/
inductive TransactionAppendOutcome where
  | appended (receipt : TransactionReceipt)
  | exactReplay (receipt : TransactionReceipt)
deriving DecidableEq

/-- `validate_completed_transaction`. -/
def validateCompletedTransaction (t : EventTransaction) : Except EventStoreError Unit :=
  match t.completion with
  | none => .error (invalid
      ("commit_outcome requires an explicit completed decision; " ++
        "use append_transaction for legacy acceptance"))
  | some completion => do
    completion.validate.mapError fun e => invalid e.toString
    rejectIf (t.boundedContext = none ∨
        completion.rejection.isSome ∧ t.participants.any (·.batch.isSome))
      (invalid "completed rejection requires context and read guards only")

/-- A checked completion is valid, and a rejection only has read guards. -/
theorem completion_of_validateCompleted {t : EventTransaction} {c : CommandCompletion}
    (h : validateCompletedTransaction t = .ok ()) (hc : t.completion = some c) :
    c.validate = .ok () ∧ (c.rejection.isSome → ∀ p ∈ t.participants, p.batch = none) := by
  rw [validateCompletedTransaction, hc] at h
  simp only [bind_unit_eq_ok, mapError_eq_ok, rejectIf_eq_ok, not_or, not_and] at h
  refine ⟨h.1, fun hrejected p hp => ?_⟩
  have hnone := h.2.2 hrejected
  simpa using List.any_eq_false.mp (Bool.eq_false_iff.mpr hnone) p hp

end Rostfrei
