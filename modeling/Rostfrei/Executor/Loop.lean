import Rostfrei.Executor.Handling
import Rostfrei.Memory.Store

/-!
# The command executor

`CommandExecutor::execute_completed_with_rejection_codec` over an in-memory store, as a program
over `StoreCall`: each call is one time that the store's lock is held, and between two calls any
other execution may run. The loop looks for a completed outcome, lets the handler decide, commits,
and after a conflict looks again before it retries.

The list of attempts is what the handler does in each evaluation; it may do something else every
time. A run that uses them up ends without a result, so a theorem about all lists is about every
finite part of a loop whose policy never stops.
-/

namespace Rostfrei

open Lib Memory

/-! ## Calls on the store -/

inductive StoreCall where
  | load (streamId : StreamId)
  /-- The record of an operation. -/
  | transaction (context : BoundedContextName) (operation : OperationId)
  /-- The lifecycle of the details of a record. -/
  | lifecycle (reference : OutcomeDetailReference)
  /-- The details themselves, from the readers. -/
  | details (reference : OutcomeDetailReference)
  | append (t : EventTransaction)

def StoreCall.Answer : StoreCall → Type
  | load _ => List RecordedEvent
  | transaction .. => Option StoredTransaction
  | lifecycle _ => Option DetailState
  | details _ => Except EventStoreError OutcomeDetails
  | append _ => Except EventStoreError (StoredTransaction × Bool)

abbrev StoreProgram := Program StoreCall StoreCall.Answer

section Executor

variable [Crates]

/-- What the store answers to a call, and its state afterwards. -/
def InMemoryEventStore.serve (store : InMemoryEventStore) (st : State) :
    (call : StoreCall) → call.Answer × State
  | .load streamId => (store.load st streamId, st)
  | .transaction context operation => (st.transactions.lookup (some context, operation), st)
  | .lifecycle reference => (st.details.lookup reference, st)
  | .details reference =>
    (resolveDetails reference (store.hot st reference)
      (store.cold.map fun reader => reader st reference), st)
  | .append t =>
    match store.appendTransactionInner t st with
    | .ok stored st' => (.ok stored, st')
    | .error e st' => (.error e, st')

namespace Session

/-- `EventHistory::load` of a session. -/
def history : EventHistory StoreProgram := fun streamId => do
  let events : List RecordedEvent ← Program.perform (StoreCall.load streamId)
  return .ok events

/-- `resolve_marker`: the lifecycle first, then the readers, each under its own lock. -/
def resolveMarker (marker : OutcomeMarker) : ExceptT EventStoreError StoreProgram CompletedOutcome :=
  do
    let lifecycle : Option DetailState ←
      ExceptT.lift (Program.perform (StoreCall.lifecycle marker.reference))
    match lifecycle with
    | none => throwThe EventStoreError (corrupt "completed outcome lifecycle authority is missing")
    | some .expired => liftM ((CompletedOutcome.new marker .expired).mapError recoveryError)
    | some (.active _) =>
      let details : OutcomeDetails ←
        ExceptT.mk (Program.perform (StoreCall.details marker.reference))
      liftM ((CompletedOutcome.new marker details).mapError recoveryError)

/-- `OutcomeReader::lookup_outcome`. -/
def lookupOutcome (store : InMemoryEventStore) (key : OutcomeKey) :
    ExceptT EventStoreError StoreProgram OutcomeLookup := do
  liftM (store.validateAuthority key)
  let stored : Option StoredTransaction ←
    ExceptT.lift (Program.perform (StoreCall.transaction key.context key.operation))
  match stored with
  | none => return .missing
  | some (.scoped marker) =>
    let outcome ← ExceptT.adapt (·.inOutcomeRecovery) (resolveMarker marker)
    return .completed outcome
  | some (.unscoped _ _) => throwThe EventStoreError (corrupt "scoped outcome has no marker")

/-- `CommandCommitSession::commit_outcome`. -/
def commitOutcome (t : EventTransaction) : ExceptT EventStoreError StoreProgram CompletedCommit := do
  liftM (validateCompletedTransaction t)
  let committed : StoredTransaction × Bool ← ExceptT.mk (Program.perform (StoreCall.append t))
  match committed.1 with
  | .unscoped _ _ =>
    throwThe EventStoreError (invalid "completed command requires scoped marker")
  | .scoped marker =>
    let outcome ← ExceptT.adapt (·.inOutcomeRecovery) (resolveMarker marker)
    return if committed.2 then .exactReplay outcome else .appended outcome

end Session

/-! ## Outcomes for a command -/

omit [Crates] in
/-- `OutcomeMarker::validate_key`. -/
def OutcomeMarker.validateKey (marker : OutcomeMarker) (expected : OutcomeKey) :
    Except EventStoreError Unit :=
  rejectIf (marker.reference.key ≠ expected) (corrupt
    "completed outcome reference key differs from requested authority/context/operation")

omit [Crates] in
/-- A marker without evidence matches every command. -/
def evidenceMatches : Option OutcomeEvidence → Option OutcomeEvidence → Bool
  | some recorded, some requested => recorded.sameIdentity requested
  | none, _ => true
  | some _, none => false

omit [Crates] in
/-- `OutcomeMarker::validate_identity`. -/
def OutcomeMarker.validateIdentity (marker : OutcomeMarker) (m : CommandExecutionMetadata) :
    Except EventStoreError Unit :=
  rejectIf
    (marker.integrity.boundedContext ≠ m.boundedContext ∨
      marker.integrity.operationId ≠ m.operationId ∨
      marker.integrity.operationFingerprint ≠ m.operationFingerprint ∨
      marker.integrity.correlationId ≠ m.correlationId ∨
      marker.integrity.causationId ≠ m.causationId ∨
      marker.reference.actor ≠ m.actor ∨
      marker.reference.securityScope ≠ m.securityScope ∨
      ¬ evidenceMatches marker.evidence m.outcomeEvidence)
    (identityConflict "completed command identity differs")

/-- `CompletedOutcome::validate_for`. -/
def CompletedOutcome.validateFor (outcome : CompletedOutcome) (key : OutcomeKey)
    (m : CommandExecutionMetadata) : Except EventStoreError Unit := do
  outcome.marker.validateKey key
  outcome.marker.validateIdentity m
  outcome.marker.integrity.validateIntegrity
  (validateDetailBinding outcome.marker outcome.details).mapError fun e => corrupt e.toString

/-- `validate_for`, as an error after a committed winner. -/
def validateCompleted (outcome : CompletedOutcome) (key : OutcomeKey)
    (m : CommandExecutionMetadata) : Except CommandExecutionError Unit :=
  (outcome.validateFor key m).mapError fun e => .store e.inOutcomeRecovery

/-- The outcome of a commit. -/
def CompletedCommit.outcome : CompletedCommit → CompletedOutcome
  | appended outcome | exactReplay outcome => outcome

/-- `lookup_completed`. -/
def lookupCompleted (store : InMemoryEventStore) (m : CommandExecutionMetadata) :
    ExceptT CommandExecutionError StoreProgram (Option CompletedOutcome) := do
  let context ← liftM (m.requiredBoundedContext.mapError CommandExecutionError.store)
  let key : OutcomeKey := ⟨store.authority, context, m.operationId⟩
  let found ← ExceptT.adapt (fun e => CommandExecutionError.store e.inOutcomeRecovery)
    (Session.lookupOutcome store key)
  match found with
  | .missing => return none
  | .completed outcome =>
    liftM (validateCompleted outcome key m)
    return some outcome

inductive PersistenceAttempt where
  | completed (outcome : CompletedCommit)
  | conflict (error : EventStoreError)

/-- `append_transaction`. -/
def appendTransaction (m : CommandExecutionMetadata) (participants : List CollectedParticipant)
    (rejection : Option EncodedRejection) :
    ExceptT CommandExecutionError StoreProgram PersistenceAttempt := do
  let t ← liftM ((prepareTransaction m participants rejection).mapError CommandExecutionError.store)
  let answer ← ExceptT.lift (Session.commitOutcome t).run
  match answer with
  | .ok outcome => return .completed outcome
  | .error e =>
    if e.kind = .conflict ∨ e.kind = .identityConflict then return .conflict e
    else if e.origin = .outcomeRecovery then throwThe CommandExecutionError (.store e)
    else if rejection.isSome then
      throwThe CommandExecutionError (.rejectedOutcomePersistence e)
    else throwThe CommandExecutionError (.store e)

/-! ## The loop -/

/-- A delay only takes time. -/
inductive ConflictRetryDecision where
  | stop
  | retryNow
  | retryAfter (milliseconds : Nat)
deriving DecidableEq, Repr

/-- `ConflictRetryPolicy::after_conflict`, of the evaluations so far and the conflict. -/
abbrev ConflictRetryPolicy := Nat → EventStoreError → ConflictRetryDecision

omit [Crates] in
/-- `BoundedConflictRetries`. -/
def boundedConflictRetries (maximum : Nat) : ConflictRetryPolicy := fun evaluations _ =>
  if evaluations ≤ maximum then .retryNow else .stop

omit [Crates] in
/-- `usize::saturating_add` of one. -/
def saturatingSucc (n : Nat) : Nat := min (n + 1) (2 ^ 64 - 1)

structure CommandExecutor where
  codecs : AggregateCodecs
  conflictRetryPolicy : ConflictRetryPolicy

/-- The loop of `execute_completed_with_rejection_codec`, from a number of evaluations on. -/
def executeLoop {Rejection : Type} (store : InMemoryEventStore) (executor : CommandExecutor)
    (m : CommandExecutionMetadata) (codec : RejectionCodec Rejection) :
    List (Handler Rejection) → Nat →
      ExceptT CommandExecutionError StoreProgram (Option CompletedCommit)
  | [], _ => return none
  | handler :: attempts, evaluations => do
    let winner ← lookupCompleted store m
    match winner with
    | some outcome => return some (.exactReplay outcome)
    | none =>
      let evaluations := saturatingSucc evaluations
      let (decision, x) ← ExceptT.lift
        (CommandExecution.handle Session.history executor.codecs m handler .new)
      let (participants, rejection) ← liftM (settle codec decision x)
      let attempt ← appendTransaction m participants rejection
      match attempt with
      | .completed commit =>
        let context ← liftM (m.requiredBoundedContext.mapError CommandExecutionError.store)
        liftM (validateCompleted commit.outcome ⟨store.authority, context, m.operationId⟩ m)
        return some commit
      | .conflict e =>
        -- A simultaneous execution may have decided; its record is then the answer.
        let winner ← lookupCompleted store m
        match winner with
        | some outcome => return some (.exactReplay outcome)
        | none =>
          if e.kind ≠ .conflict then throwThe CommandExecutionError (.store e)
          else
            match executor.conflictRetryPolicy evaluations e with
            | .stop => throwThe CommandExecutionError (.store e)
            | .retryNow | .retryAfter _ =>
              executeLoop store executor m codec attempts evaluations

end Executor

/-- A command that is executed, with what its handler does in each evaluation. -/
structure Execution where
  Rejection : Type
  executor : CommandExecutor
  /-- The metadata of the caller. -/
  request : CommandExecutionMetadata
  /-- The name of the Rust command type. -/
  commandType : String
  codec : RejectionCodec Rejection
  attempts : List (Handler Rejection)

namespace Execution

/-- The metadata that the executor works with. -/
def metadata (e : Execution) : Except CommandExecutionError CommandExecutionMetadata := do
  let m ← (e.request.withDefaultOutcomeEvidence e.commandType).normalized.mapError
    fun error => CommandExecutionError.store (invalid error.toString)
  forM m.outcomeEvidence.toList fun evidence =>
    evidence.validate.mapError CommandExecutionError.codec
  return m

variable [Crates]

/-- `execute_completed_with_rejection_codec`. -/
def program (e : Execution) (store : InMemoryEventStore) :
    ExceptT CommandExecutionError StoreProgram (Option CompletedCommit) := do
  let m ← liftM e.metadata
  executeLoop store e.executor m e.codec e.attempts 0

end Execution

end Rostfrei
