import Rostfrei.Executor.Loop
import Rostfrei.Lib.Answers

/-!
# The executor over any store

`execute_completed_with_rejection_codec` and `simulate` for any `ExecutionStore`: what the executor
asks of a store are its outcomes, sessions, histories and commits. The in-memory store is one of them
(`executeLoop_eq`); `ExecutionStore.calls` is the store whose every answer is arbitrary.
-/

namespace Rostfrei

open Lib Memory

/-! ## Stores -/

/-- `ExecutionStore`, with the session of a command: `load` and `commitOutcome` are those of the
session, and `load` is also that of the store itself. -/
structure ExecutionStore (m : Type → Type) where
  authority : CommandAuthority
  lookupOutcome : OutcomeKey → m (Except EventStoreError OutcomeLookup)
  beginCommand : m (Except EventStoreError Unit)
  load : EventHistory m
  commitOutcome : EventTransaction → m (Except EventStoreError CompletedCommit)

section Executor

variable [Crates] {m : Type → Type} [Monad m]

namespace ExecutionStore

variable (store : ExecutionStore m) (metadata : CommandExecutionMetadata)

omit [Crates] in
/-- The key of the command's outcome. -/
def outcomeKey (context : BoundedContextName) : OutcomeKey :=
  ⟨store.authority, context, metadata.operationId⟩

/-- `lookup_completed`. -/
def lookupCompleted : ExceptT CommandExecutionError m (Option CompletedOutcome) := do
  let context ← liftM (metadata.requiredBoundedContext.mapError CommandExecutionError.store)
  let key := store.outcomeKey metadata context
  let found ← ExceptT.adapt (fun e => CommandExecutionError.store e.inOutcomeRecovery)
    (ExceptT.mk (store.lookupOutcome key))
  match found with
  | .missing => return none
  | .completed outcome =>
    liftM (validateCompleted outcome key metadata)
    return some outcome

/-- `append_transaction`. -/
def appendTransaction (participants : List CollectedParticipant)
    (rejection : Option EncodedRejection) : ExceptT CommandExecutionError m PersistenceAttempt := do
  let t ← liftM
    ((prepareTransaction metadata participants rejection).mapError CommandExecutionError.store)
  let answer ← ExceptT.lift (store.commitOutcome t)
  match answer with
  | .ok outcome => return .completed outcome
  | .error e =>
    if e.kind = .conflict ∨ e.kind = .identityConflict then return .conflict e
    else if e.origin = .outcomeRecovery then throwThe CommandExecutionError (.store e)
    else if rejection.isSome then
      throwThe CommandExecutionError (.rejectedOutcomePersistence e)
    else throwThe CommandExecutionError (.store e)

/-- What a handler decides in one evaluation, and what is collected from it. -/
def evaluate {Rejection : Type} (codecs : AggregateCodecs) (codec : RejectionCodec Rejection)
    (handler : Handler Rejection) :
    ExceptT CommandExecutionError m (List CollectedParticipant × Option EncodedRejection) := do
  let (decision, x) ← ExceptT.lift (CommandExecution.handle store.load codecs metadata handler .new)
  liftM (settle codec decision x)

/-- The loop of `execute_completed_with_rejection_codec`, from a number of evaluations on. -/
def executeLoop {Rejection : Type} (executor : CommandExecutor) (codec : RejectionCodec Rejection) :
    List (Handler Rejection) → Nat → ExceptT CommandExecutionError m (Option CompletedCommit)
  | [], _ => return none
  | handler :: attempts, evaluations => do
    let winner ← store.lookupCompleted metadata
    match winner with
    | some outcome => return some (.exactReplay outcome)
    | none =>
      ExceptT.adapt CommandExecutionError.store (ExceptT.mk store.beginCommand)
      let evaluations := saturatingSucc evaluations
      let (participants, rejection) ← store.evaluate metadata executor.codecs codec handler
      let attempt ← store.appendTransaction metadata participants rejection
      match attempt with
      | .completed commit =>
        let context ← liftM (metadata.requiredBoundedContext.mapError CommandExecutionError.store)
        liftM (validateCompleted commit.outcome (store.outcomeKey metadata context) metadata)
        return some commit
      | .conflict e =>
        let winner ← store.lookupCompleted metadata
        match winner with
        | some outcome => return some (.exactReplay outcome)
        | none =>
          if e.kind ≠ .conflict then throwThe CommandExecutionError (.store e)
          else
            match executor.conflictRetryPolicy evaluations e with
            | .stop => throwThe CommandExecutionError (.store e)
            | .retryNow | .retryAfter _ => executeLoop executor codec attempts evaluations

/-- `execute_completed_with_rejection_codec`. -/
def execute (e : Execution) : ExceptT CommandExecutionError m (Option CompletedCommit) := do
  let metadata ← liftM e.metadata
  store.executeLoop metadata e.executor e.codec e.attempts 0

end ExecutionStore

/-! ## The store in memory -/

/-- The in-memory store; to begin a command is to take the store itself. -/
def InMemoryEventStore.executionStore (store : InMemoryEventStore) :
    ExecutionStore StoreProgram where
  authority := store.authority
  lookupOutcome key := (Session.lookupOutcome store key).run
  beginCommand := pure (.ok ())
  load := Session.history
  commitOutcome t := (Session.commitOutcome t).run

theorem executeLoop_eq {Rejection : Type} (store : InMemoryEventStore) (executor : CommandExecutor)
    (metadata : CommandExecutionMetadata) (codec : RejectionCodec Rejection)
    (attempts : List (Handler Rejection)) (evaluations : Nat) :
    executeLoop store executor metadata codec attempts evaluations =
      store.executionStore.executeLoop metadata executor codec attempts evaluations := by
  induction attempts generalizing evaluations with
  | nil => rfl
  | cons handler attempts ih =>
    have hlookup : lookupCompleted store metadata =
        store.executionStore.lookupCompleted metadata := rfl
    have happend : ∀ participants rejection, appendTransaction metadata participants rejection =
        store.executionStore.appendTransaction metadata participants rejection := fun _ _ => rfl
    rw [executeLoop, ExecutionStore.executeLoop, hlookup]
    refine congrArg _ (funext fun winner => ?_)
    cases winner with
    | some outcome => rfl
    | none =>
      simp only [ExecutionStore.evaluate, bind_assoc, happend, ih]
      rfl

theorem program_eq (e : Execution) (store : InMemoryEventStore) :
    e.program store = store.executionStore.execute e := by
  rw [Execution.program, ExecutionStore.execute]
  simp only [executeLoop_eq]

end Executor

/-! ## The store of arbitrary answers -/

inductive ExecutionCall where
  | lookupOutcome (key : OutcomeKey)
  | beginCommand
  | load (streamId : StreamId)
  | commitOutcome (t : EventTransaction)

def ExecutionCall.Answer : ExecutionCall → Type
  | lookupOutcome _ => Except EventStoreError OutcomeLookup
  | beginCommand => Except EventStoreError Unit
  | load _ => Except EventStoreError (List RecordedEvent)
  | commitOutcome _ => Except EventStoreError CompletedCommit

abbrev ExecutionProgram := Program ExecutionCall ExecutionCall.Answer

/-- A call of the executor with the answer of its store. -/
abbrev Exchange := Program.Answer ExecutionCall ExecutionCall.Answer

/-- Every operation is a call. -/
def ExecutionStore.calls (authority : CommandAuthority) : ExecutionStore ExecutionProgram where
  authority := authority
  lookupOutcome key := Program.perform (ExecutionCall.lookupOutcome key)
  beginCommand := Program.perform ExecutionCall.beginCommand
  load streamId := Program.perform (ExecutionCall.load streamId)
  commitOutcome t := Program.perform (ExecutionCall.commitOutcome t)

end Rostfrei
