import Rostfrei.Runtime.Command
import Rostfrei.Tracer.Hub

/-!
# Submitting operations

`submit_operation_internal` and `reset_test_scenario_unlocked` of `service.rs`, with the table of
operations, over the correlation hub.

The table is under a lock which a submission holds from the lookup on, while other calls go on with
the hub and with the records. `Submitting` is the submission that holds it, and its `Stage` is what
comes next, so that each use of the hub is a step of its own:

* `submit`: the checks, the lookup, the test for room, the permit;
* `evict`: one turn of `evict_terminal`;
* `register`: both insertions into the table and `register_command`;
* `pin`: the subscription of a pinned submission.

A `Test` submission holds the scenario gate from its checks until the end of its execution, and a
reset holds it alone.
-/

namespace Rostfrei.Tracer

open Lib Messaging

/-- `OperationMode::as_str`. -/
def OperationMode.asStr : OperationMode → String
  | simulate => "simulate"
  | test => "test"
  | dispatch => "dispatch"

/-- The errors of a submission. -/
inductive SubmissionError where
  | unknownCommand (context command : String) (schemaVersion : UInt32)
  | invalidOperationId (message : String)
  | payloadTooLarge (maximum : Nat)
  | identityConflict
  | idempotencyKeyRequired
  | testScenarioUnavailable
  | capacityExhausted
  | concurrencyExhausted
  | modeUnavailable (mode : String)
deriving DecidableEq, Repr

def maxCommandPayloadLen : Nat := 1024 * 1024

/-! ## Requests -/

/-- What the tracer is built with. -/
structure TracerConfig where
  testBackingConfigured : Bool
  testTransport : Bool
  dispatchTransport : Bool
  /-- The keys of `payloads`. -/
  commands : List (String × String × UInt32)
  maximumOperations : Nat
  maximumConcurrentOperations : Nat
deriving DecidableEq, Repr

/-- `Semaphore::MAX_PERMITS`. -/
def semaphoreMaxPermits : Nat := 2 ^ 61 - 1

/-- The permits of either semaphore. -/
def TracerConfig.permits (config : TracerConfig) : Nat :=
  min (min config.maximumConcurrentOperations config.maximumOperations) semaphoreMaxPermits

/-- The arguments of a submission, and what `maximum_payload_len` of its transport answers. -/
structure CommandSubmission where
  mode : OperationMode
  context : String
  command : String
  schemaVersion : UInt32
  payload : Json
  idempotencyKey : Option String
  pinCorrelation : Bool
  transportMaximum : Nat
deriving DecidableEq

/-- The bytes of an idempotency key. -/
def isKeyChar (c : Char) : Bool := c.isAlphanum || c = '-' || c = '_' || c = '.' || c = ':'

/-- `validate_http_operation_id`. -/
def validateHttpOperationId (value : String) : Except SubmissionError String := do
  let _ ← ((CheckedString.new value : Except IdentityError OperationId)).mapError fun error =>
    .invalidOperationId error.toString
  rejectIf (¬ value.toList.all isKeyChar) (.invalidOperationId
    "idempotency key must use only ASCII letters, digits, '-', '_', '.', or ':'")
  return value

section

variable [Crates]

/-- `operation_id_from_key`. -/
def operationIdFromKey (mode : OperationMode) (generation : Nat) (context command key : String) :
    Except SubmissionError OperationId :=
  let digest := Runtime.framedFingerprint [utf8 "rostfrei:tracer-operation:v1", utf8 mode.asStr,
    beBytes 8 generation, utf8 context, utf8 command, utf8 key]
  (CheckedString.new (mode.asStr ++ ":" ++ digest.toHex)).mapError fun (error : IdentityError) =>
    .invalidOperationId error.toString

/-- `request_fingerprint`. -/
def requestFingerprint (mode : OperationMode) (context command : String) (schemaVersion : UInt32)
    (payload : Bytes) : ContentFingerprint :=
  Runtime.framedFingerprint [utf8 "rostfrei:tracer-request:v2", utf8 mode.asStr, utf8 context,
    utf8 command, beBytes 4 schemaVersion.toNat, payload]

namespace CommandSubmission

omit [Crates] in
/-- The checks before the scenario gate: the idempotency key. -/
def check (r : CommandSubmission) (config : TracerConfig) : Except SubmissionError String := do
  match r.mode with
  | .simulate => .error (.modeUnavailable "simulate")
  | .test =>
    rejectIf (¬ config.testBackingConfigured) (.modeUnavailable "test")
    rejectIf (¬ config.testTransport) (.modeUnavailable "test")
  | .dispatch => rejectIf (¬ config.dispatchTransport) (.modeUnavailable "dispatch")
  let key ← okOr .idempotencyKeyRequired r.idempotencyKey
  rejectIf ((r.context, r.command, r.schemaVersion) ∉ config.commands)
    (.unknownCommand r.context r.command r.schemaVersion)
  return key

/-- The operation that is submitted, under the scenario gate. -/
def identify (r : CommandSubmission) (healthy : Bool) (testGeneration : Nat) (key : String) :
    Except SubmissionError NewOperation := do
  rejectIf (r.mode ≠ .dispatch ∧ healthy = false) .testScenarioUnavailable
  let key ← validateHttpOperationId key
  let operationId ← operationIdFromKey r.mode (if r.mode = .test then testGeneration else 0)
    r.context r.command key
  let requestBytes := Runtime.canonicalJsonBytes r.payload
  let maximum := min r.transportMaximum maxCommandPayloadLen
  rejectIf (requestBytes.length > maximum) (.payloadTooLarge maximum)
  let fingerprint :=
    requestFingerprint r.mode r.context r.command r.schemaVersion requestBytes
  return ⟨operationId.value, operationId.value, fingerprint.toHex, r.mode, r.command,
    r.schemaVersion, r.context⟩

end CommandSubmission

end

/-! ## The state -/

inductive Stage where
  /-- `evict_terminal`, with so many turns of its loop to go. -/
  | evicting (remaining : Nat)
  | registering
  /-- The operation is in the table, under the number of its record. -/
  | pinning (record : Nat)
deriving DecidableEq, Repr

/-- The submission that holds the lock of the table. -/
structure Submitting where
  operation : NewOperation
  pinCorrelation : Bool
  stage : Stage
deriving DecidableEq, Repr

/-- An execution that has been started: the number of its record. -/
structure Execution where
  record : Nat
  mode : OperationMode
deriving DecidableEq, Repr

/-- What a reset does next. -/
inductive Resetting where
  | operations
  | correlations
  | backing
deriving DecidableEq, Repr

structure TracerState where
  /-- `OperationTable`, with the records behind the `Arc`s in an arena. -/
  operations : OrderedTable String Nat
  records : Arena OperationRecord
  correlations : Correlations
  nonDispatchPermits : Nat
  dispatchPermits : Nat
  testGeneration : Nat
  testScenarioHealthy : Bool
  submitting : Option Submitting
  executions : List Execution
  resetting : Option Resetting

/-- How a step of a submission ends it, or that it goes on. -/
inductive SubmissionOutcome where
  | refused (error : SubmissionError)
  /-- The snapshot of a retained operation. -/
  | returned (snapshot : OperationSnapshot)
  /-- The execution of a new operation has been started. -/
  | started (snapshot : OperationSnapshot)
  | goesOn
deriving DecidableEq

/-- `subscribe` of the hub, from the start of a correlation. -/
def Correlations.lease (s : Correlations) (correlationId : String) :
    Except CorrelationError Correlations := do
  let i ← s.hub.record correlationId
  let record ← okOr .notFound (s.hub.arena.get? i)
  let record ← record.subscribe 0
  return { s with hub := s.hub.setRecord i record, subscriptions := i :: s.subscriptions }

namespace TracerState

def new (config : TracerConfig) : TracerState where
  operations := .empty
  records := .empty
  correlations := .new config.maximumOperations
  nonDispatchPermits := config.permits
  dispatchPermits := config.permits
  testGeneration := 0
  testScenarioHealthy := true
  submitting := none
  executions := []
  resetting := none

def permits (s : TracerState) (mode : OperationMode) : Nat :=
  if mode = .dispatch then s.dispatchPermits else s.nonDispatchPermits

def setPermits (s : TracerState) (mode : OperationMode) (permits : Nat) : TracerState :=
  if mode = .dispatch then { s with dispatchPermits := permits }
  else { s with nonDispatchPermits := permits }

/-- The permit of a submission or of an execution is dropped. -/
def releasePermit (s : TracerState) (mode : OperationMode) : TracerState :=
  s.setPermits mode (s.permits mode + 1)

def evictable (s : TracerState) (i : Nat) : Bool := (s.records.get? i).any (·.isEvictable)

/-- `has_evictable`. -/
def hasEvictable (s : TracerState) : Bool :=
  s.operations.records.entries.any fun e =>
    s.evictable e.2 && !s.correlations.hub.hasActiveSubscribers e.1

/-- A submission gives the lock and its permit back. -/
def abandon (s : TracerState) (mode : OperationMode) : TracerState :=
  { s with submitting := none }.releasePermit mode

/-- The execution is spawned. -/
def spawn (s : TracerState) (record : Nat) (mode : OperationMode) : TracerState :=
  { s with submitting := none, executions := ⟨record, mode⟩ :: s.executions }

/-- The locked section of a submission up to the permit. -/
def lookup (s : TracerState) (config : TracerConfig) (operation : NewOperation)
    (pinCorrelation : Bool) : Option (SubmissionOutcome × TracerState) :=
  match s.operations.get? operation.operationId with
  | some i => (s.records.get? i).map fun existing =>
    if existing.state.fingerprint ≠ operation.fingerprint then (.refused .identityConflict, s)
    else if pinCorrelation then
      match s.correlations.lease operation.correlationId with
      | .ok correlations =>
        (.returned existing.state.snapshot, { s with correlations := correlations })
      | .error error => (.refused (.invalidOperationId error.toString), s)
    else (.returned existing.state.snapshot, s)
  | none =>
    let full : Bool := s.operations.length ≥ config.maximumOperations
    if full ∧ s.hasEvictable = false then some (.refused .capacityExhausted, s)
    else if s.permits operation.mode = 0 then some (.refused .concurrencyExhausted, s)
    else
      let stage := if full then .evicting s.operations.insertionOrder.length else .registering
      some (.goesOn, { s.setPermits operation.mode (s.permits operation.mode - 1) with
        submitting := some ⟨operation, pinCorrelation, stage⟩ })

/-- One turn of `evict_terminal`. -/
def evict (s : TracerState) (submitting : Submitting) (remaining : Nat) :
    SubmissionOutcome × TracerState :=
  match remaining, s.operations.insertionOrder with
  | 0, _ | _, [] => (.refused .capacityExhausted, s.abandon submitting.operation.mode)
  | remaining + 1, operationId :: order =>
    let rotated := { s with
      operations := s.operations.rotate
      submitting := some { submitting with stage := .evicting remaining } }
    if ((s.operations.get? operationId).any s.evictable) then
      let (removed, hub) := s.correlations.hub.removeIfInactive operationId
      if removed then
        (.goesOn, { s with
          operations := ⟨s.operations.records.erase operationId, order⟩
          correlations := { s.correlations with hub := hub }
          submitting := some { submitting with stage := .registering } })
      else (.goesOn, { rotated with correlations := { s.correlations with hub := hub } })
    else (.goesOn, rotated)

/-- The insertions into the table, and `register_command`. -/
def register [Crates] (s : TracerState) (submitting : Submitting) :
    SubmissionOutcome × TracerState :=
  let operation := submitting.operation
  let i := s.records.next
  let s := { s with
    operations := s.operations.push operation.operationId i
    records := s.records.alloc (.new operation) }
  match s.correlations.hub.registerCommand operation.correlationId operation.mode
      operation.operationId operation.context operation.command operation.schemaVersion with
  | .error error =>
    (.refused (if error = .capacityExhausted then .capacityExhausted
        else .invalidOperationId error.toString),
      { s with operations := s.operations.remove operation.operationId }.abandon operation.mode)
  | .ok hub =>
    let s := { s with correlations := { s.correlations with hub := hub } }
    if submitting.pinCorrelation then
      (.goesOn, { s with submitting := some { submitting with stage := .pinning i } })
    else (.started (OperationRecord.new operation).state.snapshot, s.spawn i operation.mode)

/-- The subscription of a pinned submission. -/
def pin (s : TracerState) (submitting : Submitting) (record : Nat) :
    SubmissionOutcome × TracerState :=
  let operation := submitting.operation
  match s.correlations.lease operation.correlationId with
  | .ok correlations =>
    (.started (OperationRecord.new operation).state.snapshot,
      { s with correlations := correlations }.spawn record operation.mode)
  | .error error =>
    (.refused (.invalidOperationId error.toString),
      { s with
        operations := s.operations.remove operation.operationId
        correlations := { s.correlations with
          hub := (s.correlations.hub.removeIfInactive operation.correlationId).2 } }.abandon
        operation.mode)

end TracerState

/-! ## Steps -/

/-- The mutators of an operation record. -/
inductive OperationMutation where
  | start
  | commandPublished (commandMessageId : String) (duplicate : Bool)
  | complete (result : OperationResult) (events : List OperationEventKind)
  | fail (code message : String)
  | indeterminate (code message commandMessageId : String) (duplicate : Bool)
  | markCorrelationRecorded

def OperationRecord.mutate (record : OperationRecord) : OperationMutation → OperationRecord
  | .start => record.start
  | .commandPublished commandMessageId duplicate => record.commandPublished commandMessageId duplicate
  | .complete result events => record.complete result events
  | .fail code message => record.fail code message
  | .indeterminate code message commandMessageId duplicate =>
    record.indeterminate code message commandMessageId duplicate
  | .markCorrelationRecorded => record.markCorrelationRecorded

/-- The steps on the hub of callers other than submissions and resets. -/
def HubStep.isShared : HubStep → Bool
  | register .. | removeIfInactive _ | retainDispatchCorrelations => false
  | _ => true

inductive TracerStep where
  | submit (submission : CommandSubmission)
  | evict
  | register
  | pin
  | mutate (record : Nat) (mutation : OperationMutation)
  /-- An execution has ended. -/
  | finish (execution : Nat)
  | correlation (step : HubStep)
  | beginReset
  | resetOperations
  | resetCorrelations
  | endReset (succeeded : Bool)

namespace TracerState

variable [Crates]

def submit (s : TracerState) (config : TracerConfig) (r : CommandSubmission) :
    Option (SubmissionOutcome × TracerState) :=
  match r.check config with
  | .error error => some (.refused error, s)
  | .ok key =>
    -- the scenario gate is held by a reset
    if r.mode ≠ .dispatch ∧ s.resetting.isSome then none
    else
      match r.identify s.testScenarioHealthy s.testGeneration key with
      | .error error => some (.refused error, s)
      | .ok operation =>
        -- the table is locked by another submission
        if s.submitting.isSome then none
        else s.lookup config operation r.pinCorrelation

def apply (config : TracerConfig) (s : TracerState) : TracerStep → Option TracerState
  | .submit r => (s.submit config r).map (·.2)
  | .evict =>
    match s.submitting with
    | some submitting =>
      match submitting.stage with
      | .evicting remaining => some (s.evict submitting remaining).2
      | _ => none
    | none => none
  | .register =>
    match s.submitting with
    | some submitting =>
      if submitting.stage = .registering then some (s.register submitting).2 else none
    | none => none
  | .pin =>
    match s.submitting with
    | some submitting =>
      match submitting.stage with
      | .pinning record => some (s.pin submitting record).2
      | _ => none
    | none => none
  | .mutate i mutation => (s.records.get? i).map fun record =>
      { s with records := s.records.set i (record.mutate mutation) }
  | .finish i => s.executions[i]?.map fun execution =>
      { s with executions := s.executions.eraseIdx i }.releasePermit execution.mode
  | .correlation step =>
    if step.isShared then
      (s.correlations.apply step).map fun correlations => { s with correlations := correlations }
    else none
  | .beginReset =>
    -- the scenario gate: no `Test` submission is under way
    if s.resetting.isSome ∨ s.submitting.any (·.operation.mode ≠ .dispatch) ∨
        s.executions.any (·.mode ≠ .dispatch) then none
    else some { s with
      testScenarioHealthy := false
      testGeneration := (s.testGeneration + 1) % 2 ^ 64
      resetting := some .operations }
  | .resetOperations =>
    if s.resetting = some .operations ∧ s.submitting = none then
      some { s with
        operations := s.operations.retain fun i => (s.records.get? i).any (·.mode = .dispatch)
        resetting := some .correlations }
    else none
  | .resetCorrelations =>
    if s.resetting = some .correlations then
      (s.correlations.apply .retainDispatchCorrelations).map fun correlations =>
        { s with correlations := correlations, resetting := some .backing }
    else none
  | .endReset succeeded =>
    if s.resetting = some .backing then
      some { s with
        testScenarioHealthy := succeeded || s.testScenarioHealthy
        resetting := none }
    else none

def machine (config : TracerConfig) : Machine TracerState TracerStep where
  start s := s = new config
  step s label s' := s.apply config label = some s'

end TracerState

end Rostfrei.Tracer
