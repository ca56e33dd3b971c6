import Rostfrei.Crates
import Rostfrei.Tracer.Operation
import Rostfrei.Tracer.Serialized

/-!
# Correlation records

`correlation.rs` of `rostfrei-tracer`: what the tracer keeps of one correlation. `CorrelationState`
is a window of its last events, bounded in number and in size; `CorrelationEvidenceState` is the
series of raw observations with the conflicts that were seen.

An operation on a record runs under its locks. Here it is a function from the record to a result and
a record, since some of them change the record and then fail.
-/

namespace Rostfrei.Tracer

open Lib Messaging

def defaultMaximumEventsPerCorrelation : Nat := 512
def defaultMaximumBytesPerCorrelation : Nat := 4 * 1024 * 1024
def maximumTotalCorrelationBytes : Nat := 64 * 1024 * 1024

inductive CorrelationError where
  | invalidId (message : String)
  | notFound
  | capacityExhausted
  | eventTooLarge
  | futureCursor (latest : Nat)
  | expiredCursor (oldest : Nat)
deriving DecidableEq, Repr

/-- The `Display` text. -/
def CorrelationError.toString : CorrelationError → String
  | invalidId message => "invalid correlation identity: " ++ message
  | notFound => "correlation was not found"
  | capacityExhausted => "correlation capacity is exhausted"
  | eventTooLarge => "correlation event exceeds its retained-byte budget"
  | futureCursor latest =>
    "correlation event cursor is ahead of the latest event " ++ ToString.toString latest
  | expiredCursor oldest =>
    "correlation event cursor expired; the oldest retained event is " ++ ToString.toString oldest

/-! ## Events -/

inductive CorrelationCommandOutcome where
  | accepted
  | rejected
  | failed
  | indeterminate
deriving DecidableEq, Repr

/-- The `serde` name. -/
def CorrelationCommandOutcome.name : CorrelationCommandOutcome → String
  | accepted => "accepted"
  | rejected => "rejected"
  | failed => "failed"
  | indeterminate => "indeterminate"

inductive CorrelationEventKind where
  | command (operationId : String) (messageId causationId : Option String)
      (duplicate : Option Bool) (context command : String) (schemaVersion : UInt32)
  | domainEvent (messageId : String) (causationId : Option String) (eventType : String)
      (schemaVersion : UInt32) (aggregateType aggregateId : Option String)
      (streamVersion : Option Nat) (payload : Option Json)
  | integrationEvent (messageId : String) (causationId : Option String) (eventType : String)
      (schemaVersion : UInt32) (subject : String) (payload : Option Json)
  | commandResult (operationId : String) (outcome : CorrelationCommandOutcome)
      (result : Option Json)
deriving DecidableEq

/-- The fields of the `serde` form. -/
def CorrelationEventKind.fields : CorrelationEventKind → List (String × Option Json)
  | command operationId messageId causationId duplicate context name schemaVersion =>
    [("type", some (.str "command")), ("operationId", some (.str operationId)),
      ("messageId", messageId.map .str), ("causationId", causationId.map .str),
      ("duplicate", duplicate.map .bool), ("context", some (.str context)),
      ("command", some (.str name)), ("schemaVersion", some (.num schemaVersion.toNat))]
  | domainEvent messageId causationId eventType schemaVersion aggregateType aggregateId
      streamVersion payload =>
    [("type", some (.str "domain-event")), ("messageId", some (.str messageId)),
      ("causationId", causationId.map .str), ("eventType", some (.str eventType)),
      ("schemaVersion", some (.num schemaVersion.toNat)),
      ("aggregateType", aggregateType.map .str), ("aggregateId", aggregateId.map .str),
      ("streamVersion", streamVersion.map .num), ("payload", payload)]
  | integrationEvent messageId causationId eventType schemaVersion subject payload =>
    [("type", some (.str "integration-event")), ("messageId", some (.str messageId)),
      ("causationId", causationId.map .str), ("eventType", some (.str eventType)),
      ("schemaVersion", some (.num schemaVersion.toNat)), ("subject", some (.str subject)),
      ("payload", payload)]
  | commandResult operationId outcome result =>
    [("type", some (.str "command-result")), ("operationId", some (.str operationId)),
      ("outcome", some (.str outcome.name)), ("result", result)]

structure CorrelationEvent where
  id : Nat
  correlationId : String
  kind : CorrelationEventKind
deriving DecidableEq

/-- The kind is flattened into the event. -/
def CorrelationEvent.toJson (event : CorrelationEvent) : Json :=
  .obj (Json.sparse ([("id", some (.num event.id)),
    ("correlationId", some (.str event.correlationId))] ++ event.kind.fields))

/-- The event without what may be dropped of it. -/
def CorrelationEventKind.shrink : CorrelationEventKind → Option CorrelationEventKind
  | command .. => none
  | domainEvent messageId causationId eventType schemaVersion aggregateType aggregateId
      streamVersion _ =>
    some (.domainEvent messageId causationId eventType schemaVersion aggregateType aggregateId
      streamVersion none)
  | integrationEvent messageId causationId eventType schemaVersion subject _ =>
    some (.integrationEvent messageId causationId eventType schemaVersion subject none)
  | commandResult operationId outcome _ => some (.commandResult operationId outcome none)

variable [Crates]

/-- `serialized_event_len`. -/
def serializedEventLen (event : CorrelationEvent) : Nat := (toVec event.toJson).length

/-- `bounded_event`. -/
def boundedEvent (event : CorrelationEvent) (maximumBytes : Nat) :
    Except CorrelationError CorrelationEvent :=
  if serializedEventLen event ≤ maximumBytes then .ok event
  else
    match event.kind.shrink with
    | none => .error .eventTooLarge
    | some kind =>
      let event := { event with kind := kind }
      if serializedEventLen event ≤ maximumBytes then .ok event else .error .eventTooLarge

omit [Crates] in
/-- `correlation_byte_budget`. -/
def correlationByteBudget (maximumCorrelations : Nat) : Nat :=
  min (maximumTotalCorrelationBytes / max maximumCorrelations 1) defaultMaximumBytesPerCorrelation

structure CorrelationState where
  nextId : Nat
  events : List CorrelationEvent
  retainedBytes : Nat
deriving DecidableEq

/-- The loop of `append`: the first events are dropped until the rest is within both limits. -/
def evictEvents (maximumEvents maximumBytes : Nat) :
    List CorrelationEvent → Nat → List CorrelationEvent × Nat
  | [], bytes => ([], bytes)
  | event :: events, bytes =>
    if (event :: events).length > maximumEvents ∨ bytes > maximumBytes then
      evictEvents maximumEvents maximumBytes events (bytes - serializedEventLen event)
    else (event :: events, bytes)

/-- The state of `append`, which gives its number to an event that may not fit. -/
def CorrelationState.append (state : CorrelationState) (correlationId : String)
    (kind : CorrelationEventKind) (maximumEvents maximumBytes : Nat) :
    Except CorrelationError CorrelationEvent × CorrelationState :=
  let id := state.nextId
  let state := { state with nextId := saturatingAdd state.nextId 1 }
  match boundedEvent ⟨id, correlationId, kind⟩ maximumBytes with
  | .error e => (.error e, state)
  | .ok event =>
    let (events, bytes) := evictEvents maximumEvents maximumBytes (state.events ++ [event])
      (saturatingAdd state.retainedBytes (serializedEventLen event))
    (.ok event, { state with events := events, retainedBytes := bytes })

/-! ## Evidence -/

structure CorrelationObservationConflict where
  identity : String
  message : String
  existing : Option Json
  observed : Option Json
deriving DecidableEq

def CorrelationObservationConflict.toJson (conflict : CorrelationObservationConflict) : Json :=
  .obj (Json.sparse [("identity", some (.str conflict.identity)),
    ("message", some (.str conflict.message)), ("existing", conflict.existing),
    ("observed", conflict.observed)])

structure CorrelationObservationFailure where
  identity : String
  message : String
  count : Nat
deriving DecidableEq

structure CorrelationEvidenceState where
  observed : ObservedMessageSeries
  conflicts : List CorrelationObservationConflict
  failure : Option CorrelationObservationFailure
  retainedBytes : Nat
  revision : Nat

/-- `CorrelationEvidenceState::default`. -/
def CorrelationEvidenceState.empty : CorrelationEvidenceState := ⟨.empty, [], none, 0, 0⟩

/-! ## Records -/

structure CorrelationRecord where
  correlationId : String
  mode : OperationMode
  maximumEvents : Nat
  maximumBytes : Nat
  state : CorrelationState
  evidence : CorrelationEvidenceState
  closed : Bool
  subscribers : Nat

namespace CorrelationRecord

/-- `CorrelationRecord::new`. -/
def new (correlationId : String) (mode : OperationMode) (maximumEvents maximumBytes : Nat)
    (initial : CorrelationEventKind) : Except CorrelationError CorrelationRecord := do
  let event ← boundedEvent ⟨1, correlationId, initial⟩ maximumBytes
  return ⟨correlationId, mode, maximumEvents, maximumBytes,
    ⟨2, [event], serializedEventLen event⟩, .empty, false, 0⟩

/-- `append`: its result, with the event, and the record. -/
def append (record : CorrelationRecord) (kind : CorrelationEventKind) :
    Except CorrelationError CorrelationEvent × CorrelationRecord :=
  if record.closed then (.error .notFound, record)
  else
    let (result, state) := record.state.append record.correlationId kind record.maximumEvents
      record.maximumBytes
    (result, { record with state := state })

omit [Crates] in
/-- The cursor of `subscribe_with_mode`, and the record with one more subscriber. -/
def subscribe (record : CorrelationRecord) (after : Nat) :
    Except CorrelationError CorrelationRecord := do
  rejectIf record.closed .notFound
  let latest := record.state.nextId - 1
  let oldest := (record.state.events.head?.map (·.id)).getD record.state.nextId
  rejectIf (after > latest) (.futureCursor latest)
  rejectIf (saturatingAdd after 1 < oldest) (.expiredCursor oldest)
  return { record with subscribers := record.subscribers + 1 }

omit [Crates] in
theorem subscribe_eq_ok {record record' : CorrelationRecord} {after : Nat}
    (h : record.subscribe after = .ok record') :
    after ≤ record.state.nextId - 1 ∧
      record' = { record with subscribers := record.subscribers + 1 } := by
  simp only [subscribe, bind_unit_eq_ok, rejectIf_eq_ok, pure_eq_ok,
    Nat.not_lt] at h
  exact ⟨h.2.1, h.2.2.2.symm⟩

omit [Crates] in
/-- `close`, without the release of the bytes of the evidence. -/
def close (record : CorrelationRecord) : CorrelationRecord :=
  { record with closed := true, evidence := .empty }

omit [Crates] in
/-- `event_after_or_closed`: the event, and whether the record is closed and the reader lags. -/
def eventAfterOrClosed (record : CorrelationRecord) (cursor : Nat) :
    Option CorrelationEvent × Bool × Bool :=
  let isLagged := record.state.events.head?.any fun event => saturatingAdd cursor 1 < event.id
  let event := record.state.events.find? fun event => event.id > cursor
  (event, event.isNone && record.closed, isLagged)

end CorrelationRecord

end Rostfrei.Tracer
