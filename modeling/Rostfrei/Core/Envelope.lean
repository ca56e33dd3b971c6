import Rostfrei.Core.Identity

/-!
# Events and batches

`NewEvent` and `EventBatch` keep what their constructors check as fields: a batch has between one
and 100 events with distinct identities, and payloads of one mebibyte together. `RecordedEvent` is
an event of a stream, with its version and its place in the commit it belongs to.
-/

namespace Rostfrei

open Lib

def maxEventTypeLen : Nat := 128
def maxEventPayloadLen : Nat := 1024 * 1024
def maxBatchPayloadLen : Nat := 1024 * 1024
def maxEventsPerBatch : Nat := 100

/-- `StreamVersion::next`; a version is a `u64`. -/
def nextVersion (v : Nat) : Option Nat :=
  if v + 1 < 2 ^ 64 then some (v + 1) else none

theorem nextVersion_eq_some {v w : Nat} :
    nextVersion v = some w ↔ v + 1 < 2 ^ 64 ∧ w = v + 1 := by
  unfold nextVersion
  split <;> simp_all [eq_comm]

inductive ExpectedVersion where
  | noStream
  | exact (version : Nat)
deriving DecidableEq, Repr

inductive EnvelopeError where
  | emptyEventType
  | eventTypeTooLong (maximum : Nat)
  | invalidEventType
  | invalidSchemaVersion
  | payloadTooLarge (maximum : Nat)
  | emptyBatch
  | batchTooLarge (actual maximum : Nat)
  | batchPayloadTooLarge (maximum : Nat)
  | duplicateEventId
  | zeroRecordedVersion
  | invalidCommitCoordinates
deriving DecidableEq, Repr

namespace EnvelopeError

/-- The `Display` text. -/
def toString : EnvelopeError → String
  | emptyEventType => "event type must not be empty"
  | eventTypeTooLong maximum =>
    "event type exceeds its " ++ ToString.toString maximum ++ "-byte limit"
  | invalidEventType =>
    "event type must not have leading or trailing whitespace or control characters"
  | invalidSchemaVersion => "schema version must be greater than zero"
  | payloadTooLarge maximum =>
    "event payload exceeds its " ++ ToString.toString maximum ++ "-byte limit"
  | emptyBatch => "an event batch must contain at least one event"
  | batchTooLarge actual maximum =>
    "event batch contains " ++ ToString.toString actual ++ " domain events, exceeding the " ++
      ToString.toString maximum ++ "-event atomic commit limit; split the work across commands"
  | batchPayloadTooLarge maximum =>
    "an event batch payload exceeds its " ++ ToString.toString maximum ++ "-byte limit"
  | duplicateEventId => "an event batch must not contain duplicate event identities"
  | zeroRecordedVersion => "a recorded event must have a non-zero stream version"
  | invalidCommitCoordinates => "a recorded event has invalid commit coordinates"

end EnvelopeError

/-- `validate_event_type`. -/
def validateEventType (eventType : String) : Except EnvelopeError Unit := do
  rejectIf (eventType = "") .emptyEventType
  rejectIf (strLen eventType > maxEventTypeLen) (.eventTypeTooLong maxEventTypeLen)
  rejectIf (trim eventType.toList ≠ eventType.toList ∨ eventType.toList.any isControl)
    .invalidEventType

/-! ## New events -/

/-- An event that is not yet stored. -/
structure NewEvent where
  eventId : EventId
  eventType : String
  schemaVersion : UInt32
  payload : Bytes
  eventType_valid : validateEventType eventType = .ok ()
  schemaVersion_ne : schemaVersion ≠ 0
  payload_le : payload.length ≤ maxEventPayloadLen
deriving DecidableEq

@[ext] theorem NewEvent.ext {x y : NewEvent} (hid : x.eventId = y.eventId)
    (htype : x.eventType = y.eventType) (hschema : x.schemaVersion = y.schemaVersion)
    (hpayload : x.payload = y.payload) : x = y := by
  cases x; cases y; simp_all

/-- `NewEvent::new`. -/
def NewEvent.new (eventId : EventId) (eventType : String) (schemaVersion : UInt32)
    (payload : Bytes) : Except EnvelopeError NewEvent :=
  match ht : validateEventType eventType with
  | .error e => .error e
  | .ok () =>
    if hs : schemaVersion = 0 then .error .invalidSchemaVersion
    else if hp : payload.length > maxEventPayloadLen then
      .error (.payloadTooLarge maxEventPayloadLen)
    else .ok ⟨eventId, eventType, schemaVersion, payload, ht, hs, by omega⟩

/-- The constructor accepts the parts of every event. -/
theorem NewEvent.new_self (e : NewEvent) :
    NewEvent.new e.eventId e.eventType e.schemaVersion e.payload = .ok e := by
  unfold NewEvent.new
  split
  · next err h => rw [e.eventType_valid] at h; cases h
  · rw [dif_neg e.schemaVersion_ne, dif_neg (Nat.not_lt.mpr e.payload_le)]

/-- The constructor keeps its arguments. -/
theorem NewEvent.new_eq_ok {eventId : EventId} {eventType : String} {schemaVersion : UInt32}
    {payload : Bytes} {e : NewEvent}
    (h : NewEvent.new eventId eventType schemaVersion payload = .ok e) :
    e.eventId = eventId ∧ e.eventType = eventType ∧ e.schemaVersion = schemaVersion ∧
      e.payload = payload := by
  unfold NewEvent.new at h
  split at h
  · cases h
  · split_ifs at h
    cases h
    exact ⟨rfl, rfl, rfl, rfl⟩

/-! ## Batches -/

/-- The events of one commit to one stream. -/
structure EventBatch where
  actor : Option ActorRef
  commitId : CommitId
  operationId : OperationId
  operationFingerprint : ContentFingerprint
  events : List NewEvent
  correlationId : Option CorrelationId
  causationId : Option CausationId
  events_ne : events ≠ []
  events_le : events.length ≤ maxEventsPerBatch
  payload_le : (events.map (·.payload.length)).sum ≤ maxBatchPayloadLen
  ids_nodup : (events.map (·.eventId)).Nodup
deriving DecidableEq

/-- `EventBatch::new`; the optional parts are set afterwards. -/
def EventBatch.new (commitId : CommitId) (operationId : OperationId)
    (operationFingerprint : ContentFingerprint) (events : List NewEvent) :
    Except EnvelopeError EventBatch :=
  if hne : events = [] then .error .emptyBatch
  else if hle : events.length > maxEventsPerBatch then
    .error (.batchTooLarge events.length maxEventsPerBatch)
  else if hp : (events.map (·.payload.length)).sum > maxBatchPayloadLen then
    .error (.batchPayloadTooLarge maxBatchPayloadLen)
  else if hn : (events.map (·.eventId)).Nodup then
    .ok
      { actor := none
        commitId, operationId, operationFingerprint, events
        correlationId := none
        causationId := none
        events_ne := hne
        events_le := by omega
        payload_le := by omega
        ids_nodup := hn }
  else .error .duplicateEventId

/-- The constructor keeps its arguments. -/
theorem EventBatch.new_eq_ok {commitId : CommitId} {operationId : OperationId}
    {fingerprint : ContentFingerprint} {events : List NewEvent} {b : EventBatch}
    (h : EventBatch.new commitId operationId fingerprint events = .ok b) :
    b.commitId = commitId ∧ b.operationId = operationId ∧
      b.operationFingerprint = fingerprint ∧ b.events = events := by
  unfold EventBatch.new at h
  split_ifs at h
  cases h
  exact ⟨rfl, rfl, rfl, rfl⟩

/-- The constructor accepts the parts of every batch. -/
theorem EventBatch.new_self (b : EventBatch) :
    EventBatch.new b.commitId b.operationId b.operationFingerprint b.events =
      .ok { b with actor := none, correlationId := none, causationId := none } := by
  unfold EventBatch.new
  rw [dif_neg b.events_ne, dif_neg (Nat.not_lt.mpr b.events_le),
    dif_neg (Nat.not_lt.mpr b.payload_le), dif_pos b.ids_nodup]

/-! ## Recorded events -/

/-- An event of a stream. `commitEventOrdinal` counts from 0 within its commit of
`commitEventCount` events. -/
structure RecordedEvent where
  actor : Option ActorRef
  streamId : StreamId
  streamVersion : Nat
  eventId : EventId
  commitId : CommitId
  operationId : OperationId
  operationFingerprint : ContentFingerprint
  commitEventOrdinal : Nat
  commitEventCount : Nat
  correlationId : Option CorrelationId
  causationId : Option CausationId
  eventType : String
  schemaVersion : UInt32
  payload : Bytes
deriving DecidableEq

namespace RecordedEvent

/-- `RecordedEvent::from_new`. -/
def fromNew (streamId : StreamId) (streamVersion : Nat) (batch : EventBatch)
    (commitEventOrdinal commitEventCount : Nat) (event : NewEvent) : RecordedEvent where
  actor := batch.actor
  streamId := streamId
  streamVersion := streamVersion
  eventId := event.eventId
  commitId := batch.commitId
  operationId := batch.operationId
  operationFingerprint := batch.operationFingerprint
  commitEventOrdinal := commitEventOrdinal
  commitEventCount := commitEventCount
  correlationId := batch.correlationId
  causationId := batch.causationId
  eventType := event.eventType
  schemaVersion := event.schemaVersion
  payload := event.payload

/-- The events of a batch in a stream at `base`: versions from `base + 1`, ordinals from 0. -/
def ofBatch (streamId : StreamId) (base : Nat) (batch : EventBatch) :
    List RecordedEvent :=
  batch.events.mapIdx fun i event =>
    fromNew streamId (base + 1 + i) batch i batch.events.length event

@[simp] theorem length_ofBatch (streamId : StreamId) (base : Nat) (batch : EventBatch) :
    (ofBatch streamId base batch).length = batch.events.length := by
  simp [ofBatch]

theorem ofBatch_ne_nil (streamId : StreamId) (base : Nat) (batch : EventBatch) :
    ofBatch streamId base batch ≠ [] := by
  intro h
  have := congrArg List.length h
  simp only [length_ofBatch, List.length_nil, List.length_eq_zero_iff] at this
  exact batch.events_ne this

theorem map_eventId_ofBatch (streamId : StreamId) (base : Nat) (batch : EventBatch) :
    (ofBatch streamId base batch).map (·.eventId) = batch.events.map (·.eventId) := by
  apply List.ext_getElem (by simp)
  intro i h₁ h₂
  simp [ofBatch, fromNew]

theorem map_streamVersion_ofBatch (streamId : StreamId) (base : Nat)
    (batch : EventBatch) :
    (ofBatch streamId base batch).map (·.streamVersion) =
      List.range' (base + 1) batch.events.length := by
  apply List.ext_getElem (by simp)
  intro i h₁ h₂
  simp [ofBatch, fromNew]

/-- The last event of a batch has the version `base + n`. -/
theorem getLast?_ofBatch (streamId : StreamId) (base : Nat) (batch : EventBatch) :
    (ofBatch streamId base batch).getLast?.elim 0 (·.streamVersion) =
      base + batch.events.length := by
  have hne := batch.events_ne
  have hpos : 0 < batch.events.length := List.length_pos_iff.mpr hne
  rw [List.getLast?_eq_getElem?, List.getElem?_eq_getElem (by simpa using hpos)]
  simp only [Option.elim_some, ofBatch, List.getElem_mapIdx, fromNew, List.length_mapIdx]
  omega

/-- `RecordedEvent::new_in_commit`; actor, correlation and causation are set afterwards. -/
def newInCommit (streamId : StreamId) (streamVersion : Nat) (eventId : EventId)
    (commitId : CommitId) (operationId : OperationId) (operationFingerprint : ContentFingerprint)
    (commitEventOrdinal commitEventCount : Nat) (eventType : String) (schemaVersion : UInt32)
    (payload : Bytes) : Except EnvelopeError RecordedEvent := do
  rejectIf (streamVersion = 0) .zeroRecordedVersion
  rejectIf (commitEventCount = 0 ∨ commitEventCount > maxEventsPerBatch ∨
    commitEventOrdinal ≥ commitEventCount) .invalidCommitCoordinates
  validateEventType eventType
  rejectIf (schemaVersion = 0) .invalidSchemaVersion
  rejectIf (payload.length > maxEventPayloadLen) (.payloadTooLarge maxEventPayloadLen)
  return {
    actor := none
    streamId, streamVersion, eventId, commitId, operationId, operationFingerprint
    commitEventOrdinal, commitEventCount
    correlationId := none
    causationId := none
    eventType, schemaVersion, payload }

end RecordedEvent

end Rostfrei
