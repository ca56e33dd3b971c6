import Rostfrei.Core.Envelope
import Rostfrei.Core.History
import Rostfrei.Core.Store
import Rostfrei.Messaging.Series
import Rostfrei.Runtime.Command

/-!
# Fixtures

`rostfrei-fixtures`: a fixture is a series of domain events with the streams they belong to. A
`Fixture` keeps as a field that `validateFixture` accepts it: causes are in the series and come
first, the versions of a stream are `1..n`, and names and payloads fit an event.

`buildPlan` gives every message its batch and the event that the store records for it: the operation
is named by a digest of the message within the fixture, the commit and the event are derived from
it, and the cause is the event of the parent message. `FixtureEventSet` is the set of such events.
-/

namespace Rostfrei.Fixtures

open Lib Messaging

/-! ## Documents -/

def fixtureSchemaVersion : UInt32 := 1

def fixtureOperationIdPrefix : String := "fixture:"

structure FixtureAggregate where
  aggregateType : AggregateType
  id : AggregateId
deriving DecidableEq

def FixtureAggregate.streamId (a : FixtureAggregate) : StreamId := ⟨a.aggregateType, a.id⟩

def FixtureAggregate.toJson (a : FixtureAggregate) : Json :=
  .obj [("type", .str a.aggregateType.value), ("id", .str a.id.value)]

structure FixtureDomainEvent where
  messageId : MessageId
  correlationId : CorrelationId
  causationId : Option MessageId
  name : String
  schemaVersion : SchemaVersion
  aggregate : FixtureAggregate
  streamVersion : Nat
  payload : Json
  /-- A `Value` nests to some depth, and its numbers are machine integers. -/
  payload_fits : ∃ depth, payload.Fits depth
deriving DecidableEq

namespace FixtureDomainEvent

def streamId (m : FixtureDomainEvent) : StreamId := m.aggregate.streamId

def fields (m : FixtureDomainEvent) : List (String × Option Json) :=
  [("kind", some (.str "domain-event")),
    ("messageId", some (.str m.messageId.value)),
    ("correlationId", some (.str m.correlationId.value)),
    ("causationId", m.causationId.map fun id => .str id.value),
    ("name", some (.str m.name)),
    ("schemaVersion", some (.num m.schemaVersion.get.toNat)),
    ("aggregate", some m.aggregate.toJson),
    ("streamVersion", some (.num m.streamVersion)),
    ("payload", some m.payload)]

def toJson (m : FixtureDomainEvent) : Json := .obj (Json.sparse m.fields)

end FixtureDomainEvent

instance : MessageSeriesNode FixtureDomainEvent where
  Correlation := CorrelationId
  decEqCorrelation := inferInstance
  messageId m := m.messageId.value
  correlationId := FixtureDomainEvent.correlationId
  causationId m := m.causationId.map (·.value)

/-- The series of a fixture. -/
abbrev FixtureMessages := MessageSeries FixtureDomainEvent

/-! ## Validation -/

inductive FixtureValidationError where
  | unsupportedSchemaVersion (actual : UInt32)
  | invalidIdentity (field : String) (source : ContractError)
  | reservedId (id : String)
  | invalidTopology (messageId reason : String)
  | parentMustPrecede (childId parentId : String)
  | invalidStreamVersion (messageId : String) (streamId : StreamId) (actual expected : Nat)
  | invalidMessage (messageId reason : String)
deriving DecidableEq

/-- The text of a topology issue, by the message it is reported at. -/
def topologyError : MessageSeriesTopologyIssue FixtureDomainEvent → FixtureValidationError
  | .unresolvedParent child =>
    .invalidTopology child.messageId.value "causationId does not resolve to a fixture domain event"
  | .crossCorrelation child parent =>
    .invalidTopology child.messageId.value
      ("causation edge to `" ++ parent.messageId.value ++ "` crosses correlation IDs")
  | .cycle nodes =>
    .invalidTopology (nodes.head?.elim "unknown" (·.messageId.value))
      ("causation cycle contains [" ++ ", ".intercalate (nodes.map (·.messageId.value)) ++ "]")

/-- `validate_topology`. -/
def validateTopology (messages : FixtureMessages) : Except FixtureValidationError Unit :=
  match messages.topologyIssues.head? with
  | none => .ok ()
  | some issue => .error (topologyError issue)

/-- One turn of `validate_parent_order`, for the message at an index. -/
def checkParentOrder (messages : FixtureMessages) (child : FixtureDomainEvent × Nat) :
    Except FixtureValidationError Unit :=
  match child.1.causationId with
  | none => .ok ()
  | some parentId =>
    match messages.indexOf? parentId.value with
    | none => .ok ()
    | some parentIndex =>
      rejectIf (parentIndex ≥ child.2) (.parentMustPrecede child.1.messageId.value parentId.value)

/-- `validate_parent_order`. -/
def validateParentOrder (messages : FixtureMessages) : Except FixtureValidationError Unit :=
  forM messages.nodes.zipIdx (checkParentOrder messages)

/-- One turn of `validate_stream_versions`: the expected versions after the message. -/
def checkStreamVersion (expectedVersions : Map StreamId Nat) (message : FixtureDomainEvent) :
    Except FixtureValidationError (Map StreamId Nat) := do
  let expected := (expectedVersions.lookup message.streamId).getD 1
  rejectIf (message.streamVersion ≠ expected)
    (.invalidStreamVersion message.messageId.value message.streamId message.streamVersion expected)
  let next ← okOr (.invalidMessage message.messageId.value "stream version space is exhausted")
    (nextVersion expected)
  return expectedVersions.insert message.streamId next

/-- `validate_stream_versions`. -/
def validateStreamVersions (messages : FixtureMessages) : Except FixtureValidationError Unit := do
  let _ ← messages.nodes.foldlM checkStreamVersion ∅

section Crates

variable [Crates]

/-- `canonical_json_bytes`, a second copy of the one for commands. -/
def canonicalJsonBytes (value : Json) : Bytes := Runtime.writeValue value

/-- `validate_message`. -/
def validateMessage (message : FixtureDomainEvent) : Except FixtureValidationError Unit := do
  rejectIf
    (message.name = "" ∨ strLen message.name > maxEventTypeLen ∨
      trim message.name.toList ≠ message.name.toList ∨ message.name.toList.any isControl)
    (.invalidMessage message.messageId.value
      ("name must be 1 to " ++ toString maxEventTypeLen ++
        " bytes without surrounding whitespace or control characters"))
  rejectIf ((canonicalJsonBytes message.payload).length > maxEventPayloadLen)
    (.invalidMessage message.messageId.value
      ("payload exceeds its " ++ toString maxEventPayloadLen ++ "-byte limit"))

/-- `Fixture::validate`, of the parts it reads. -/
def validateFixture (schemaVersion : UInt32) (messages : FixtureMessages) :
    Except FixtureValidationError Unit := do
  rejectIf (schemaVersion ≠ fixtureSchemaVersion) (.unsupportedSchemaVersion schemaVersion)
  validateTopology messages
  validateParentOrder messages
  validateStreamVersions messages
  forM messages.nodes validateMessage

end Crates

structure Fixture [Crates] where
  schemaVersion : UInt32
  id : MessageId
  revision : MessageId
  messages : FixtureMessages
  valid : validateFixture schemaVersion messages = .ok ()

namespace Fixture

variable [Crates]

/-- `Fixture::new`. -/
def new (id revision : String) (messages : FixtureMessages) :
    Except FixtureValidationError Fixture := do
  let id ← (CheckedString.new id).mapError (.invalidIdentity "id")
  rejectIf (id.value = "." ∨ id.value = "..") (.reservedId id.value)
  let revision ← (CheckedString.new revision).mapError (.invalidIdentity "revision")
  match h : validateFixture fixtureSchemaVersion messages with
  | .ok () => return ⟨fixtureSchemaVersion, id, revision, messages, h⟩
  | .error e => throw e

/-- `Fixture::validate`. -/
def validate (f : Fixture) : Except FixtureValidationError Unit :=
  validateFixture f.schemaVersion f.messages

end Fixture

/-! ## Plans -/

inductive CodecValidationError where
  | unregistered (aggregateType : AggregateType)
  | event (streamId : StreamId) (eventType : String) (schemaVersion : UInt32)
      (source : EventCodecError)
deriving DecidableEq

inductive FixtureApplyError where
  | invalidFixture (error : FixtureValidationError)
  | unknownAggregateCodec (aggregateType : AggregateType)
  | codec (streamId : StreamId) (eventType : String) (schemaVersion : UInt32)
      (source : EventCodecError)
  | identity (source : IdentityError)
  | eventIdentity (source : ContractError)
  | envelope (source : EnvelopeError)
  | canonicalization (message : String)
  | store (error : EventStoreError)
  | conflictingHistory (streamId : StreamId) (existingEventCount fixtureEventCount : Nat)
  | unexpectedAppendResult (streamId : StreamId) (operationId : OperationId)
  | eventCountOverflow
deriving DecidableEq

structure PlannedEvent where
  recorded : RecordedEvent
  batch : EventBatch
  streamOrdinal : Nat
deriving DecidableEq

section Crates

variable [Crates]

/-- The document that a fingerprint is made of. -/
def fingerprintDocument (f : Fixture) (message : FixtureDomainEvent) : Json :=
  .obj [("format", .str "rostfrei-fixture-message-v1"), ("fixtureId", .str f.id.value),
    ("fixtureRevision", .str f.revision.value), ("message", message.toJson)]

/-- `message_fingerprint`. -/
def messageFingerprint (f : Fixture) (message : FixtureDomainEvent) : ContentFingerprint :=
  .digest (canonicalJsonBytes (fingerprintDocument f message))

/-- `build_plan` after some messages. -/
structure Planning where
  plan : List PlannedEvent
  streamEventCounts : Map StreamId Nat
  physicalIds : Map MessageId CausationId

/-- The event of the parent message. -/
def Planning.parentPhysicalId (p : Planning) (message : FixtureDomainEvent) :
    Except FixtureApplyError (Option CausationId) :=
  match message.causationId with
  | none => .ok none
  | some causationId =>
    (okOr (.canonicalization ("validated parent `" ++ causationId.value ++
      "` has no deterministic identity")) (p.physicalIds.lookup causationId)).map some

/-- One turn of `build_plan`. -/
def planMessage (f : Fixture) (p : Planning) (message : FixtureDomainEvent) :
    Except FixtureApplyError Planning := do
  let fingerprint := messageFingerprint f message
  let parentPhysicalId ← p.parentPhysicalId message
  let streamId := message.streamId
  let operationId ← (CheckedString.new (fixtureOperationIdPrefix ++ fingerprint.toHex)).mapError
    .identity
  let commitId := deriveCommitId streamId operationId
  let eventId := deriveEventId commitId 0
  let payload := canonicalJsonBytes message.payload
  let newEvent ← (NewEvent.new eventId message.name message.schemaVersion.get payload).mapError
    .envelope
  let batch ← (EventBatch.new commitId operationId fingerprint [newEvent]).mapError .envelope
  let recorded ← (RecordedEvent.newInCommit streamId message.streamVersion eventId commitId
    operationId fingerprint 0 1 message.name message.schemaVersion.get payload).mapError .envelope
  let streamOrdinal := (p.streamEventCounts.lookup streamId).getD 0
  let streamEventCount ← okOr .eventCountOverflow (checkedAdd streamOrdinal 1)
  let physicalId ← (CheckedString.new eventId.value).mapError .eventIdentity
  return {
    plan := p.plan ++ [{
      recorded := { recorded with
        correlationId := some message.correlationId
        causationId := parentPhysicalId }
      batch := { batch with
        correlationId := some message.correlationId
        causationId := parentPhysicalId }
      streamOrdinal }]
    streamEventCounts := p.streamEventCounts.insert streamId streamEventCount
    physicalIds := p.physicalIds.insert message.messageId physicalId }

/-- `build_plan`. -/
def buildPlan (f : Fixture) : Except FixtureApplyError (List PlannedEvent) :=
  (f.messages.nodes.foldlM (planMessage f) ⟨[], ∅, ∅⟩).map (·.plan)

end Crates

/-! ## Sets of planned events -/

/-- The events by their identities; an identity has each of its events once. -/
structure FixtureEventSet where
  events : Map EventId (List RecordedEvent)

namespace FixtureEventSet

/-- `FixtureEventSet::default`. -/
def empty : FixtureEventSet := ⟨∅⟩

/-- `FixtureEventSet::contains`. -/
def contains (s : FixtureEventSet) (event : RecordedEvent) : Bool :=
  (s.events.lookup event.eventId).any (event ∈ ·)

/-- `FixtureEventSet::insert`. -/
def insert (s : FixtureEventSet) (event : RecordedEvent) : FixtureEventSet :=
  let candidates := (s.events.lookup event.eventId).getD []
  if event ∈ candidates then ⟨s.events.insert event.eventId candidates⟩
  else ⟨s.events.insert event.eventId (candidates ++ [event])⟩

/-- `FixtureEventSet::new`. -/
def new [Crates] (fixtures : List Fixture) : Except FixtureApplyError FixtureEventSet :=
  fixtures.foldlM (fun s f => do
    f.validate.mapError .invalidFixture
    let plan ← buildPlan f
    return plan.foldl (fun s planned => s.insert planned.recorded) s) empty

end FixtureEventSet

end Rostfrei.Fixtures
