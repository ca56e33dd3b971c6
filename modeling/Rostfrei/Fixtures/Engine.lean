import Rostfrei.Executor.Handling
import Rostfrei.Fixtures.Fixture
import Rostfrei.Lib.Program
import Rostfrei.Lib.Sort
import Rostfrei.Memory.Store

/-!
# The application of fixtures

`MessageSeriesEngine::apply` as a program over the calls of an event store: it loads every stream
and compares it with the plan (`preflight`), and then appends the planned events one by one, other
than those that the streams had when they were loaded (`applyPlanned`). Between two calls anyone
else may use the store, and the program may stop after any of its calls.
-/

namespace Rostfrei

open Lib

/-! ## Calls on an event store -/

namespace AppendOutcome

def events : AppendOutcome → List RecordedEvent
  | appended events | exactReplay events => events

def isExactReplay : AppendOutcome → Bool
  | appended _ => false
  | exactReplay _ => true

end AppendOutcome

inductive EventStoreCall where
  | load (streamId : StreamId)
  | append (streamId : StreamId) (expected : ExpectedVersion) (batch : EventBatch)

def EventStoreCall.Answer : EventStoreCall → Type
  | load _ => Except EventStoreError (List RecordedEvent)
  | append .. => Except EventStoreError AppendOutcome

/-- What the in-memory store answers to a call, and its state afterwards. -/
def InMemoryEventStore.serveEvents [Crates] (store : InMemoryEventStore) (st : Memory.State) :
    (call : EventStoreCall) → call.Answer × Memory.State
  | .load streamId => (.ok (store.load st streamId), st)
  | .append streamId expected batch =>
    match store.append streamId expected batch st with
    | .ok outcome st' => (.ok outcome, st')
    | .error e st' => (.error e, st')

namespace Fixtures

open Messaging

/-! ## Codecs -/

/-- A registered codec with its model. -/
structure CodecEntry where
  model : Aggregate
  codec : EventCodec model

/-- `TypedValidator::validate`, from a state on. -/
def CodecEntry.validateFrom (entry : CodecEntry) (stream : StreamId) :
    entry.model.State → List RecordedEvent → Except CodecValidationError Unit
  | _, [] => .ok ()
  | state, event :: rest => do
    let decoded ← (if event.streamId = stream then entry.codec.decode event
      else .error ⟨.invalidEnvelope, "event belongs to another stream"⟩).mapError
        (.event stream event.eventType event.schemaVersion)
    entry.validateFrom stream (entry.model.apply state decoded) rest

/-- The engine, with the entries of its `AggregateCodecs`. -/
structure MessageSeriesEngine where
  codecs : AggregateType → Option CodecEntry

structure FixtureApplyReport [Crates] where
  fixtureId : MessageId
  fixtureRevision : MessageId
  fixtureDomainEventCount : Nat
  appliedDomainEventCount : Nat
  reusedDomainEventCount : Nat
  fixture : Fixture

/-- The planned events of each stream, in the order of a `BTreeMap`. -/
def eventsByStream (plan : List PlannedEvent) : List (StreamId × List PlannedEvent) :=
  (sortBy (fun s : StreamId => toLex (s.aggregateType.value, s.aggregateId.value))
    (plan.map (·.recorded.streamId)).dedup).map fun s =>
      (s, plan.filter (·.recorded.streamId = s))

namespace MessageSeriesEngine

/-- `AggregateCodecs::validate_history`. -/
def validateHistory (engine : MessageSeriesEngine) (stream : StreamId)
    (events : List RecordedEvent) : Except CodecValidationError Unit :=
  match engine.codecs stream.aggregateType with
  | none => .error (.unregistered stream.aggregateType)
  | some entry => entry.validateFrom stream (entry.model.initial stream) events

/-- How `apply` reports the error of a codec. -/
def codecError : CodecValidationError → FixtureApplyError
  | .unregistered aggregateType => .unknownAggregateCodec aggregateType
  | .event streamId eventType schemaVersion source =>
    .codec streamId eventType schemaVersion source

/-- `validate_aggregate_types`. -/
def validateAggregateTypes [Crates] (engine : MessageSeriesEngine) (f : Fixture) :
    Except FixtureApplyError Unit :=
  forM f.messages.nodes fun message =>
    rejectIf (engine.codecs message.aggregate.aggregateType).isNone
      (.unknownAggregateCodec message.aggregate.aggregateType)

/-- A program that applies a fixture. -/
abbrev Applying (α : Type) :=
  ExceptT FixtureApplyError (Program EventStoreCall EventStoreCall.Answer) α

/-- The second loop of `apply`: the number of events that each stream has already. -/
def preflight : List (StreamId × List PlannedEvent) → List (StreamId × Nat) →
    Applying (List (StreamId × Nat))
  | [], reusedPrefixes => pure reusedPrefixes
  | (streamId, events) :: rest, reusedPrefixes => do
    let history : List RecordedEvent ←
      ExceptT.adapt .store (ExceptT.mk (Program.perform (EventStoreCall.load streamId)))
    if (history.zip events).any fun x => x.1 ≠ x.2.recorded then
      throwThe FixtureApplyError (.conflictingHistory streamId history.length events.length)
    else preflight rest (reusedPrefixes ++ [(streamId, min history.length events.length)])

/-- The expected version of a planned event. -/
def expectedVersion (planned : PlannedEvent) : Except FixtureApplyError ExpectedVersion :=
  match planned.recorded.streamVersion with
  | 0 => .error .eventCountOverflow
  | 1 => .ok .noStream
  | version + 1 => .ok (.exact version)

/-- The counts of applied and reused events after an append. -/
def countOutcome (outcome : AppendOutcome) (counts : Nat × Nat) :
    Except FixtureApplyError (Nat × Nat) := do
  if outcome.isExactReplay then
    let reused ← okOr .eventCountOverflow (checkedAdd counts.2 1)
    return (counts.1, reused)
  else
    let applied ← okOr .eventCountOverflow (checkedAdd counts.1 1)
    return (applied, counts.2)

/-- One append of `apply`. -/
def applyEvent (planned : PlannedEvent) (counts : Nat × Nat) : Applying (Nat × Nat) := do
  let streamId := planned.recorded.streamId
  let expected ← liftM (expectedVersion planned)
  let outcome : AppendOutcome ← ExceptT.adapt .store
    (ExceptT.mk (Program.perform (EventStoreCall.append streamId expected planned.batch)))
  if outcome.events ≠ [planned.recorded] then
    throwThe FixtureApplyError (.unexpectedAppendResult streamId planned.recorded.operationId)
  else liftM (countOutcome outcome counts)

/-- The last loop of `apply`: the counts of applied and reused events. -/
def applyPlanned (reusedPrefixes : List (StreamId × Nat)) :
    List PlannedEvent → Nat × Nat → Applying (Nat × Nat)
  | [], counts => pure counts
  | planned :: rest, counts => do
    let reusedPrefix := (reusedPrefixes.lookup planned.recorded.streamId).getD 0
    if planned.streamOrdinal < reusedPrefix then applyPlanned reusedPrefixes rest counts
    else
      let counts ← applyEvent planned counts
      applyPlanned reusedPrefixes rest counts

section Crates

variable [Crates]

/-- The checks of `apply` before its first call. -/
def prepare (engine : MessageSeriesEngine) (f : Fixture) :
    Except FixtureApplyError (List PlannedEvent) := do
  f.validate.mapError .invalidFixture
  engine.validateAggregateTypes f
  let plan ← buildPlan f
  forM (eventsByStream plan) fun (streamId, events) =>
    (engine.validateHistory streamId (events.map (·.recorded))).mapError codecError
  return plan

/-- `MessageSeriesEngine::apply`. -/
def apply (engine : MessageSeriesEngine) (f : Fixture) : Applying FixtureApplyReport := do
  let plan ← liftM (engine.prepare f)
  let reusedPrefixes ← preflight (eventsByStream plan) []
  let reused ← liftM (reusedPrefixes.foldlM
    (fun total x => okOr FixtureApplyError.eventCountOverflow (checkedAdd total x.2)) 0)
  let counts ← applyPlanned reusedPrefixes plan (0, reused)
  return {
    fixtureId := f.id
    fixtureRevision := f.revision
    fixtureDomainEventCount := f.messages.nodes.length
    appliedDomainEventCount := counts.1
    reusedDomainEventCount := counts.2
    fixture := f }

end Crates

end MessageSeriesEngine

end Fixtures

end Rostfrei
