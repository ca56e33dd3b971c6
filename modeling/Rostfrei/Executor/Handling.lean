import Rostfrei.Core.History
import Rostfrei.Core.Recovery
import Rostfrei.Lib.Program

/-!
# One attempt of a command handler

What `executor.rs` does around a handler: `CommandExecution` loads aggregates, tracks the events
that the handler raises on them, and collects them when the handler is done. An attempt ends with
an `EventTransaction` in which every loaded aggregate takes part: with the batch of its events, or
as a read guard, and always with the version of the history that was loaded.

A handler is a program over `HandlerCall`; what else it does is its own. The history it reads from
is a parameter, as in the source, so the same attempt can be made against a session or against one
fixed state.
-/

namespace Rostfrei

open Lib

/-! ## Metadata -/

/-- Identity and provenance of a command. -/
structure CommandExecutionMetadata where
  actor : Option ActorRef
  securityScope : Option SecurityScope
  outcomeEvidence : Option OutcomeEvidence
  boundedContext : Option BoundedContextName
  operationId : OperationId
  operationFingerprint : ContentFingerprint
  correlationId : Option CorrelationId
  causationId : Option CausationId
deriving DecidableEq

namespace CommandExecutionMetadata

/-- `with_default_outcome_evidence`; `typeName` is the name of the Rust command type. -/
def withDefaultOutcomeEvidence (m : CommandExecutionMetadata) (typeName : String) :
    CommandExecutionMetadata :=
  if m.outcomeEvidence.isNone then
    { m with
      outcomeEvidence := some
        { authorityScope := none
          createdAtMillis := none
          fingerprintVersion := 1
          commandType := "rust:" ++ typeName
          commandSchema := 1
          eventsCausedByCommand := false
          originalCausation := m.causationId.map (·.value) } }
  else m

/-- `effective_correlation_id`: the operation is the default. -/
def effectiveCorrelationId (m : CommandExecutionMetadata) : Except ContractError CorrelationId :=
  match m.correlationId with
  | some correlationId => .ok correlationId
  | none => CheckedString.new m.operationId.value

/-- `normalized`. -/
def normalized (m : CommandExecutionMetadata) : Except ContractError CommandExecutionMetadata := do
  let correlationId ← m.effectiveCorrelationId
  return { m with correlationId := some correlationId }

/-- `required_bounded_context`. -/
def requiredBoundedContext (m : CommandExecutionMetadata) :
    Except EventStoreError BoundedContextName :=
  okOr (invalid "command execution has no bounded-context identity") m.boundedContext

end CommandExecutionMetadata

inductive CommandExecutionError where
  | outcomeRecovery (error : OutcomeRecoveryError)
  | rejectedOutcomePersistence (error : EventStoreError)
  | rejectionMapping (message : String)
  | store (error : EventStoreError)
  | codec (error : EventCodecError)
deriving DecidableEq

inductive CommandDecision (Rejection : Type) where
  | accepted
  | rejected (rejection : Rejection)

structure RejectionCodec (Rejection : Type) where
  encode : Rejection → Except EventCodecError EncodedRejection
  decode : EncodedRejection → Except EventCodecError Rejection

/-! ## Aggregates -/

/-- An aggregate, with its events as JSON. -/
structure Aggregate where
  boundedContext : String
  aggregateType : String
  State : Type
  Event : Type
  initial : StreamId → State
  apply : State → Event → State
  eventType : Event → String
  schemaVersion : Event → UInt32
  encodeJson : Event → Except EventCodecError Bytes
  decodeJson : RecordedEvent → Except EventCodecError Event

structure EventCodec (A : Aggregate) where
  encode : A.Event → EventId → Except EventCodecError NewEvent
  decode : RecordedEvent → Except EventCodecError A.Event

/-- `JsonEventCodec`. -/
def jsonEventCodec (A : Aggregate) : EventCodec A where
  encode event eventId := do
    let payload ← A.encodeJson event
    (NewEvent.new eventId (A.eventType event) (A.schemaVersion event) payload).mapError
      fun e => ⟨.invalidEnvelope, e.toString⟩
  decode := A.decodeJson

/-- The registered codecs. An entry is for one aggregate only, and gives nothing for another. -/
structure AggregateCodecs where
  entries : AggregateType → Option ((A : Aggregate) → Option (EventCodec A))

/-- `AggregateCodecs::resolve`; JSON is the default. -/
def AggregateCodecs.resolve (codecs : AggregateCodecs) (A : Aggregate) :
    Except EventCodecError (EventCodec A) := do
  let aggregateType ← (CheckedString.new A.aggregateType).mapError
    fun (e : IdentityError) => ⟨.invalidEnvelope, e.toString⟩
  match codecs.entries aggregateType with
  | none => return jsonEventCodec A
  | some entry =>
    okOr ⟨.invalidEnvelope, "aggregate wire identity belongs to a different Rust model"⟩ (entry A)

/-- What a handler gets from a load; `participant` is the handle. -/
structure LoadedAggregate (A : Aggregate) where
  participant : Nat
  streamId : StreamId
  state : A.State
  baseVersion : Nat
  codec : EventCodec A

/-- `validate_bounded_context`. -/
def validateBoundedContext (A : Aggregate) (m : CommandExecutionMetadata) :
    Except EventStoreError Unit := do
  let context ← m.requiredBoundedContext
  rejectIf (A.boundedContext ≠ context.value)
    (invalid ("aggregate context `" ++ A.boundedContext ++
      "` does not match command execution context `" ++ context.value ++ "`"))

/-- `stream_id_for`. -/
def streamIdFor (A : Aggregate) (aggregateId : String) : Except EventStoreError StreamId := do
  let aggregateType ← (CheckedString.new A.aggregateType).mapError
    fun (e : IdentityError) => invalid e.toString
  let aggregateId ← (CheckedString.new aggregateId).mapError
    fun (e : IdentityError) => invalid e.toString
  return ⟨aggregateType, aggregateId⟩

/-- `current_version` of a history. -/
def historyVersion (history : List RecordedEvent) : Nat :=
  history.getLast?.elim 0 (·.streamVersion)

/-! ## Tracking -/

inductive JournalEntry where
  | started (ordinal : Nat)
  | completed (ordinal : Nat) (event : Except CommandExecutionError NewEvent)

/-- `finalization` is set when the handle is dropped. -/
structure ParticipantTracker where
  journal : List JournalEntry
  finalization : Option (Except CommandExecutionError Nat)

/-- A loaded aggregate. `uncommitted` is the number of events on its instance, and `held` says which
loaded instance is in its handle, by participant; a handler may also put an instance of its own
there. -/
structure EnlistedParticipant where
  streamId : StreamId
  baseVersion : Nat
  tracker : ParticipantTracker
  uncommitted : Nat
  held : Option Nat

structure CollectedParticipant where
  streamId : StreamId
  baseVersion : Nat
  events : List NewEvent
deriving DecidableEq

def aggregateOutlivedHandler : CommandExecutionError :=
  .store (invalid "a loaded aggregate escaped its command-handling attempt")

def aggregateTrackingLost : CommandExecutionError :=
  .store (invalid "a loaded aggregate replaced its automatically tracked instance")

def invalidEventJournal : CommandExecutionError :=
  .store (invalid "a loaded aggregate produced an invalid event journal")

def interruptedEventEncoding : CommandExecutionError :=
  .store (invalid "a loaded aggregate event did not finish encoding")

namespace EnlistedParticipant

/-- `take_finalization`, for a tracker that is read once. -/
def takeFinalization (p : EnlistedParticipant) : Except CommandExecutionError Nat :=
  match p.tracker.finalization with
  | none => .error aggregateOutlivedHandler
  | some finalization => finalization

/-- The loop of `collect` over the journal. -/
def collectJournal : List JournalEntry → List NewEvent → Option Nat →
    Except CommandExecutionError (List NewEvent × Option Nat)
  | [], events, encoding => .ok (events, encoding)
  | .started ordinal :: rest, events, encoding =>
    if encoding.isNone ∧ ordinal = events.length then collectJournal rest events (some ordinal)
    else .error invalidEventJournal
  | .completed ordinal event :: rest, events, encoding => do
    let event ← event
    rejectIf (encoding ≠ some ordinal) invalidEventJournal
    collectJournal rest (events ++ [event]) none

/-- `EnlistedParticipant::collect`. -/
def collect (p : EnlistedParticipant) : Except CommandExecutionError CollectedParticipant := do
  let expectedEventCount ← p.takeFinalization
  let (events, encoding) ← collectJournal p.tracker.journal [] none
  rejectIf encoding.isSome interruptedEventEncoding
  rejectIf (events.length ≠ expectedEventCount) invalidEventJournal
  return ⟨p.streamId, p.baseVersion, events⟩

/-- A participant of a rejected command: its events are discarded. -/
def discard (p : EnlistedParticipant) : Except CommandExecutionError CollectedParticipant := do
  let _ ← p.takeFinalization
  return ⟨p.streamId, p.baseVersion, []⟩

/-- What a drop of the handle of a participant records. -/
def drop (participant : Nat) (p : EnlistedParticipant) : EnlistedParticipant :=
  let finalization :=
    if p.held = some participant then .ok p.uncommitted else .error aggregateTrackingLost
  { p with tracker := { p.tracker with finalization := some finalization } }

end EnlistedParticipant

/-! ## Executions -/

/-- Access to the aggregates of one attempt. -/
structure CommandExecution where
  loadedStreams : Finset StreamId
  participants : List EnlistedParticipant

/-- Where an execution reads histories. -/
abbrev EventHistory (m : Type → Type) :=
  StreamId → m (Except EventStoreError (List RecordedEvent))

/-- What a handler can do with its execution. `raise` is on a loaded instance, in whatever handle it is
now; if its code panics it leaves its first journal entry only, and `pushed` says that it came as far
as the encoder. `replace` is one half of a swap: what is in the handle afterwards. A handle that is
not dropped outlives the handler. -/
inductive HandlerCall where
  | load (A : Aggregate) (aggregateId : String)
  | raise (A : Aggregate) (loaded : LoadedAggregate A) (event : A.Event)
  | interrupt (participant : Nat) (pushed : Bool)
  | replace (participant : Nat) (held : Option Nat)
  | drop (participant : Nat)

def HandlerCall.Answer : HandlerCall → Type
  | load A _ => Except CommandExecutionError (LoadedAggregate A)
  | raise .. | interrupt .. | replace .. | drop _ => Unit

/-- What a handler does in one attempt. -/
abbrev Handler (Rejection : Type) :=
  Program HandlerCall HandlerCall.Answer
    (Except CommandExecutionError (CommandDecision Rejection))

namespace CommandExecution

def new : CommandExecution := ⟨∅, []⟩

/-- What `load` checks before it reads the history. -/
def prepareLoad (x : CommandExecution) (m : CommandExecutionMetadata) (A : Aggregate)
    (aggregateId : String) : Except CommandExecutionError StreamId :=
  Except.mapError .store do
    validateBoundedContext A m
    let streamId ← streamIdFor A aggregateId
    rejectIf (streamId ∈ x.loadedStreams)
      (invalid "an aggregate stream may be loaded only once per command attempt")
    return streamId

section Tracking

variable [Crates]

/-- What `load` does with the history: the aggregate is rehydrated and enlisted. -/
def enlist (x : CommandExecution) (codecs : AggregateCodecs) (A : Aggregate) (streamId : StreamId)
    (history : List RecordedEvent) :
    Except CommandExecutionError (LoadedAggregate A × CommandExecution) := do
  (validateHistory streamId history).mapError .store
  let codec ← (codecs.resolve A).mapError .codec
  let events ← (history.mapM codec.decode).mapError .codec
  let loaded : LoadedAggregate A :=
    ⟨x.participants.length, streamId, events.foldl A.apply (A.initial streamId),
      historyVersion history, codec⟩
  let participant : EnlistedParticipant :=
    ⟨streamId, historyVersion history, ⟨[], none⟩, 0, some x.participants.length⟩
  return (loaded, ⟨insert streamId x.loadedStreams, x.participants ++ [participant]⟩)

/-- `CommandExecution::load`. -/
def load {m : Type → Type} [Monad m] (x : CommandExecution) (history : EventHistory m)
    (codecs : AggregateCodecs) (metadata : CommandExecutionMetadata) (A : Aggregate)
    (aggregateId : String) :
    m (Except CommandExecutionError (LoadedAggregate A) × CommandExecution) :=
  match x.prepareLoad metadata A aggregateId with
  | .error e => pure (.error e, x)
  | .ok streamId => do
    match ← history streamId with
    | .error e => pure (.error (.store e), x)
    | .ok events =>
      match x.enlist codecs A streamId events with
      | .error e => pure (.error e, x)
      | .ok (loaded, x') => pure (.ok loaded, x')

/-- The encoded form of a raised event, under the identity of its ordinal. -/
def encodeRaised {A : Aggregate} (metadata : CommandExecutionMetadata) (loaded : LoadedAggregate A)
    (ordinal : Nat) (event : A.Event) : Except CommandExecutionError NewEvent := do
  rejectIf (ordinal ≥ 2 ^ 32)
    (.store (invalid "command emitted more events than the supported ordinal range"))
  let commitId := deriveCommitId loaded.streamId metadata.operationId
  (loaded.codec.encode event (deriveEventId commitId ordinal)).mapError .codec

/-- `raise` on a loaded aggregate: two journal entries around the encoding. -/
def raise {A : Aggregate} (x : CommandExecution) (metadata : CommandExecutionMetadata)
    (loaded : LoadedAggregate A) (event : A.Event) : CommandExecution :=
  { x with
    participants := x.participants.modify loaded.participant fun p =>
      let ordinal := p.uncommitted
      let encoded := encodeRaised metadata loaded ordinal event
      let entries := [.started ordinal, .completed ordinal encoded]
      { p with
        uncommitted := ordinal + 1
        tracker := { p.tracker with journal := p.tracker.journal ++ entries } } }

omit [Crates] in
/-- A `raise` that panics. -/
def interrupt (x : CommandExecution) (participant : Nat) (pushed : Bool) : CommandExecution :=
  { x with
    participants := x.participants.modify participant fun p =>
      let entries := [.started p.uncommitted]
      { p with
        uncommitted := if pushed then p.uncommitted + 1 else p.uncommitted
        tracker := { p.tracker with journal := p.tracker.journal ++ entries } } }

omit [Crates] in
/-- Another instance in a handle. -/
def replace (x : CommandExecution) (participant : Nat) (held : Option Nat) : CommandExecution :=
  { x with
    participants := x.participants.modify participant fun p => { p with held := held } }

omit [Crates] in
/-- A drop of a handle. -/
def drop (x : CommandExecution) (participant : Nat) : CommandExecution :=
  { x with
    participants := x.participants.modify participant (EnlistedParticipant.drop participant) }

/-- The handler's code, with its calls answered. -/
def handle {m : Type → Type} [Monad m] {Rejection : Type} (history : EventHistory m)
    (codecs : AggregateCodecs) (metadata : CommandExecutionMetadata) :
    Handler Rejection → CommandExecution →
      m (Except CommandExecutionError (CommandDecision Rejection) × CommandExecution)
  | .done decision, x => pure (decision, x)
  | .call (.load A aggregateId) next, x => do
    let (loaded, x') ← x.load history codecs metadata A aggregateId
    handle history codecs metadata (next loaded) x'
  | .call (.raise _ loaded event) next, x =>
    handle history codecs metadata (next ()) (x.raise metadata loaded event)
  | .call (.interrupt participant pushed) next, x =>
    handle history codecs metadata (next ()) (x.interrupt participant pushed)
  | .call (.replace participant held) next, x =>
    handle history codecs metadata (next ()) (x.replace participant held)
  | .call (.drop participant) next, x =>
    handle history codecs metadata (next ()) (x.drop participant)

end Tracking

/-- `finish`. -/
def finish (x : CommandExecution) : Except CommandExecutionError (List CollectedParticipant) :=
  x.participants.mapM (·.collect)

/-- `finish_rejected`. -/
def finishRejected (x : CommandExecution) :
    Except CommandExecutionError (List CollectedParticipant) :=
  x.participants.mapM (·.discard)

end CommandExecution

/-! ## From a decision to a transaction -/

/-- What is collected from a handler that is done; a rejection is encoded, and must be readable by
its own codec. -/
def settle {Rejection : Type} (codec : RejectionCodec Rejection)
    (decision : Except CommandExecutionError (CommandDecision Rejection))
    (x : CommandExecution) :
    Except CommandExecutionError (List CollectedParticipant × Option EncodedRejection) := do
  match ← decision with
  | .rejected rejection =>
    let participants ← x.finishRejected
    let encoded ← (codec.encode rejection).mapError .codec
    encoded.validate.mapError .codec
    let _ ← (codec.decode encoded).mapError .codec
    return (participants, some encoded)
  | .accepted =>
    let participants ← x.finish
    return (participants, none)

/-- `expected_version`. -/
def expectedVersion (version : Nat) : ExpectedVersion :=
  if version = 0 then .noStream else .exact version

section Transactions

variable [Crates]

/-- `prepare_batch_for_stream`. -/
def prepareBatchForStream (m : CommandExecutionMetadata) (streamId : StreamId)
    (events : List NewEvent) : Except EventStoreError (Option EventBatch) :=
  if events = [] then .ok none
  else do
    let batch ← (EventBatch.new (deriveCommitId streamId m.operationId) m.operationId
      m.operationFingerprint events).mapError fun e => invalid e.toString
    return some
      { batch with
        correlationId := m.correlationId
        causationId := m.causationId
        actor := m.actor }

/-- A participant of the transaction; without events it is a read guard. -/
def prepareParticipant (m : CommandExecutionMetadata) (p : CollectedParticipant) :
    Except EventStoreError TransactionParticipant := do
  let batch ← prepareBatchForStream m p.streamId p.events
  return ⟨p.streamId, expectedVersion p.baseVersion, batch⟩

/-- The transaction that `append_transaction` proposes. -/
def prepareTransaction (m : CommandExecutionMetadata) (participants : List CollectedParticipant)
    (rejection : Option EncodedRejection) : Except EventStoreError EventTransaction := do
  let participants ← participants.mapM (prepareParticipant m)
  let context ← m.requiredBoundedContext
  return {
    actor := m.actor
    securityScope := m.securityScope
    completion := some (.new m.outcomeEvidence rejection)
    boundedContext := some context
    operationId := m.operationId
    operationFingerprint := m.operationFingerprint
    correlationId := m.correlationId
    causationId := m.causationId
    participants := participants }

end Transactions

end Rostfrei
