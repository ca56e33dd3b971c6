import Rostfrei.Core.Outcome
import Rostfrei.Memory.Store
import Rostfrei.Nats.Builder
import Rostfrei.Nats.Headers

/-!
# Domain events on the wire

`encodeEventsInner` writes the recorded events of a batch as JSON payloads, in one of four schema
versions: with or without an actor, inside or outside a transaction. `decodeEventInner` reads a
payload with its subject and headers; it knows two older versions too.

The decoder is cut into its stages, in the order of the source.
-/

namespace Rostfrei.Nats

open Lib

def legacyEventSchemaVersion : UInt16 := 1
def correlationEventSchemaVersion : UInt16 := 2
def eventSchemaVersion : UInt16 := 3
def transactionEventSchemaVersion : UInt16 := 4
def actorEventSchemaVersion : UInt16 := 5
def actorTransactionEventSchemaVersion : UInt16 := 6

/-- `u32::checked_add`. -/
def checkedAddU32 (a b : Nat) : Option Nat := if a + b < 2 ^ 32 then some (a + b) else none

/-! ## Wire records -/

structure StreamIdentityWire where
  aggregateType : String
  aggregateId : String
deriving DecidableEq

namespace StreamIdentityWire

def toJson (w : StreamIdentityWire) : Json :=
  .obj [("aggregateType", .str w.aggregateType), ("aggregateId", .str w.aggregateId)]

def keys : List String := ["aggregateType", "aggregateId"]

def ofJson? (j : Json) : Option StreamIdentityWire := do
  let fields ← j.struct? keys
  return {
    aggregateType := ← Json.required fields "aggregateType" Json.str?
    aggregateId := ← Json.required fields "aggregateId" Json.str? }

@[simp] theorem ofJson?_toJson (w : StreamIdentityWire) : ofJson? w.toJson = some w := by
  unfold ofJson? toJson
  rw [Json.struct?_obj (show keys.Nodup by decide) (fun _ h => h) rfl, Option.bind_eq_bind,
    Option.bind_some]
  simp only [Json.required]
  simp (disch := decide) only [List.lookup_cons_self, Json.lookup_cons_of_ne, Option.bind_some,
    Json.str?_str]
  rfl

@[simp] theorem fits_toJson (w : StreamIdentityWire) (d : Nat) : w.toJson.Fits (d + 1) := by
  simp [toJson]

end StreamIdentityWire

/-- `stream_identity`. -/
def streamIdentity (streamId : StreamId) : StreamIdentityWire :=
  ⟨streamId.aggregateType.value, streamId.aggregateId.value⟩

structure StoredEventContentWire where
  eventStoreStream : String
  application : Option String
  boundedContext : Option String
  stream : StreamIdentityWire
  streamVersion : Nat
  commitId : String
  operationId : String
  operationFingerprint : String
  correlationId : Option String
  causationId : Option String
  actor : Option ActorRef
  commitEventOrdinal : Nat
  commitEventCount : Nat
  transactionEventOrdinal : Option Nat
  transactionEventCount : Option Nat
  eventId : String
  eventType : String
  eventSchemaVersion : UInt32
  payloadBase64 : String
deriving DecidableEq

namespace StoredEventContentWire

/-- The numbers have the widths of the source: `u64` for the version, `u32` for the rest. -/
structure Sized (w : StoredEventContentWire) : Prop where
  streamVersion : w.streamVersion < 2 ^ 64
  commitEventOrdinal : w.commitEventOrdinal < 2 ^ 32
  commitEventCount : w.commitEventCount < 2 ^ 32
  transactionEventOrdinal : ∀ n ∈ w.transactionEventOrdinal, n < 2 ^ 32
  transactionEventCount : ∀ n ∈ w.transactionEventCount, n < 2 ^ 32

def fields (w : StoredEventContentWire) : List (String × Option Json) :=
  [("eventStoreStream", some (.str w.eventStoreStream)),
    ("application", w.application.map .str),
    ("boundedContext", w.boundedContext.map .str),
    ("stream", some w.stream.toJson),
    ("streamVersion", some (.num w.streamVersion)),
    ("commitId", some (.str w.commitId)),
    ("operationId", some (.str w.operationId)),
    ("operationFingerprint", some (.str w.operationFingerprint)),
    ("correlationId", w.correlationId.map .str),
    ("causationId", w.causationId.map .str),
    ("actor", w.actor.map ActorRef.toJson),
    ("commitEventOrdinal", some (.num w.commitEventOrdinal)),
    ("commitEventCount", some (.num w.commitEventCount)),
    ("transactionEventOrdinal", w.transactionEventOrdinal.map .num),
    ("transactionEventCount", w.transactionEventCount.map .num),
    ("eventId", some (.str w.eventId)),
    ("eventType", some (.str w.eventType)),
    ("eventSchemaVersion", some (.num w.eventSchemaVersion.toNat)),
    ("payloadBase64", some (.str w.payloadBase64))]

def toJson (w : StoredEventContentWire) : Json := .obj (Json.sparse w.fields)

def keys : List String :=
  ["eventStoreStream", "application", "boundedContext", "stream", "streamVersion", "commitId",
    "operationId", "operationFingerprint", "correlationId", "causationId", "actor",
    "commitEventOrdinal", "commitEventCount", "transactionEventOrdinal", "transactionEventCount",
    "eventId", "eventType", "eventSchemaVersion", "payloadBase64"]

/-- `null` is refused for the actor only. -/
def ofJson? (j : Json) : Option StoredEventContentWire := do
  let fields ← j.struct? keys
  return {
    eventStoreStream := ← Json.required fields "eventStoreStream" Json.str?
    application := ← Json.optional fields "application" Json.str?
    boundedContext := ← Json.optional fields "boundedContext" Json.str?
    stream := ← Json.required fields "stream" StreamIdentityWire.ofJson?
    streamVersion := ← Json.required fields "streamVersion" (Json.uint? (2 ^ 64))
    commitId := ← Json.required fields "commitId" Json.str?
    operationId := ← Json.required fields "operationId" Json.str?
    operationFingerprint := ← Json.required fields "operationFingerprint" Json.str?
    correlationId := ← Json.optional fields "correlationId" Json.str?
    causationId := ← Json.optional fields "causationId" Json.str?
    actor := ← Json.present fields "actor" ActorRef.ofJson?
    commitEventOrdinal := ← Json.required fields "commitEventOrdinal" (Json.uint? (2 ^ 32))
    commitEventCount := ← Json.required fields "commitEventCount" (Json.uint? (2 ^ 32))
    transactionEventOrdinal :=
      ← Json.optional fields "transactionEventOrdinal" (Json.uint? (2 ^ 32))
    transactionEventCount := ← Json.optional fields "transactionEventCount" (Json.uint? (2 ^ 32))
    eventId := ← Json.required fields "eventId" Json.str?
    eventType := ← Json.required fields "eventType" Json.str?
    eventSchemaVersion := ← Json.required fields "eventSchemaVersion" Json.uint32?
    payloadBase64 := ← Json.required fields "payloadBase64" Json.str? }

theorem keys_nodup : keys.Nodup := by decide

theorem ofJson?_toJson {w : StoredEventContentWire} (h : w.Sized) : ofJson? w.toJson = some w := by
  have hlookup : ∀ key, (Json.sparse w.fields).lookup key = (w.fields.lookup key).join :=
    Json.lookup_sparse keys_nodup
  have hversion := Json.uint?_num h.streamVersion
  have hordinal := Json.uint?_num h.commitEventOrdinal
  have hcount := Json.uint?_num h.commitEventCount
  have hnum : ∀ x : Option Nat, (∀ n ∈ x, n < 2 ^ 32) →
      Json.optionalOf (Json.uint? (2 ^ 32)) (x.map .num) = some x := fun x hx =>
    Json.optionalOf_map x (fun n hn => Json.uint?_num (hx n hn)) fun _ => Json.noConfusion
  have htordinal := hnum _ h.transactionEventOrdinal
  have htcount := hnum _ h.transactionEventCount
  have hstr : ∀ x : Option String, Json.optionalOf Json.str? (x.map .str) = some x := fun x =>
    Json.optionalOf_map x (fun s _ => Json.str?_str s) fun _ => Json.noConfusion
  have hactor := Json.presentOf_map w.actor fun a _ => ActorRef.ofJson?_toJson a
  unfold ofJson? toJson
  rw [Json.struct?_sparse keys_nodup rfl, Option.bind_eq_bind, Option.bind_some]
  simp only [Json.required, Json.optional, Json.present, hlookup]
  simp (disch := decide) only [fields, List.lookup_cons_self, Json.lookup_cons_of_ne,
    Option.join_some, Option.bind_some, Json.str?_str, StreamIdentityWire.ofJson?_toJson,
    Json.uint32?_num, hversion, hordinal, hcount, htordinal, htcount, hstr, hactor]
  rfl

theorem fits_toJson {w : StoredEventContentWire} (h : w.Sized) (d : Nat) :
    w.toJson.Fits (d + 2) := by
  have hschema := w.eventSchemaVersion.toNat_lt
  have hversion := h.streamVersion
  have hordinal := h.commitEventOrdinal
  have hcount := h.commitEventCount
  have htordinal : ∀ a ∈ w.transactionEventOrdinal, a < 2 ^ 64 := fun a ha => by
    have := h.transactionEventOrdinal a ha
    omega
  have htcount : ∀ a ∈ w.transactionEventCount, a < 2 ^ 64 := fun a ha => by
    have := h.transactionEventCount a ha
    omega
  refine Json.fits_sparse ?_
  simp only [fields, List.forall_mem_cons, List.not_mem_nil, false_imp_iff, implies_true, and_true,
    Option.mem_def, Option.some.injEq, forall_eq', Option.map_eq_some_iff, forall_exists_index,
    and_imp, forall_apply_eq_imp_iff₂, Json.fits_str, Json.fits_num, StreamIdentityWire.fits_toJson,
    ActorRef.fits_toJson, true_and]
  exact ⟨by omega, by omega, by omega, htordinal, htcount, by omega⟩

end StoredEventContentWire

structure StoredEventWire where
  schemaVersion : UInt16
  checksum : String
  event : StoredEventContentWire

namespace StoredEventWire

def toJson (w : StoredEventWire) : Json :=
  .obj [("schemaVersion", .num w.schemaVersion.toNat), ("checksum", .str w.checksum),
    ("event", w.event.toJson)]

def keys : List String := ["schemaVersion", "checksum", "event"]

def ofJson? (j : Json) : Option StoredEventWire := do
  let fields ← j.struct? keys
  return {
    schemaVersion := ← Json.required fields "schemaVersion" Json.uint16?
    checksum := ← Json.required fields "checksum" Json.str?
    event := ← Json.required fields "event" StoredEventContentWire.ofJson? }

theorem ofJson?_toJson {w : StoredEventWire} (h : w.event.Sized) : ofJson? w.toJson = some w := by
  have hevent := StoredEventContentWire.ofJson?_toJson h
  unfold ofJson? toJson
  rw [Json.struct?_obj (show keys.Nodup by decide) (fun _ h => h) rfl, Option.bind_eq_bind,
    Option.bind_some]
  simp only [Json.required]
  simp (disch := decide) only [List.lookup_cons_self, Json.lookup_cons_of_ne, Option.bind_some,
    Json.str?_str, Json.uint16?_num, hevent]
  rfl

theorem fits_toJson {w : StoredEventWire} (h : w.event.Sized) (d : Nat) :
    w.toJson.Fits (d + 3) := by
  have hschema := w.schemaVersion.toNat_lt
  have hevent := StoredEventContentWire.fits_toJson h d
  simp only [toJson, Json.fits_obj, List.forall_mem_cons, Json.fits_num, Json.fits_str, hevent,
    List.not_mem_nil, false_imp_iff, implies_true, and_true]
  omega

end StoredEventWire

section Wire

variable [Crates]

/-- `event_checksum`. -/
def eventChecksum (schemaVersion : UInt16) (event : StoredEventContentWire) : String :=
  lowerHex (sha256 (toVec (.obj [("schemaVersion", .num schemaVersion.toNat),
    ("event", event.toJson)]))).toList

/-! ## Recording -/

omit [Crates] in
/-- The loop of `record_batch`, from a version and an ordinal on. -/
def recordEvents (streamId : StreamId) (batch : EventBatch) (eventCount : Nat) :
    Nat → Nat → List NewEvent → Except EventStoreError (List RecordedEvent)
  | _, _, [] => .ok []
  | version, ordinal, event :: rest => do
    let version ← okOr (Memory.capacityExhausted "aggregate version space is exhausted")
      (nextVersion version)
    rejectIf (ordinal ≥ 2 ^ 32) (invalid "event ordinal exceeds the supported range")
    let recorded ← (RecordedEvent.newInCommit streamId version event.eventId batch.commitId
      batch.operationId batch.operationFingerprint ordinal eventCount event.eventType
      event.schemaVersion event.payload).mapError
        fun e => invalid ("invalid event envelope: " ++ e.toString)
    let rest ← recordEvents streamId batch eventCount version (ordinal + 1) rest
    return { recorded with
      correlationId := batch.correlationId
      causationId := batch.causationId
      actor := batch.actor } :: rest

omit [Crates] in
/-- `record_batch`, with `RecordedBatch::new`. -/
def recordBatch (streamId : StreamId) (current : Nat) (batch : EventBatch) :
    Except EventStoreError (List RecordedEvent) := do
  rejectIf (batch.events.length ≥ 2 ^ 32) (invalid "event count exceeds the supported range")
  let recorded ← recordEvents streamId batch batch.events.length current 0 batch.events
  rejectIf (recorded = []) (invalid "event batch is empty")
  return recorded

/-! ## Encoding -/

/-- The schema version of an event, by transaction and actor. -/
def encodedSchemaVersion (transactional attributed : Bool) : UInt16 :=
  match transactional, attributed with
  | true, true => actorTransactionEventSchemaVersion
  | false, true => actorEventSchemaVersion
  | true, false => transactionEventSchemaVersion
  | false, false => eventSchemaVersion

/-- The wire content of event `ordinal` of `count`; `transaction` is the event's ordinal in its
transaction and the transaction's event count. -/
def eventContent (config : NatsEventStoreConfig) (streamId : StreamId) (batch : EventBatch)
    (count ordinal : Nat) (transaction : Option (Nat × Nat)) (event : RecordedEvent) :
    StoredEventContentWire where
  eventStoreStream := config.streamName
  application := some config.application.value
  boundedContext := some config.boundedContext.value
  stream := streamIdentity streamId
  streamVersion := event.streamVersion
  commitId := batch.commitId.value
  operationId := batch.operationId.value
  operationFingerprint := batch.operationFingerprint.toHex
  correlationId := batch.correlationId.map (·.value)
  causationId := batch.causationId.map (·.value)
  actor := batch.actor
  commitEventOrdinal := ordinal
  commitEventCount := count
  transactionEventOrdinal := transaction.map Prod.fst
  transactionEventCount := transaction.map Prod.snd
  eventId := event.eventId.value
  eventType := event.eventType
  eventSchemaVersion := event.schemaVersion
  payloadBase64 := base64Encode event.payload

/-- The payload of an event. -/
def eventPayload (transactional attributed : Bool) (content : StoredEventContentWire) : Bytes :=
  let schemaVersion := encodedSchemaVersion transactional attributed
  toVec (StoredEventWire.toJson ⟨schemaVersion, eventChecksum schemaVersion content, content⟩)

/-- The place of an event in its transaction. -/
def transactionCoordinates (ordinal : Nat) :
    Option (Nat × Nat) → Except EventStoreError (Option (Nat × Nat))
  | none => return none
  | some (offset, count) => do
    let ordinal ← okOr (invalid "transaction event ordinal overflowed") (checkedAddU32 offset ordinal)
    return some (ordinal, count)

/-- `encode_events_inner`; `transaction` is the offset of the batch in its transaction and the
transaction's event count. -/
def encodeEventsInner (config : NatsEventStoreConfig) (streamId : StreamId) (batch : EventBatch)
    (recorded : List RecordedEvent) (transaction : Option (Nat × Nat)) :
    Except EventStoreError (List Bytes) := do
  rejectIf (recorded.length ≠ batch.events.length)
    (invalid "recorded event count does not match its batch")
  rejectIf (recorded.length ≥ 2 ^ 32) (invalid "event batch count cannot be represented")
  recorded.zipIdx.mapM fun (event, ordinal) => do
    rejectIf (ordinal ≥ 2 ^ 32) (invalid "event batch ordinal cannot be represented")
    let coordinates ← transactionCoordinates ordinal transaction
    return eventPayload transaction.isSome batch.actor.isSome
      (eventContent config streamId batch recorded.length ordinal coordinates event)

/-! ## Decoding -/

omit [Crates] in
/-- `transactional_event_schema`. -/
def transactionalEventSchema (version : UInt16) : Bool :=
  version = transactionEventSchemaVersion || version = actorTransactionEventSchemaVersion

omit [Crates] in
/-- The schema version is known, and the optional fields are those it allows. -/
def checkEventSchema (wire : StoredEventWire) : Except EventStoreError Unit := do
  rejectIf (wire.schemaVersion ∉ [legacyEventSchemaVersion, correlationEventSchemaVersion,
      eventSchemaVersion, transactionEventSchemaVersion, actorEventSchemaVersion,
      actorTransactionEventSchemaVersion])
    (corrupt "stored event has an unsupported schema version")
  rejectIf ((wire.schemaVersion ∈ [actorEventSchemaVersion, actorTransactionEventSchemaVersion] :
      Bool) ≠ wire.event.actor.isSome)
    (corrupt "stored event actor/schema mismatch")
  rejectIf (wire.schemaVersion = legacyEventSchemaVersion ∧
      (wire.event.correlationId.isSome ∨ wire.event.causationId.isSome))
    (corrupt "legacy stored events cannot contain correlation or causation metadata")
  rejectIf (wire.schemaVersion < eventSchemaVersion ∧
      (wire.event.application.isSome ∨ wire.event.boundedContext.isSome))
    (corrupt "legacy stored events cannot contain application scope metadata")
  rejectIf (¬ transactionalEventSchema wire.schemaVersion ∧
      (wire.event.transactionEventOrdinal.isSome ∨ wire.event.transactionEventCount.isSome))
    (corrupt "legacy stored events cannot contain transaction coordinates")

/-- The checksum is right, and the event belongs to this store. -/
def checkEventOrigin (config : NatsEventStoreConfig) (wire : StoredEventWire) :
    Except EventStoreError Unit := do
  rejectIf (wire.checksum ≠ eventChecksum wire.schemaVersion wire.event)
    (corrupt "stored event checksum does not match its content")
  rejectIf (wire.event.eventStoreStream ≠ config.streamName)
    (corrupt "stored event belongs to a different event-store stream")
  rejectIf (wire.schemaVersion ≥ eventSchemaVersion ∧
      (wire.event.application ≠ some config.application.value ∨
        wire.event.boundedContext ≠ some config.boundedContext.value))
    (corrupt "stored event belongs to a different application or bounded context")

/-- The stream of the event; it is the expected one, and the subject is its subject. -/
def decodeEventStream (config : NatsEventStoreConfig) (subject : String)
    (expectedStreamId : Option StreamId) (wire : StreamIdentityWire) :
    Except EventStoreError StreamId := do
  let aggregateType ← (CheckedString.new wire.aggregateType : Except IdentityError AggregateType)
    |>.mapError fun e => corrupt ("invalid stored aggregate type: " ++ e.toString)
  let aggregateId ← (CheckedString.new wire.aggregateId : Except IdentityError AggregateId)
    |>.mapError fun e => corrupt ("invalid stored aggregate id: " ++ e.toString)
  let streamId : StreamId := ⟨aggregateType, aggregateId⟩
  rejectIf (expectedStreamId.any (streamId ≠ ·))
    (corrupt "stored event belongs to a different aggregate stream")
  rejectIf (config.aggregateSubject streamId ≠ subject)
    (corrupt "stored event is on the wrong aggregate subject")
  return streamId

omit [Crates] in
/-- The event's ordinal and count in its transaction; those of the commit without one. -/
def decodeTransactionCoordinates (wire : StoredEventWire) : Except EventStoreError (Nat × Nat) :=
  if transactionalEventSchema wire.schemaVersion then do
    let ordinal ← okOr (corrupt "transactional event has no transaction ordinal")
      wire.event.transactionEventOrdinal
    let count ← okOr (corrupt "transactional event has no transaction event count")
      wire.event.transactionEventCount
    rejectIf (count = 0 ∨ count > maxEventsPerBatch ∨ ordinal ≥ count)
      (corrupt "transactional event has invalid transaction coordinates")
    return (ordinal, count)
  else return (wire.event.commitEventOrdinal, wire.event.commitEventCount)

omit [Crates] in
/-- An optional identity of the wire. -/
def optionalIdentity {ε : Type} {check : String → Except ε Unit} (message : ε → String) :
    Option String → Except EventStoreError (Option (CheckedString check))
  | none => return none
  | some value => do
    let identity ← (CheckedString.new value : Except ε (CheckedString check))
      |>.mapError fun e => corrupt (message e)
    return some identity

/-- The identities and the recorded event. -/
def decodeRecorded (wire : StoredEventContentWire) (streamId : StreamId) :
    Except EventStoreError RecordedEvent := do
  let commitId ← (CheckedString.new wire.commitId : Except IdentityError CommitId)
    |>.mapError fun e => corrupt ("invalid stored commit identity: " ++ e.toString)
  let operationId ← (CheckedString.new wire.operationId : Except IdentityError OperationId)
    |>.mapError fun e => corrupt ("invalid stored operation identity: " ++ e.toString)
  let operationFingerprint ← (ContentFingerprint.fromHex wire.operationFingerprint).mapError
    fun e => corrupt ("invalid stored operation fingerprint: " ++ e.toString)
  let correlationId : Option CorrelationId ← optionalIdentity
    (fun e => "invalid stored correlation identity: " ++ e.toString) wire.correlationId
  let causationId : Option CausationId ← optionalIdentity
    (fun e => "invalid stored causation identity: " ++ e.toString) wire.causationId
  let eventId ← (CheckedString.new wire.eventId : Except IdentityError EventId)
    |>.mapError fun e => corrupt ("invalid stored event identity: " ++ e.toString)
  let payload ← okOr (corrupt ("invalid stored event payload: " ++ base64Error wire.payloadBase64))
    (base64Decode wire.payloadBase64)
  let expectedCommitId := deriveCommitId streamId operationId
  rejectIf (expectedCommitId ≠ commitId ∨
      deriveEventId expectedCommitId wire.commitEventOrdinal ≠ eventId)
    (corrupt "stored event has incompatible derived identities")
  let recorded ← (RecordedEvent.newInCommit streamId wire.streamVersion eventId commitId operationId
    operationFingerprint wire.commitEventOrdinal wire.commitEventCount wire.eventType
    wire.eventSchemaVersion payload).mapError
      fun e => corrupt ("invalid recorded event: " ++ e.toString)
  return { recorded with correlationId, causationId, actor := wire.actor }

omit [Crates] in
/-- `validate_aggregate_sequence_expectation`. -/
def validateAggregateSequenceExpectation (storedSequence : Option String)
    (expectedSequence : Option Nat) : Except EventStoreError Unit := do
  let stored ← okOr (corrupt "stored commit has no aggregate sequence expectation") storedSequence
  let sequence ← okOr (corrupt "stored commit has an invalid aggregate sequence expectation")
    (parseU64 stored)
  rejectIf (expectedSequence.any (sequence ≠ ·))
    (corrupt "stored commit has an incompatible aggregate sequence expectation")

omit [Crates] in
/-- The header that ends a batch is on its last event, and on no transactional one. -/
def validateBatchCommit (schemaVersion : UInt16) (commitEventOrdinal commitEventCount : Nat)
    (commit : Option String) : Except EventStoreError Unit :=
  if transactionalEventSchema schemaVersion then
    rejectIf commit.isSome (corrupt "transactional domain event finalized before its receipt")
  else if commitEventOrdinal + 1 = commitEventCount then
    rejectIf (commit ≠ some natsBatchCommitFinal)
      (corrupt "stored commit has no atomic final event")
  else rejectIf commit.isSome (corrupt "stored commit was finalized before its last event")

omit [Crates] in
/-- Only the first event of a commit states what it expects. -/
def validateExpectations (streamName : String) (commitEventOrdinal transactionEventOrdinal : Nat)
    (expectedLastSubjectSequence : Option Nat) (expectedStream expectedSequence : Option String) :
    Except EventStoreError Unit :=
  if commitEventOrdinal = 0 then do
    rejectIf (transactionEventOrdinal = 0 ∧ expectedStream ≠ some streamName)
      (corrupt "stored commit has an incompatible expected stream")
    rejectIf (transactionEventOrdinal ≠ 0 ∧ expectedStream.isSome)
      (corrupt "stored transaction repeats its expected stream")
    validateAggregateSequenceExpectation expectedSequence expectedLastSubjectSequence
  else rejectIf (expectedStream.isSome ∨ expectedSequence.isSome)
    (corrupt "stored commit repeats its aggregate sequence expectation")

omit [Crates] in
/-- `validate_atomic_headers`: the identity of the atomic batch. -/
def validateAtomicHeaders (streamName : String) (headers : HeaderMap) (schemaVersion : UInt16)
    (commitEventOrdinal commitEventCount transactionEventOrdinal : Nat)
    (expectedLastSubjectSequence : Option Nat) : Except EventStoreError String := do
  let type ← requiredSingleHeader headers contentType
  rejectIf (type ≠ "application/json") (corrupt "stored event has the wrong content type")
  let batchId ← requiredSingleHeader headers natsBatchId
  rejectIf (batchId = "" ∨ strLen batchId > 64)
    (corrupt "stored event has an invalid atomic batch identity")
  let sequence ← requiredSingleHeader headers natsBatchSequence
  let batchSequence ← okOr (corrupt "stored event has an invalid atomic batch sequence")
    (parseU64 sequence)
  rejectIf (batchSequence ≠ transactionEventOrdinal + 1)
    (corrupt "stored event atomic batch sequence does not match its transaction ordinal")
  let expectedStream ← optionalSingleHeader headers natsExpectedStream
  let expectedSequence ← optionalSingleHeader headers natsExpectedLastSubjectSequence
  validateExpectations streamName commitEventOrdinal transactionEventOrdinal
    expectedLastSubjectSequence expectedStream expectedSequence
  let commit ← optionalSingleHeader headers natsBatchCommit
  validateBatchCommit schemaVersion commitEventOrdinal commitEventCount commit
  return batchId

/-- `decode_event_inner`. -/
def decodeEventInner (config : NatsEventStoreConfig) (subject : String)
    (expectedStreamId : Option StreamId) (expectedLastSubjectSequence : Option Nat)
    (headers : HeaderMap) (payload : Bytes) : Except EventStoreError DecodedStoredEvent := do
  rejectIf (payload.length > maxSupportedEventBytes)
    (corrupt "stored event exceeds the supported byte limit")
  let wire ← okOr
    (corrupt ("stored event is not valid wire JSON: " ++ jsonError "StoredEventWire" payload))
    ((fromSlice payload).bind StoredEventWire.ofJson?)
  checkEventSchema wire
  checkEventOrigin config wire
  let streamId ← decodeEventStream config subject expectedStreamId wire.event.stream
  rejectIf (wire.event.commitEventCount = 0 ∨ wire.event.commitEventCount > maxEventsPerBatch ∨
      wire.event.commitEventOrdinal ≥ wire.event.commitEventCount)
    (corrupt "stored event has invalid commit coordinates")
  let (transactionEventOrdinal, transactionEventCount) ← decodeTransactionCoordinates wire
  rejectIf (wire.event.streamVersion = 0) (corrupt "stored event has aggregate version zero")
  let recorded ← decodeRecorded wire.event streamId
  let batchId ← validateAtomicHeaders config.streamName headers wire.schemaVersion
    wire.event.commitEventOrdinal wire.event.commitEventCount transactionEventOrdinal
    expectedLastSubjectSequence
  return {
    decoded := {
      batchId
      commitId := recorded.commitId
      operationId := recorded.operationId
      operationFingerprint := recorded.operationFingerprint
      eventOrdinal := wire.event.commitEventOrdinal
      eventCount := wire.event.commitEventCount
      transactionEventOrdinal
      transactionEventCount
      isTransactional := transactionalEventSchema wire.schemaVersion
      recorded }
    globalStreamSequence := 0
    isTransactional := transactionalEventSchema wire.schemaVersion }

/-- `decode_event`. -/
def decodeEvent (config : NatsEventStoreConfig) (subject : String) (expectedStreamId : StreamId)
    (expectedLastSubjectSequence : Option Nat) (globalStreamSequence : Nat) (headers : HeaderMap)
    (payload : Bytes) : Except EventStoreError DecodedStoredEvent := do
  let stored ← decodeEventInner config subject (some expectedStreamId) expectedLastSubjectSequence
    headers payload
  return { stored with globalStreamSequence }

/-- `decode_consumed_event`. -/
def decodeConsumedEvent (config : NatsEventStoreConfig) (subject : String) (headers : HeaderMap)
    (payload : Bytes) : Except EventStoreError DecodedEvent := do
  let stored ← decodeEventInner config subject none none headers payload
  return stored.decoded

/-! ## What is recorded -/

section Recording

omit [Crates]

variable {streamId : StreamId} {batch : EventBatch}

/-- The constructor accepts an event of a batch. -/
theorem newInCommit_of_mem (streamId : StreamId) (batch : EventBatch) (event : NewEvent)
    {version ordinal count : Nat} (hversion : version ≠ 0) (hordinal : ordinal < count) (hcount : count ≤ maxEventsPerBatch) :
    RecordedEvent.newInCommit streamId version event.eventId batch.commitId batch.operationId
        batch.operationFingerprint ordinal count event.eventType event.schemaVersion event.payload =
      .ok { RecordedEvent.fromNew streamId version batch ordinal count event with
        actor := none, correlationId := none, causationId := none } := by
  simp only [RecordedEvent.newInCommit, bind_unit_eq_ok, rejectIf_eq_ok, pure_eq_ok]
  refine ⟨hversion, ?_, event.eventType_valid, event.schemaVersion_ne, ?_, rfl⟩
  · omega
  · have := event.payload_le
    omega

theorem recordEvents_eq_ok {count version ordinal : Nat} {events : List NewEvent}
    {recorded : List RecordedEvent} (hcount : ordinal + events.length ≤ count)
    (hle : count ≤ maxEventsPerBatch) :
    recordEvents streamId batch count version ordinal events = .ok recorded ↔
      (∀ i < events.length, version + 1 + i < 2 ^ 64) ∧
        recorded = events.mapIdx fun i event =>
          .fromNew streamId (version + 1 + i) batch (ordinal + i) count event := by
  have hmax : maxEventsPerBatch = 100 := rfl
  induction events generalizing version ordinal recorded with
  | nil => simp [recordEvents, eq_comm]
  | cons e es ih =>
    rw [List.length_cons] at hcount
    have hnew : ∀ version, version ≠ 0 → _ := fun version hversion =>
      newInCommit_of_mem streamId batch e hversion (show ordinal < count by omega) hle
    simp only [recordEvents, bind_eq_ok, rejectIf_eq_ok, okOr_eq_ok, pure_eq_ok, mapError_eq_ok,
      nextVersion_eq_some, List.mapIdx_cons, List.length_cons]
    constructor
    · rintro ⟨_, ⟨hv, rfl⟩, -, -, _, hrecorded, rest, hrest, rfl⟩
      rw [hnew _ (by omega), Except.ok.injEq] at hrecorded
      subst hrecorded
      obtain ⟨hrange, rfl⟩ := (ih (by omega)).mp hrest
      refine ⟨fun i hi => ?_, ?_⟩
      · cases i with
        | zero => exact hv
        | succ i =>
          have := hrange i (by omega)
          omega
      · congr 2
        funext i event
        congr 1 <;> omega
    · rintro ⟨hrange, rfl⟩
      have h0 := hrange 0 (by omega)
      refine ⟨_, ⟨by omega, rfl⟩, (), by omega, _, hnew _ (by omega), _,
        (ih (by omega)).mpr ⟨fun i hi => ?_, rfl⟩, ?_⟩
      · have := hrange (i + 1) (by omega)
        omega
      · congr 2
        funext i event
        congr 1 <;> omega

/-- `record_batch` fails only when the versions of the stream run out. -/
theorem recordBatch_eq_ok {base : Nat} {recorded : List RecordedEvent} :
    recordBatch streamId base batch = .ok recorded ↔
      base + batch.events.length < 2 ^ 64 ∧
        recorded = RecordedEvent.ofBatch streamId base batch := by
  have hle : batch.events.length ≤ maxEventsPerBatch := batch.events_le
  have hmax : maxEventsPerBatch = 100 := rfl
  have hpos : 0 < batch.events.length := List.length_pos_iff.mpr batch.events_ne
  simp only [recordBatch, bind_eq_ok, rejectIf_eq_ok, pure_eq_ok,
    recordEvents_eq_ok (show 0 + batch.events.length ≤ _ by omega) hle, not_le, Nat.zero_add]
  constructor
  · rintro ⟨-, -, _, ⟨hrange, rfl⟩, -, -, rfl⟩
    have := hrange (batch.events.length - 1) (by omega)
    exact ⟨by omega, rfl⟩
  · rintro ⟨hv, rfl⟩
    exact ⟨(), by omega, _, ⟨fun i hi => by omega, rfl⟩, (),
      RecordedEvent.ofBatch_ne_nil streamId base batch, rfl⟩

end Recording

end Wire

end Rostfrei.Nats
