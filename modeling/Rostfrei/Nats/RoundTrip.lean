import Rostfrei.Nats.Wire
import Rostfrei.Memory.Spec
import Rostfrei.Core.Commits

/-!
# Published events are read back

The messages of a batch, as they are published, decode to the recorded events of the batch
(`decodeEvent_published`), and a builder that stands at the base version makes of them one commit
with the batch that was published (`pushAll_published`). A batch is published alone, or with an
offset among the messages of a transaction (`Placement`).
-/

namespace Rostfrei.Nats

open Lib

section RoundTrip

variable [Crates]

/-- The messages of the events of one batch; the first one states the last sequence of the
subject. -/
def aggregateMessages (subject : String) (lastSequence : Nat) (events : List (EventId × Bytes)) :
    List AtomicPublishMessage :=
  events.mapIdx fun index (eventId, payload) =>
    { subject
      messageId := some eventId.value
      payload
      expectedLastSubjectSequence := if index = 0 then some lastSequence else none
      expectationSubject := none }

/-- Where the messages of a batch are in their atomic batch: the whole of it, or from an offset on
among the events of a transaction. -/
inductive Placement where
  | direct
  | transaction (offset eventCount : Nat)
deriving DecidableEq

namespace Placement

/-- The argument of `encode_events_inner`. -/
def coordinates : Placement → Option (Nat × Nat)
  | direct => none
  | transaction offset eventCount => some (offset, eventCount)

def offset : Placement → Nat
  | direct => 0
  | transaction offset _ => offset

/-- A batch of `n` events fits: it lies within the events of its transaction, of which there are
at most 100. -/
def Fits : Placement → Nat → Prop
  | direct, _ => True
  | transaction offset eventCount, n => offset + n ≤ eventCount ∧ eventCount ≤ maxEventsPerBatch

/-- The provenance of the commit of a batch of `n` events. -/
def provenance (batchId : String) (n : Nat) : Placement → Option StoredTransactionProvenance
  | direct => none
  | transaction offset eventCount => some ⟨batchId, ⟨offset, offset + n⟩, eventCount⟩

end Placement

omit [Crates] in
/-- What a recorded event decodes to. -/
def storedEvent (placement : Placement) (batchId : String) (sequence : Nat) (e : RecordedEvent) :
    DecodedStoredEvent where
  decoded :=
    { batchId
      commitId := e.commitId
      operationId := e.operationId
      operationFingerprint := e.operationFingerprint
      eventOrdinal := e.commitEventOrdinal
      eventCount := e.commitEventCount
      transactionEventOrdinal := placement.offset + e.commitEventOrdinal
      transactionEventCount := placement.coordinates.elim e.commitEventCount Prod.snd
      isTransactional := placement.coordinates.isSome
      recorded := e }
  globalStreamSequence := sequence
  isTransactional := placement.coordinates.isSome

/-! ## One event -/

section Event

variable {config : NatsEventStoreConfig} {streamId : StreamId} {batch : EventBatch}
  {base i : Nat} {placement : Placement} {batchId : String}

omit [Crates] in
/-- The coordinates of event `i` on the wire. -/
def Placement.at (placement : Placement) (i : Nat) : Option (Nat × Nat) :=
  placement.coordinates.map fun (offset, count) => (offset + i, count)

/-- The content of event `i` of a batch. -/
def publishedContent (config : NatsEventStoreConfig) (streamId : StreamId) (base : Nat)
    (batch : EventBatch) (placement : Placement) (i : Nat) (h : i < batch.events.length) :
    StoredEventContentWire :=
  eventContent config streamId batch batch.events.length i (placement.at i)
    (.fromNew streamId (base + 1 + i) batch i batch.events.length batch.events[i])

theorem publishedContent_sized (h : i < batch.events.length)
    (hbase : base + batch.events.length < 2 ^ 64) (hfits : placement.Fits batch.events.length) :
    (publishedContent config streamId base batch placement i h).Sized := by
  have hle : batch.events.length ≤ maxEventsPerBatch := batch.events_le
  have hmax : maxEventsPerBatch = 100 := rfl
  refine ⟨?_, ?_, ?_, ?_, ?_⟩
  · show base + 1 + i < 2 ^ 64
    omega
  · show i < 2 ^ 32
    omega
  · show batch.events.length < 2 ^ 32
    omega
  · cases placement with
    | direct => simp [publishedContent, eventContent, Placement.at, Placement.coordinates]
    | transaction offset eventCount =>
      obtain ⟨hrange, hcount⟩ := hfits
      simp only [publishedContent, eventContent, Placement.at, Placement.coordinates,
        Option.map_some, Option.mem_def, Option.some.injEq, forall_eq']
      omega
  · cases placement with
    | direct => simp [publishedContent, eventContent, Placement.at, Placement.coordinates]
    | transaction offset eventCount =>
      obtain ⟨hrange, hcount⟩ := hfits
      simp only [publishedContent, eventContent, Placement.at, Placement.coordinates,
        Option.map_some, Option.mem_def, Option.some.injEq, forall_eq']
      omega

omit [Crates] in
@[simp] theorem transactionalEventSchema_encoded (transactional attributed : Bool) :
    transactionalEventSchema (encodedSchemaVersion transactional attributed) = transactional := by
  cases transactional <;> cases attributed <;> rfl

/-- The schema that the encoder chooses allows the fields that it writes. -/
theorem checkEventSchema_published (h : i < batch.events.length) (checksum : String) :
    checkEventSchema ⟨encodedSchemaVersion placement.coordinates.isSome batch.actor.isSome, checksum,
      publishedContent config streamId base batch placement i h⟩ = .ok () := by
  have hactor : (publishedContent config streamId base batch placement i h).actor = batch.actor := rfl
  have hordinal : (publishedContent config streamId base batch placement i
      h).transactionEventOrdinal = (placement.at i).map Prod.fst := rfl
  have hcount : (publishedContent config streamId base batch placement i
      h).transactionEventCount = (placement.at i).map Prod.snd := rfl
  simp only [checkEventSchema, bind_unit_eq_ok, rejectIf_eq_ok, hactor, hordinal, hcount]
  cases placement <;> cases batch.actor <;>
    simp [Placement.coordinates, Placement.at, encodedSchemaVersion, transactionalEventSchema,
      eventSchemaVersion, legacyEventSchemaVersion, correlationEventSchemaVersion,
      transactionEventSchemaVersion, actorEventSchemaVersion, actorTransactionEventSchemaVersion]

theorem checkEventOrigin_published (h : i < batch.events.length) (schemaVersion : UInt16) :
    checkEventOrigin config ⟨schemaVersion,
      eventChecksum schemaVersion (publishedContent config streamId base batch placement i h),
      publishedContent config streamId base batch placement i h⟩ = .ok () := by
  simp only [checkEventOrigin, bind_unit_eq_ok, rejectIf_eq_ok, publishedContent, eventContent,
    ne_eq, not_true_eq_false, not_false_eq_true, or_self, and_false, and_self]

theorem decodeEventStream_published {expected : Option StreamId}
    (hexpected : ∀ s ∈ expected, s = streamId) :
    decodeEventStream config (config.aggregateSubject streamId) expected (streamIdentity streamId) =
      .ok streamId := by
  have hany : ¬ (expected.any (streamId ≠ ·) = true) := by
    cases expected with
    | none => simp
    | some s => simp [hexpected s rfl]
  simp only [decodeEventStream, streamIdentity, bind_eq_ok, mapError_eq_ok, rejectIf_eq_ok,
    pure_eq_ok]
  exact ⟨_, CheckedString.new_value _, _, CheckedString.new_value _, (), hany, (),
    not_not.mpr rfl, rfl⟩

theorem decodeTransactionCoordinates_published (h : i < batch.events.length)
    (hfits : placement.Fits batch.events.length) (checksum : String) :
    decodeTransactionCoordinates
      ⟨encodedSchemaVersion placement.coordinates.isSome batch.actor.isSome, checksum,
        publishedContent config streamId base batch placement i h⟩ =
      .ok (placement.offset + i, placement.coordinates.elim batch.events.length Prod.snd) := by
  unfold decodeTransactionCoordinates
  rw [transactionalEventSchema_encoded]
  cases placement with
  | direct =>
    simp [Placement.coordinates, Placement.offset, publishedContent, eventContent, pure, Except.pure]
  | transaction offset eventCount =>
    obtain ⟨hrange, hcount⟩ := hfits
    rw [if_pos (by rfl)]
    simp only [bind_eq_ok, okOr_eq_ok, rejectIf_eq_ok, pure_eq_ok]
    refine ⟨offset + i, rfl, eventCount, rfl, (), ?_, rfl⟩
    omega

omit [Crates] in
theorem optionalIdentity_map {ε : Type} {check : String → Except ε Unit} (message : ε → String)
    (x : Option (CheckedString check)) :
    optionalIdentity message (x.map (·.value)) = .ok x := by
  cases x with
  | none => rfl
  | some a =>
    simp only [Option.map_some, optionalIdentity, bind_eq_ok, mapError_eq_ok, pure_eq_ok]
    exact ⟨a, CheckedString.new_value a, rfl⟩

/-- The identities are read back and are the derived ones. -/
theorem decodeRecorded_published [Crates.Lawful] (h : i < batch.events.length)
    (hderived : DerivedIdentities streamId batch) :
    decodeRecorded (publishedContent config streamId base batch placement i h) streamId =
      .ok (.fromNew streamId (base + 1 + i) batch i batch.events.length batch.events[i]) := by
  simp only [decodeRecorded, bind_eq_ok, mapError_eq_ok, okOr_eq_ok, rejectIf_eq_ok, pure_eq_ok]
  refine ⟨batch.commitId, CheckedString.new_value _, batch.operationId, CheckedString.new_value _,
    batch.operationFingerprint, ContentFingerprint.fromHex_toHex _, batch.correlationId,
    optionalIdentity_map _ _, batch.causationId, optionalIdentity_map _ _,
    batch.events[i].eventId, CheckedString.new_value _, batch.events[i].payload,
    Crates.Lawful.base64Decode_encode _, (), ?_, _,
    newInCommit_of_mem streamId batch batch.events[i] (show base + 1 + i ≠ 0 by omega) h
      batch.events_le, rfl⟩
  rw [not_or, not_not, not_not, ← hderived.commit]
  exact ⟨rfl, (hderived.events i h).symm⟩

omit [Crates] in
/-- The batch identity that the store makes is the text of a digest. -/
theorem validBatchId (d : Digest) :
    ¬ (lowerHex d.toList = "" ∨ strLen (lowerHex d.toList) > 64) := by
  have hsize : (lowerHex d.toList).utf8ByteSize = 64 := by simp [utf8ByteSize_lowerHex]
  rintro (hempty | hlong)
  · rw [hempty] at hsize
    exact absurd hsize (by decide)
  · unfold strLen at hlong
    omega

omit [Crates] in
theorem validateAggregateSequenceExpectation_toString {lastSequence : Nat} {expected : Option Nat}
    (hsequence : lastSequence < 2 ^ 64) (hexpected : ∀ n ∈ expected, n = lastSequence) :
    validateAggregateSequenceExpectation (some (toString lastSequence)) expected = .ok () := by
  simp only [validateAggregateSequenceExpectation, bind_eq_ok, okOr_eq_ok, rejectIf_eq_ok]
  refine ⟨_, rfl, lastSequence, parseU64_toString hsequence, ?_⟩
  cases expected with
  | none => simp
  | some n => simp [hexpected n rfl]

omit [Crates] in
/-- The headers of a published event pass, at its place in the atomic batch. -/
theorem validateAtomicHeaders_published {correlationId : Option String} {count lastSequence : Nat}
    {atomic : AtomicPublishMessage} {expected : Option Nat} {attributed : Bool}
    (hid : ¬ (batchId = "" ∨ strLen batchId > 64))
    (hsequence : lastSequence < 2 ^ 64) (hindex : placement.offset + i + 1 < 2 ^ 64)
    (hlast : placement.coordinates.isSome = false ∧ count = batch.events.length ∨
      placement.coordinates.isSome = true ∧ placement.offset + i + 1 ≠ count)
    (hatomic : atomic.expectedLastSubjectSequence = if i = 0 then some lastSequence else none)
    (hexpected : ∀ n ∈ expected, n = lastSequence) :
    validateAtomicHeaders config.streamName
      (atomicHeaders config batchId correlationId (placement.offset + i) count atomic)
      (encodedSchemaVersion placement.coordinates.isSome attributed) i batch.events.length
      (placement.offset + i) expected = .ok batchId := by
  obtain ⟨htype, hbatch, hnumber⟩ :=
    atomicHeaders_required config batchId correlationId (placement.offset + i) count atomic
  obtain ⟨hstream, hlastSequence, -, hcommit⟩ :=
    atomicHeaders_optional config batchId correlationId (placement.offset + i) count atomic
  simp only [validateAtomicHeaders, bind_eq_ok, okOr_eq_ok, rejectIf_eq_ok, pure_eq_ok]
  refine ⟨_, htype, (), not_not.mpr rfl, _, hbatch, (), hid, _, hnumber, _,
    parseU64_toString hindex, (), not_not.mpr rfl, _, hstream, _, hlastSequence, (), ?_, _, hcommit,
    (), ?_, rfl⟩
  · unfold validateExpectations
    split
    · next hfirst =>
      rw [hatomic, if_pos hfirst, Option.map_some]
      simp only [bind_unit_eq_ok, rejectIf_eq_ok]
      refine ⟨?_, ?_, validateAggregateSequenceExpectation_toString hsequence hexpected⟩
      · rintro ⟨hzero, hne⟩
        exact hne (if_pos hzero)
      · rintro ⟨hne, hsome⟩
        rw [if_neg hne] at hsome
        cases hsome
    · next hlater =>
      rw [rejectIf_eq_ok, hatomic, if_neg hlater, if_neg (by omega)]
      simp
  · unfold validateBatchCommit
    rw [transactionalEventSchema_encoded]
    rcases hlast with ⟨hdirect, rfl⟩ | ⟨htransaction, hne⟩
    · have hoffset : placement.offset = 0 := by
        cases placement with
        | direct => rfl
        | transaction _ _ => cases hdirect
      rw [hdirect, if_neg (by decide), hoffset, Nat.zero_add]
      split
      · rw [rejectIf_eq_ok]
        exact not_not.mpr rfl
      · rw [rejectIf_eq_ok]
        simp
    · rw [htransaction, if_pos rfl, rejectIf_eq_ok, if_neg hne]
      simp

/-- A published event is read back. -/
theorem decodeEventInner_published [Crates.Lawful] {correlationId : Option String}
    {count lastSequence : Nat} {atomic : AtomicPublishMessage} {expected : Option Nat}
    {expectedStream : Option StreamId} (h : i < batch.events.length)
    (hderived : DerivedIdentities streamId batch) (hbase : base + batch.events.length < 2 ^ 64)
    (hfits : placement.Fits batch.events.length)
    (hsize : (eventPayload placement.coordinates.isSome batch.actor.isSome
      (publishedContent config streamId base batch placement i h)).length ≤ config.maxEventBytes)
    (hid : ¬ (batchId = "" ∨ strLen batchId > 64)) (hsequence : lastSequence < 2 ^ 64)
    (hlast : placement.coordinates.isSome = false ∧ count = batch.events.length ∨
      placement.coordinates.isSome = true ∧ placement.offset + i + 1 ≠ count)
    (hatomic : atomic.expectedLastSubjectSequence = if i = 0 then some lastSequence else none)
    (hstream : ∀ s ∈ expectedStream, s = streamId) (hexpected : ∀ n ∈ expected, n = lastSequence) :
    decodeEventInner config (config.aggregateSubject streamId) expectedStream expected
        (atomicHeaders config batchId correlationId (placement.offset + i) count atomic)
        (eventPayload placement.coordinates.isSome batch.actor.isSome
          (publishedContent config streamId base batch placement i h)) =
      .ok (storedEvent placement batchId 0
        (.fromNew streamId (base + 1 + i) batch i batch.events.length batch.events[i])) := by
  have hle : batch.events.length ≤ maxEventsPerBatch := batch.events_le
  have hmax : maxEventsPerBatch = 100 := rfl
  have hsized : (publishedContent config streamId base batch placement i h).Sized :=
    publishedContent_sized h hbase hfits
  have hoffset : placement.offset ≤ 100 := by
    cases placement with
    | direct => exact Nat.zero_le _
    | transaction offset eventCount =>
      obtain ⟨hrange, hcount⟩ := hfits
      show offset ≤ 100
      omega
  have hjson : ∀ w : StoredEventWire, w.event.Sized →
      (fromSlice (toVec w.toJson)).bind StoredEventWire.ofJson? = some w := fun w hw => by
    rw [Crates.Lawful.fromSlice_toVec _ (StoredEventWire.fits_toJson hw 124), Option.bind_some,
      StoredEventWire.ofJson?_toJson hw]
  simp only [decodeEventInner, bind_eq_ok, rejectIf_eq_ok, okOr_eq_ok, pure_eq_ok, Prod.exists]
  refine ⟨(), ?_, _, hjson ⟨_, _, _⟩ hsized, (), checkEventSchema_published h _, (),
    checkEventOrigin_published h _, streamId, decodeEventStream_published hstream, (), ?_, _, _,
    decodeTransactionCoordinates_published h hfits _, (), ?_, _,
    decodeRecorded_published h hderived, batchId,
    validateAtomicHeaders_published hid hsequence (by omega) hlast hatomic hexpected, ?_⟩
  · have := config.maxEventBytes_le
    omega
  · show ¬ (batch.events.length = 0 ∨ batch.events.length > maxEventsPerBatch ∨
      i ≥ batch.events.length)
    omega
  · show ¬ (base + 1 + i = 0)
    omega
  · rw [transactionalEventSchema_encoded]
    rfl

end Event

/-! ## The messages of a batch -/

section Batch

variable {config : NatsEventStoreConfig} {streamId : StreamId} {batch : EventBatch}
  {base : Nat} {placement : Placement}

/-- The payload of event `i` of a batch. -/
def publishedPayload (config : NatsEventStoreConfig) (streamId : StreamId) (base : Nat)
    (batch : EventBatch) (placement : Placement) (i : Fin batch.events.length) : Bytes :=
  eventPayload placement.coordinates.isSome batch.actor.isSome
    (publishedContent config streamId base batch placement i i.isLt)

omit [Crates] in
theorem transactionCoordinates_at {i : Nat} (h : i < batch.events.length)
    (hfits : placement.Fits batch.events.length) :
    transactionCoordinates i placement.coordinates = .ok (placement.at i) := by
  have hmax : maxEventsPerBatch = 100 := rfl
  cases placement with
  | direct => rfl
  | transaction offset eventCount =>
    obtain ⟨hrange, hcount⟩ := hfits
    simp only [Placement.coordinates, transactionCoordinates, checkedAddU32, bind_eq_ok, okOr_eq_ok,
      pure_eq_ok]
    exact ⟨offset + i, if_pos (by omega), rfl⟩

/-- The encoder succeeds on the recorded events of a batch. -/
theorem encodeEventsInner_ofBatch (hfits : placement.Fits batch.events.length) :
    encodeEventsInner config streamId batch (RecordedEvent.ofBatch streamId base batch)
        placement.coordinates =
      .ok (List.ofFn (publishedPayload config streamId base batch placement)) := by
  have hle : batch.events.length ≤ maxEventsPerBatch := batch.events_le
  have hmax : maxEventsPerBatch = 100 := rfl
  simp only [encodeEventsInner, bind_eq_ok, rejectIf_eq_ok, RecordedEvent.length_ofBatch, mapM_eq_ok]
  refine ⟨(), not_not.mpr rfl, (), by omega, List.forall₂_iff_get.mpr ⟨by simp, fun i hi hi' => ?_⟩⟩
  have hlt : i < batch.events.length := by simpa using hi'
  simp only [List.get_eq_getElem, List.getElem_zipIdx, List.getElem_ofFn, RecordedEvent.ofBatch,
    List.getElem_mapIdx, Nat.zero_add]
  exact ⟨(), by omega, placement.at i, transactionCoordinates_at hlt hfits, rfl⟩

end Batch

/-! ## The commit of a batch -/

section Commit

omit [Crates]

variable (streamId : StreamId) (base : Nat) (batch : EventBatch) (placement : Placement)
  (batchId : String) (first : Nat)

/-- The commit that is pending after `k` events of a batch. -/
def publishedPending (k : Nat) : PendingCommit where
  batchId := batchId
  commitId := batch.commitId
  operationId := batch.operationId
  operationFingerprint := batch.operationFingerprint
  eventCount := batch.events.length
  events := (RecordedEvent.ofBatch streamId base batch).take k
  globalStreamSequences := List.range' first k
  transaction := placement.provenance batchId batch.events.length

/-- The commit of a batch whose first event has the sequence `first`. -/
def publishedCommit : StoredCommit where
  batch := batch
  events := RecordedEvent.ofBatch streamId base batch
  globalStreamSequences := List.range' first batch.events.length
  transaction := placement.provenance batchId batch.events.length

/-- The decoded events of a batch. -/
def publishedEvents : List DecodedStoredEvent :=
  (RecordedEvent.ofBatch streamId base batch).mapIdx fun i e =>
    storedEvent placement batchId (first + i) e

/-- The identities of a batch are new to a builder between commits at the base version. -/
structure HistoryBuilder.Awaits (b : HistoryBuilder) (base : Nat) (batch : EventBatch) : Prop where
  pending : b.pending = none
  version : b.currentVersion = base
  operation : batch.operationId ∉ b.operationIds
  commit : batch.commitId ∉ b.commitIds
  events : ∀ e ∈ batch.events, e.eventId ∉ b.eventIds

/-- The builder after `k` events of a batch. -/
def HistoryBuilder.inside (b : HistoryBuilder) (k : Nat) : HistoryBuilder where
  history := b.history
  currentVersion := base + k
  operationIds := insert batch.operationId b.operationIds
  commitIds := insert batch.commitId b.commitIds
  eventIds := b.eventIds ∪ ((batch.events.take k).map (·.eventId)).toFinset
  pending := some (publishedPending streamId base batch placement batchId first k)

/-- The builder after a batch. -/
def HistoryBuilder.after (b : HistoryBuilder) : HistoryBuilder where
  history := extend b.history (publishedCommit streamId base batch placement batchId first)
  currentVersion := base + batch.events.length
  operationIds := insert batch.operationId b.operationIds
  commitIds := insert batch.commitId b.commitIds
  eventIds := b.eventIds ∪ (batch.events.map (·.eventId)).toFinset
  pending := none

variable {streamId base batch placement batchId first}

/-- Event `i` of a batch. -/
theorem getElem?_ofBatch {i : Nat} (h : i < batch.events.length) :
    (RecordedEvent.ofBatch streamId base batch)[i]? =
      some (.fromNew streamId (base + 1 + i) batch i batch.events.length batch.events[i]) := by
  simp [RecordedEvent.ofBatch, List.getElem?_eq_getElem h]

theorem take_succ_ofBatch (streamId : StreamId) (base : Nat) {k : Nat} (h : k < batch.events.length) :
    (RecordedEvent.ofBatch streamId base batch).take (k + 1) =
      (RecordedEvent.ofBatch streamId base batch).take k ++
        [.fromNew streamId (base + 1 + k) batch k batch.events.length batch.events[k]] := by
  rw [List.take_add_one, getElem?_ofBatch h]
  rfl

/-- The first event opens the commit. -/
theorem new_published (hfits : placement.Fits batch.events.length) (h : 0 < batch.events.length) :
    PendingCommit.new (storedEvent placement batchId first
        (.fromNew streamId (base + 1) batch 0 batch.events.length batch.events[0])).decoded first
        placement.coordinates.isSome =
      .ok (publishedPending streamId base batch placement batchId first 1) := by
  have hmax : maxEventsPerBatch = 100 := rfl
  have htake := take_succ_ofBatch streamId base h
  rw [List.take_zero, List.nil_append] at htake
  rw [PendingCommit.new_eq_ok]
  refine ⟨placement.provenance batchId batch.events.length, ?_, ?_⟩
  · cases placement with
    | direct => rfl
    | transaction offset eventCount =>
      obtain ⟨hrange, hcount⟩ := hfits
      simp only [PendingCommit.provenance, Placement.coordinates, Option.isSome_some, bind_eq_ok,
        okOr_eq_ok, rejectIf_eq_ok, pure_eq_ok, checkedAdd_eq_some]
      refine ⟨offset + batch.events.length, ⟨?_, rfl⟩, (), ?_, rfl⟩
      · show offset + 0 + batch.events.length < 2 ^ 64
        omega
      · show ¬ (offset + batch.events.length > eventCount)
        omega
  · simp only [publishedPending, htake]
    rfl

/-- The next event continues the commit. -/
theorem push_published {k : Nat} (hfits : placement.Fits batch.events.length) (hk : 0 < k)
    (h : k < batch.events.length) :
    (publishedPending streamId base batch placement batchId first k).push
        (storedEvent placement batchId (first + k) (.fromNew streamId (base + 1 + k) batch k
          batch.events.length batch.events[k])).decoded (first + k)
        placement.coordinates.isSome =
      .ok (publishedPending streamId base batch placement batchId first (k + 1)) := by
  have hmax : maxEventsPerBatch = 100 := rfl
  have hpos : 0 < batch.events.length := by omega
  rw [PendingCommit.push_eq_ok]
  refine ⟨.fromNew streamId (base + 1) batch 0 batch.events.length batch.events[0], ?_, ?_, ?_⟩
  · rw [publishedPending, List.head?_take, if_neg hk.ne', List.head?_eq_getElem?,
      getElem?_ofBatch hpos]
  · refine ⟨?_, rfl, rfl, rfl, rfl, rfl, rfl, rfl, rfl, ?_⟩
    · simp [publishedPending, storedEvent, RecordedEvent.fromNew, Nat.min_eq_left h.le]
    · cases placement with
      | direct => rfl
      | transaction offset eventCount =>
        obtain ⟨hrange, hcount⟩ := hfits
        have hadd : checkedAdd offset k = some (offset + k) :=
          checkedAdd_eq_some.mpr ⟨by omega, rfl⟩
        simp [publishedPending, Placement.provenance, PendingCommit.transactionMatches, storedEvent,
          Placement.coordinates, Placement.offset, RecordedEvent.fromNew, hadd]
  · simp only [publishedPending, take_succ_ofBatch streamId base h, List.range'_concat, Nat.one_mul]
    rfl

/-- The complete commit has the batch that was published. -/
theorem finish_published (hoffset : placement.offset < first)
    (hlast : first + batch.events.length ≤ 2 ^ 64) :
    (publishedPending streamId base batch placement batchId first batch.events.length).finish =
      .ok (publishedCommit streamId base batch placement batchId first) := by
  have hpos : 0 < batch.events.length := List.length_pos_iff.mpr batch.events_ne
  have hevents : (publishedPending streamId base batch placement batchId first
      batch.events.length).events = RecordedEvent.ofBatch streamId base batch := by
    simp [publishedPending, List.take_of_length_le]
  have hhead : (List.range' first batch.events.length).head? = some first := by
    rw [List.head?_range', if_neg hpos.ne']
  have hconsecutive : PendingCommit.consecutive (List.range' first batch.events.length) first := by
    rw [PendingCommit.consecutive, List.all_eq_true]
    rintro ⟨sequence, index⟩ hmem
    obtain ⟨hindex, hsequence⟩ := List.mem_zipIdx' hmem
    rw [List.length_range'] at hindex
    rw [beq_iff_eq, checkedAdd_eq_some, hsequence, List.getElem_range']
    exact ⟨by omega, by omega⟩
  unfold PendingCommit.finish
  simp only [bind_eq_ok, okOr_eq_ok, mapM_eq_ok, mapError_eq_ok, rejectIf_eq_ok]
  rw [hevents]
  refine ⟨.fromNew streamId (base + 1) batch 0 batch.events.length batch.events[0], ?_,
    batch.events, ?_, _, EventBatch.new_self batch, first, hhead, (), not_not.mpr hconsecutive, ?_⟩
  · rw [List.head?_eq_getElem?, getElem?_ofBatch hpos]
  · refine List.forall₂_iff_get.mpr ⟨by simp, fun i hi hi' => ?_⟩
    simp only [List.get_eq_getElem, RecordedEvent.ofBatch, List.getElem_mapIdx,
      RecordedEvent.fromNew, NewEvent.new_self]
  · cases placement with
    | direct => rfl
    | transaction offset eventCount =>
      simp only [publishedPending, Placement.provenance, bind_eq_ok, transactionBatchStartSequence,
        okOr_eq_ok, rejectIf_eq_ok, pure_eq_ok]
      refine ⟨first - offset, ⟨first, hhead, first - offset, ?_, (), ?_, rfl⟩, rfl⟩
      · exact if_pos hoffset.le
      · have : offset < first := hoffset
        omega

/-- The builder after `k` events: before the batch, inside of it, or after it. -/
def HistoryBuilder.through (b : HistoryBuilder) (streamId : StreamId) (base : Nat)
    (batch : EventBatch) (placement : Placement) (batchId : String) (first k : Nat) :
    HistoryBuilder :=
  if k = 0 then b
  else if k = batch.events.length then b.after streamId base batch placement batchId first
  else b.inside streamId base batch placement batchId first k

/-- The step: the next event of the batch. -/
theorem push_through {b : HistoryBuilder} {k : Nat} (hawaits : b.Awaits base batch)
    (hfits : placement.Fits batch.events.length) (hbase : base + batch.events.length < 2 ^ 64)
    (hoffset : placement.offset < first) (hlast : first + batch.events.length ≤ 2 ^ 64)
    (h : k < batch.events.length) :
    (b.through streamId base batch placement batchId first k).push
        (storedEvent placement batchId (first + k) (.fromNew streamId (base + 1 + k) batch k
          batch.events.length batch.events[k])) =
      .ok (b.through streamId base batch placement batchId first (k + 1)) := by
  have hids : ((batch.events.take (k + 1)).map (·.eventId)).toFinset =
      insert batch.events[k].eventId ((batch.events.take k).map (·.eventId)).toFinset := by
    rw [List.take_succ_eq_append_getElem h]
    ext x
    simp only [List.map_append, List.map_cons, List.map_nil, List.mem_toFinset, List.mem_append,
      List.mem_singleton, Finset.mem_insert, or_comm]
  have hnew : batch.events[k].eventId ∉ ((batch.events.take k).map (·.eventId)).toFinset := by
    have hnodup := batch.ids_nodup
    rw [← List.take_append_drop k batch.events, List.map_append, List.nodup_append] at hnodup
    rw [List.mem_toFinset]
    intro hmem
    refine hnodup.2.2 _ hmem _ (List.mem_map_of_mem ?_) rfl
    rw [List.drop_eq_getElem_cons h]
    exact List.mem_cons_self
  have hknown := hawaits.events _ (List.getElem_mem h)
  have hcomplete : (publishedPending streamId base batch placement batchId first
      (k + 1)).isComplete = decide (k + 1 = batch.events.length) := by
    simp only [publishedPending, PendingCommit.isComplete, List.length_take,
      RecordedEvent.length_ofBatch, Nat.min_eq_left (Nat.succ_le_of_lt h)]
  -- Both the first event and a later one leave the commit of the first `k + 1` events pending.
  have hstep : ∀ b' : HistoryBuilder, b'.history = b.history → b'.currentVersion = base + k →
      (b'.eventIds = b.eventIds ∪ ((batch.events.take k).map (·.eventId)).toFinset) →
      b'.place (storedEvent placement batchId (first + k) (.fromNew streamId (base + 1 + k) batch k
        batch.events.length batch.events[k])) =
        .ok (publishedPending streamId base batch placement batchId first (k + 1)) →
      (if k = 0 then insert batch.operationId b'.operationIds else b'.operationIds) =
        insert batch.operationId b.operationIds →
      (if k = 0 then insert batch.commitId b'.commitIds else b'.commitIds) =
        insert batch.commitId b.commitIds →
      b'.push (storedEvent placement batchId (first + k) (.fromNew streamId (base + 1 + k) batch k
        batch.events.length batch.events[k])) =
        .ok (b.through streamId base batch placement batchId first (k + 1)) := by
    intro b' hhistory hversion heventIds hplace hoperations hcommits
    have hpend : b'.pend (storedEvent placement batchId (first + k) (.fromNew streamId (base + 1 + k)
        batch k batch.events.length batch.events[k])).decoded (b'.currentVersion + 1)
        (publishedPending streamId base batch placement batchId first (k + 1)) =
        b.inside streamId base batch placement batchId first (k + 1) := by
      simp only [HistoryBuilder.pend, HistoryBuilder.inside, storedEvent, RecordedEvent.fromNew,
        hhistory, hversion, heventIds, hoperations, hcommits, hids, Nat.add_assoc,
        Finset.union_insert]
    rw [HistoryBuilder.push_eq_ok]
    refine ⟨⟨?_, ?_, ?_, ?_⟩, _, hplace, ?_⟩
    · show first + k ≠ 0
      omega
    · omega
    · show base + 1 + k = b'.currentVersion + 1
      omega
    · rw [heventIds]
      show batch.events[k].eventId ∉ _
      rw [Finset.mem_union, not_or]
      exact ⟨hknown, hnew⟩
    · rw [hpend, hcomplete]
      unfold HistoryBuilder.through
      rw [if_neg (Nat.succ_ne_zero k)]
      by_cases hend : k + 1 = batch.events.length
      · refine .inl ⟨by simpa using hend, publishedCommit streamId base batch placement batchId first,
          ?_, ?_⟩
        · rw [hend]
          exact finish_published hoffset hlast
        · rw [if_pos hend, hend]
          simp [HistoryBuilder.after, HistoryBuilder.settle, HistoryBuilder.inside]
      · exact .inr ⟨by simpa using hend, by rw [if_neg hend]⟩
  unfold HistoryBuilder.through
  by_cases hzero : k = 0
  · subst hzero
    rw [if_pos rfl]
    refine hstep b rfl (by simpa using hawaits.version) (by simp) ?_ (if_pos rfl) (if_pos rfl)
    rw [HistoryBuilder.place_eq_ok]
    exact .inl ⟨rfl, hawaits.pending, hawaits.operation, hawaits.commit, new_published hfits h⟩
  · rw [if_neg hzero, if_neg h.ne]
    refine hstep _ rfl rfl rfl ?_ (if_neg hzero) (if_neg hzero)
    rw [HistoryBuilder.place_eq_ok]
    exact .inr ⟨hzero, _, rfl, push_published hfits (Nat.pos_of_ne_zero hzero) h⟩

/-- The run: all events of the batch. -/
theorem pushAll_published {b : HistoryBuilder} (hawaits : b.Awaits base batch)
    (hfits : placement.Fits batch.events.length) (hbase : base + batch.events.length < 2 ^ 64)
    (hoffset : placement.offset < first) (hlast : first + batch.events.length ≤ 2 ^ 64) :
    b.pushAll (publishedEvents streamId base batch placement batchId first) =
      .ok (b.after streamId base batch placement batchId first) := by
  have hlength : (publishedEvents streamId base batch placement batchId first).length =
      batch.events.length := by simp [publishedEvents]
  suffices hinitial : ∀ k ≤ batch.events.length,
      b.pushAll ((publishedEvents streamId base batch placement batchId first).take k) =
        .ok (b.through streamId base batch placement batchId first k) by
    have hall := hinitial _ le_rfl
    rw [← hlength, List.take_length, hlength] at hall
    have hne : batch.events.length ≠ 0 := (List.length_pos_iff.mpr batch.events_ne).ne'
    rwa [HistoryBuilder.through, if_neg hne, if_pos rfl] at hall
  intro k
  induction k with
  | zero => intro _; rfl
  | succ k ih =>
    intro hk
    have hevent : (publishedEvents streamId base batch placement batchId first)[k]? =
        some (storedEvent placement batchId (first + k) (.fromNew streamId (base + 1 + k) batch k
          batch.events.length batch.events[k])) := by
      rw [publishedEvents, List.getElem?_mapIdx, getElem?_ofBatch (by omega), Option.map_some]
    rw [List.take_add_one, hevent, Option.toList_some, HistoryBuilder.pushAll_append,
      ih (by omega), ok_bind, HistoryBuilder.pushAll_cons,
      push_through hawaits hfits hbase hoffset hlast (by omega)]
    rfl

end Commit

/-! ## A published batch -/

/-- The messages before and after those of a batch in its atomic batch; a receipt comes after the
events of a transaction. -/
def Placement.Surrounded : Placement → List AtomicPublishMessage → List AtomicPublishMessage → Prop
  | direct, before, after => before = [] ∧ after = []
  | transaction offset _, before, after => before.length = offset ∧ after ≠ []

omit [Crates] in
theorem Placement.Surrounded.length {placement : Placement}
    {before after : List AtomicPublishMessage} (h : placement.Surrounded before after) :
    before.length = placement.offset := by
  cases placement with
  | direct =>
    obtain ⟨rfl, -⟩ := h
    rfl
  | transaction offset eventCount => exact h.1

omit [Crates] in
/-- Message `i` of a batch among the messages of its atomic batch. -/
theorem getElem?_atomicMessages {config : NatsEventStoreConfig} {batchId : String}
    {correlationId : Option String} {before messages after : List AtomicPublishMessage} {i : Nat}
    {atomic : AtomicPublishMessage} (h : messages[i]? = some atomic) :
    (atomicMessages config batchId correlationId (before ++ messages ++ after))[before.length + i]? =
      some
        { subject := atomic.subject
          headers := atomicHeaders config batchId correlationId (before.length + i)
            (before ++ messages ++ after).length atomic
          payload := atomic.payload } := by
  have hlt := (List.getElem?_eq_some_iff.mp h).1
  rw [atomicMessages, List.getElem?_mapIdx, List.getElem?_append_left (by simpa using hlt),
    List.getElem?_append_right (by omega), Nat.add_sub_cancel_left, h, Option.map_some]

/-- The payloads of a batch, published in their atomic batch with a fresh identity, are read back
as the recorded events, and a builder at the base version makes of them one commit with the batch.
The store publishes no payload above the configured size, and sequences are `u64`. -/
theorem published_batch_read_back [Crates.Lawful] {config : NatsEventStoreConfig}
    {streamId : StreamId} {base : Nat} {batch : EventBatch} {placement : Placement}
    {recorded : List RecordedEvent} {before after : List AtomicPublishMessage} {digest : Digest}
    {correlationId : Option String} {lastSequence start : Nat}
    (hderived : DerivedIdentities streamId batch)
    (hrecorded : recordBatch streamId base batch = .ok recorded)
    (hfits : placement.Fits batch.events.length) (hplace : placement.Surrounded before after)
    (hlast : lastSequence < 2 ^ 64) (hstart : 0 < start)
    (hend : start + before.length + batch.events.length ≤ 2 ^ 64) :
    ∃ payloads, encodeEventsInner config streamId batch recorded placement.coordinates =
        .ok payloads ∧
      ((∀ payload ∈ payloads, payload.length ≤ config.maxEventBytes) →
        let batchId := lowerHex digest.toList
        let messages := atomicMessages config batchId correlationId
          (before ++ aggregateMessages (config.aggregateSubject streamId) lastSequence
            ((recorded.map (·.eventId)).zip payloads) ++ after)
        (∀ i (_ : i < recorded.length), ∃ m, messages[before.length + i]? = some m ∧
          ∀ expectedStream expected, (∀ s ∈ expectedStream, s = streamId) →
            (∀ n ∈ expected, n = lastSequence) →
            decodeEventInner config m.subject expectedStream expected m.headers m.payload =
              .ok (storedEvent placement batchId 0 recorded[i])) ∧
        ∀ b : HistoryBuilder, b.Awaits base batch → ∃ b' commit,
          b.pushAll (recorded.mapIdx fun i e =>
            storedEvent placement batchId (start + before.length + i) e) = .ok b' ∧
          b'.history = HistoryBuilder.extend b.history commit ∧ b'.pending = none ∧
          commit.batch = batch ∧ commit.events = recorded) := by
  obtain ⟨hbase, rfl⟩ := recordBatch_eq_ok.mp hrecorded
  refine ⟨_, encodeEventsInner_ofBatch hfits, fun hsize => ⟨fun i hi => ?_, fun b hawaits => ?_⟩⟩
  · rw [RecordedEvent.length_ofBatch] at hi
    have hatomic : (aggregateMessages (config.aggregateSubject streamId) lastSequence
        (((RecordedEvent.ofBatch streamId base batch).map (·.eventId)).zip
          (List.ofFn (publishedPayload config streamId base batch placement))))[i]? =
        some
          { subject := config.aggregateSubject streamId
            messageId := some batch.events[i].eventId.value
            payload := publishedPayload config streamId base batch placement ⟨i, hi⟩
            expectedLastSubjectSequence := if i = 0 then some lastSequence else none
            expectationSubject := none } := by
      simp only [aggregateMessages, List.getElem?_mapIdx, List.getElem?_zip_eq_some,
        Option.map_eq_some_iff]
      refine ⟨(batch.events[i].eventId, _), ⟨?_, List.getElem?_ofFn.trans (dif_pos hi)⟩, rfl⟩
      rw [List.getElem?_map, getElem?_ofBatch hi]
      rfl
    refine ⟨_, getElem?_atomicMessages hatomic, fun expectedStream expected hstream hexpected => ?_⟩
    rw [hplace.length]
    have hget : (RecordedEvent.ofBatch streamId base batch)[i] =
        .fromNew streamId (base + 1 + i) batch i batch.events.length batch.events[i] := by
      simp [RecordedEvent.ofBatch]
    rw [hget]
    refine decodeEventInner_published hi hderived hbase hfits ?_ (validBatchId digest) hlast ?_ rfl
      hstream hexpected
    · exact hsize _ (List.mem_ofFn.mpr ⟨⟨i, hi⟩, rfl⟩)
    · cases placement with
      | direct =>
        obtain ⟨rfl, rfl⟩ := hplace
        exact .inl ⟨rfl, by simp [aggregateMessages]⟩
      | transaction offset eventCount =>
        obtain ⟨hoffset, hafter⟩ := hplace
        have hpos := List.length_pos_iff.mpr hafter
        refine .inr ⟨rfl, ?_⟩
        simp only [List.length_append, hoffset, aggregateMessages, List.length_mapIdx,
          List.length_zip, List.length_map, RecordedEvent.length_ofBatch, List.length_ofFn,
          Nat.min_self, Placement.offset]
        omega
  · refine ⟨_, _, pushAll_published hawaits hfits hbase ?_ hend, rfl, rfl, rfl, rfl⟩
    rw [← hplace.length]
    omega

end RoundTrip

namespace Sample

attribute [local instance] Crates.concrete

open Rostfrei.Sample (stream batch event fingerprint batch_derived)

def config : NatsEventStoreConfig where
  completedOutcomeEpoch := none
  splitOutcomes := false
  explicitDetailExpiry := false
  readOnlyOutcomes := false
  legacySecurityScope := none
  outcomeStateStreamName := ""
  application := ⟨"bank", by decide +kernel⟩
  trafficScope := .normal
  boundedContext := Rostfrei.Sample.context
  streamName := "BANK__BILLING_DOMAIN_EVENTS"
  subjectPrefix := "bank.domain.billing"
  maxEventBytes := 512 * 1024
  streamName_valid := by decide +kernel
  maxEventBytes_pos := by decide
  maxEventBytes_le := by decide

/-- The batch of one event, published as the first message of a journal. -/
theorem published_batch_read_back_opened :
    recordBatch stream 0 batch = .ok [event] ∧
      ∃ payload b' commit, encodeEventsInner config stream batch [event] none = .ok [payload] ∧
        payload.length ≤ config.maxEventBytes ∧
        HistoryBuilder.pushAll {} [storedEvent .direct (lowerHex fingerprint.toList) 1 event] =
          .ok b' ∧
        b'.history = HistoryBuilder.extend {} commit ∧ commit.batch = batch ∧
        commit.events = [event] := by
  have := Crates.concrete_lawful
  have hrecorded : recordBatch stream 0 batch = .ok [event] :=
    recordBatch_eq_ok.mpr ⟨by decide, rfl⟩
  have hsize : (encodeEventsInner config stream batch [event] none).toOption.any
      (fun payloads => payloads.length = 1 ∧ payloads.all (·.length ≤ config.maxEventBytes)) := by
    decide +kernel
  obtain ⟨payloads, hencoded, hread⟩ :=
    @published_batch_read_back _ _ config stream 0 batch .direct [event] [] [] fingerprint none 0 1
      batch_derived hrecorded trivial ⟨rfl, rfl⟩ (by decide) (by decide) (by decide)
  rw [show Placement.direct.coordinates = none from rfl] at hencoded
  rw [hencoded] at hsize
  simp only [Except.toOption, Option.any_some, decide_eq_true_eq, List.all_eq_true] at hsize
  obtain ⟨payload, rfl⟩ := List.length_eq_one_iff.mp hsize.1
  obtain ⟨-, hbuild⟩ := hread hsize.2
  obtain ⟨b', commit, hpush, hhistory, -, hbatch, hevents⟩ :=
    hbuild {} ⟨rfl, rfl, by simp, by simp, by simp⟩
  exact ⟨hrecorded, payload, b', commit, hencoded, hsize.2 payload (by simp), hpush, hhistory,
    hbatch, hevents⟩

end Sample

end Rostfrei.Nats
