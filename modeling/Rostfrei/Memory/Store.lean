import Rostfrei.Core.History
import Rostfrei.Core.Recovery

/-!
# The in-memory event store

`InMemoryEventStore` of `memory.rs`: six maps behind one lock. A call is a run of `EStateM` over
that state, so a failed call keeps whatever it had already written. Every call holds the lock from
its first read to its last write, so interleaved clients are a sequence of calls.

* `append`: one batch to one stream.
* `appendTransactionInner`: all participants of a transaction, or none; under `appendTransaction`
  and, for completed decisions, `sessionCommitOutcome`.
* `expireDetails`: withdraws the details of one outcome.
-/

namespace Rostfrei

open Lib

namespace Memory

inductive AppendProvenance where
  | direct
  | transaction
deriving DecidableEq, Repr

structure StoredAppend where
  batch : EventBatch
  events : List RecordedEvent
  provenance : AppendProvenance
deriving DecidableEq

inductive StoredTransaction where
  | scoped (marker : OutcomeMarker)
  | unscoped (proposal : ProposalDigest) (receipt : TransactionReceipt)
deriving DecidableEq

namespace StoredTransaction

/-- `StoredTransaction::proposal`. -/
def proposal : StoredTransaction → ProposalDigest
  | .scoped marker => marker.proposal
  | .unscoped proposal _ => proposal

/-- `StoredTransaction::acceptance`. -/
def acceptance : StoredTransaction → Except EventStoreError TransactionReceipt
  | .scoped marker =>
    if marker.decision = .rejected then
      .error (identityConflict "operation has a completed rejection, not acceptance")
    else .ok marker.integrity
  | .unscoped _ receipt => .ok receipt

end StoredTransaction

inductive DetailState where
  | active (bytes : Bytes)
  | expired
deriving DecidableEq

structure State where
  streams : Map StreamId (List RecordedEvent)
  operations : Map (StreamId × OperationId) StoredAppend
  commits : Map (StreamId × CommitId) OperationId
  eventIds : Finset (StreamId × EventId)
  transactions : Map (Option BoundedContextName × OperationId) StoredTransaction
  details : Map OutcomeDetailReference DetailState
  eventCount : Nat

namespace State

/-- `State::default`. -/
def empty : State := ⟨∅, ∅, ∅, ∅, ∅, ∅, 0⟩

/-- The stored events of a stream; none for an unknown one. -/
def stream (st : State) (streamId : StreamId) : List RecordedEvent :=
  (st.streams.lookup streamId).getD []

/-- `current_version`. -/
def currentVersion (st : State) (streamId : StreamId) : Nat :=
  (st.stream streamId).getLast?.elim 0 (·.streamVersion)

/-- The writes of one recorded batch, in the order of the source. -/
def recordAppend (st : State) (streamId : StreamId) (batch : EventBatch)
    (events : List RecordedEvent) (provenance : AppendProvenance) : State where
  commits := st.commits.insert (streamId, batch.commitId) batch.operationId
  eventIds := st.eventIds ∪ (batch.events.map fun e => (streamId, e.eventId)).toFinset
  operations := st.operations.insert (streamId, batch.operationId) ⟨batch, events, provenance⟩
  streams := st.streams.insert streamId (st.stream streamId ++ events)
  transactions := st.transactions
  details := st.details
  eventCount := st.eventCount

end State

/-- A detail reader; the store's own one reads its state. -/
abbrev DetailReader := State → OutcomeDetailReference → Except DetailReadError DetailRead

/-- `MemoryDetails::get`. -/
def memoryDetails : DetailReader := fun st reference =>
  match st.details.lookup reference with
  | some (.active bytes) => .ok (.found bytes)
  | some .expired => .ok .absentHere
  | none => .ok .absentHere

end Memory

open Memory

structure InMemoryEventStore where
  authority : CommandAuthority
  hot : DetailReader
  cold : Option DetailReader
  maximumEvents : Nat
  maximumOutcomes : Nat

namespace Memory

/-- A call on the state, under the lock. -/
abbrev StoreM := EStateM EventStoreError State

def capacityExhausted (message : String) : EventStoreError := .new .capacityExhausted message

section Checks

variable [Crates]

/-- Every event identity is derived from the commit and the ordinal. -/
def checkEventIds (commitId : CommitId) : Nat → List NewEvent → Except EventStoreError Unit
  | _, [] => .ok ()
  | ordinal, event :: rest => do
    rejectIf (ordinal ≥ 2 ^ 32) (invalid "event ordinal exceeds the supported range")
    rejectIf (event.eventId ≠ deriveEventId commitId ordinal)
      (invalid "event identity was not derived from its commit identity and ordinal")
    checkEventIds commitId (ordinal + 1) rest

/-- `validate_derived_identities`. -/
def validateDerivedIdentities (streamId : StreamId) (batch : EventBatch) :
    Except EventStoreError Unit := do
  rejectIf (batch.commitId ≠ deriveCommitId streamId batch.operationId)
    (invalid "commit identity was not derived from the stream and operation identity")
  checkEventIds batch.commitId 0 batch.events

omit [Crates] in
/-- `validate_expected_version`. -/
def validateExpectedVersion (expected : ExpectedVersion) (current : Nat) :
    Except EventStoreError Unit :=
  let conflict : Except EventStoreError Unit := .error (.new .conflict
    ("expected version does not match current version StreamVersion(" ++ toString current ++ ")"))
  match expected with
  | .noStream => if current = 0 then .ok () else conflict
  | .exact version =>
    if version = 0 then
      .error (invalid
        "Exact requires a non-zero stream version; use NoStream for an absent stream")
    else if version = current then .ok ()
    else conflict

omit [Crates] in
/-- The loop of `record_batch`, from a version and an ordinal on. -/
def recordEvents (streamId : StreamId) (batch : EventBatch) (eventCount : Nat) :
    Nat → Nat → List NewEvent → Except EventStoreError (List RecordedEvent)
  | _, _, [] => .ok []
  | version, ordinal, event :: rest => do
    let version ← okOr (capacityExhausted "stream version space is exhausted") (nextVersion version)
    rejectIf (ordinal ≥ 2 ^ 32) (invalid "event ordinal exceeds the supported range")
    let recorded ← recordEvents streamId batch eventCount version (ordinal + 1) rest
    return .fromNew streamId version batch ordinal eventCount event :: recorded

omit [Crates] in
/-- `record_batch`. -/
def recordBatch (streamId : StreamId) (current : Nat) (batch : EventBatch) :
    Except EventStoreError (List RecordedEvent) := do
  rejectIf (batch.events.length ≥ 2 ^ 32) (invalid "event count exceeds the supported range")
  recordEvents streamId batch batch.events.length current 0 batch.events

/-- The batch of a written participant: its metadata, its identities and their freshness. -/
def checkBatch (st : State) (t : EventTransaction) (streamId : StreamId) (batch : EventBatch) :
    Except EventStoreError Unit := do
  rejectIf
    (batch.operationId ≠ t.operationId ∨ batch.operationFingerprint ≠ t.operationFingerprint ∨
      batch.correlationId ≠ t.correlationId ∨ batch.causationId ≠ t.causationId ∨
      batch.actor ≠ t.actor)
    (invalid "participant commit metadata does not match its transaction")
  validateDerivedIdentities streamId batch
  match st.operations.lookup (streamId, batch.operationId) with
  | some previous =>
    .error (identityConflict
      (match previous.provenance with
        | .direct => "operation identity was already used outside an event transaction"
        | .transaction => "operation identity was already used by another event transaction"))
  | none =>
    rejectIf ((streamId, batch.commitId) ∈ st.commits)
      (identityConflict "commit identity was reused with different content")
    rejectIf (batch.events.any fun e => (streamId, e.eventId) ∈ st.eventIds)
      (identityConflict "event identity was reused with different content")

/-- The first loop of `validate_transaction`; `seen` are the streams before. -/
def checkParticipants (st : State) (t : EventTransaction) :
    List StreamId → List TransactionParticipant → Except EventStoreError Unit
  | _, [] => .ok ()
  | seen, p :: rest => do
    rejectIf (p.streamId ∈ seen)
      (invalid "an event transaction must not contain duplicate streams")
    match p.batch with
    | none => checkParticipants st t (p.streamId :: seen) rest
    | some batch =>
      checkBatch st t p.streamId batch
      checkParticipants st t (p.streamId :: seen) rest

/-- `validate_transaction`. -/
def validateTransaction (st : State) (t : EventTransaction) : Except EventStoreError Unit := do
  checkParticipants st t [] t.participants
  forM t.participants fun p =>
    validateExpectedVersion p.expectedVersion (st.currentVersion p.streamId)

end Checks

/-- A participant with its base version and the events to record; none for a guard. -/
structure Staged where
  participant : TransactionParticipant
  baseVersion : Nat
  events : List RecordedEvent

/-- One step of the staging loop. -/
def stage (st : State) (p : TransactionParticipant) : Except EventStoreError Staged := do
  let base := st.currentVersion p.streamId
  match p.batch with
  | none => return ⟨p, base, []⟩
  | some batch =>
    let events ← recordBatch p.streamId base batch
    return ⟨p, base, events⟩

/-- The staging loop. -/
def stageAll (st : State) (participants : List TransactionParticipant) :
    Except EventStoreError (List Staged) :=
  participants.mapM (stage st)

/-- The receipt of the staged participants. -/
def stagedReceipt (t : EventTransaction) (staged : List Staged) : TransactionReceipt where
  actor := t.actor
  securityScope := t.securityScope
  completion := none
  boundedContext := t.boundedContext
  operationId := t.operationId
  operationFingerprint := t.operationFingerprint
  correlationId := t.correlationId
  causationId := t.causationId
  streams := staged.map fun x => ⟨x.participant.streamId, x.baseVersion, x.events⟩

/-- One step of the recording loop; a guard writes nothing. -/
def recordStaged (x : Staged) (st : State) : State :=
  match x.participant.batch with
  | none => st
  | some batch => st.recordAppend x.participant.streamId batch x.events .transaction

inductive OutcomeLifecycleError where
  | missing
  | revisionMismatch
  | unsupported
  | store (error : EventStoreError)
deriving DecidableEq

inductive ReclamationStatus where
  | pending
  | reclaimed
deriving DecidableEq, Repr

structure OutcomeExpiry where
  revision : OutcomeRevision
  reclamation : ReclamationStatus
deriving DecidableEq

inductive OutcomeLookup where
  | missing
  | completed (outcome : CompletedOutcome)
deriving DecidableEq

end Memory

namespace InMemoryEventStore

open Memory

/-- `InMemoryEventStore::new`, with the limits of the builders. -/
def new (authority : CommandAuthority) (maximumEvents maximumOutcomes : Nat) :
    InMemoryEventStore :=
  ⟨authority, memoryDetails, none, maximumEvents, maximumOutcomes⟩

/-- The event count after `added` more events, if it stays within the maximum. -/
def newCount (store : InMemoryEventStore) (st : State) (added : Nat) :
    Except EventStoreError Nat :=
  okOr (capacityExhausted "in-memory event capacity would be exceeded")
    ((checkedAdd st.eventCount added).filter (· ≤ store.maximumEvents))

section Calls

variable [Crates]

/-- `EventStore::append`. -/
def append (store : InMemoryEventStore) (streamId : StreamId) (expected : ExpectedVersion)
    (batch : EventBatch) : StoreM AppendOutcome := do
  let state ← get
  match state.operations.lookup (streamId, batch.operationId) with
  | some previous =>
    if previous.provenance = .direct ∧ previous.batch = batch then
      return .exactReplay previous.events
    else if previous.provenance = .transaction then
      throw (identityConflict "operation identity was already used by an event transaction")
    else throw (identityConflict "operation identity was reused with different content")
  | none =>
    rejectIf ((streamId, batch.commitId) ∈ state.commits)
      (identityConflict "commit identity was reused with different content")
    rejectIf (batch.events.any fun e => (streamId, e.eventId) ∈ state.eventIds)
      (identityConflict "event identity was reused with different content")
    validateDerivedIdentities streamId batch
    let current := state.currentVersion streamId
    validateExpectedVersion expected current
    let count ← store.newCount state batch.events.length
    let recorded ← recordBatch streamId current batch
    modify fun st => st.recordAppend streamId batch recorded .direct
    modify fun st => { st with eventCount := count }
    return .appended recorded

/-- What a transaction stores besides its events: a marker with its details when it has a
context, else its digest and receipt. -/
def prepareStored (store : InMemoryEventStore) (t : EventTransaction) (proposal : ProposalDigest)
    (receipt : TransactionReceipt) :
    Except EventStoreError (StoredTransaction × Option (OutcomeDetailReference × DetailState)) :=
  if t.boundedContext.isSome then do
    let (marker, bytes) ← OutcomeMarker.prepare store.authority t receipt
    return (.scoped marker, some (marker.reference, .active bytes))
  else return (.unscoped proposal receipt, none)

/-- `append_transaction_inner`: what is stored, and whether it was there before. -/
def appendTransactionInner (store : InMemoryEventStore) (t : EventTransaction) :
    StoreM (StoredTransaction × Bool) := do
  let totalEvents ← validateTransactionItemLimit t
  let proposal ← ProposalDigest.of t
  let state ← get
  match state.transactions.lookup (t.boundedContext, t.operationId) with
  | some previous =>
    if previous.proposal = proposal then return (previous, true)
    else throw (identityConflict "transaction identity was reused with different content")
  | none =>
    rejectIf (state.transactions.keys.card ≥ store.maximumOutcomes)
      (capacityExhausted "in-memory completed outcome capacity exhausted")
    validateTransaction state t
    let count ← store.newCount state totalEvents
    let staged ← stageAll state t.participants
    let (stored, detail) ← store.prepareStored t proposal (stagedReceipt t staged)
    forM staged fun x => modify (recordStaged x)
    modify fun st => { st with eventCount := count }
    modify fun st =>
      { st with transactions := st.transactions.insert (t.boundedContext, t.operationId) stored }
    forM detail.toList fun (reference, detail) =>
      modify fun st => { st with details := st.details.insert reference detail }
    return (stored, false)

/-- `EventStore::append_transaction`. -/
def appendTransaction (store : InMemoryEventStore) (t : EventTransaction) :
    StoreM TransactionAppendOutcome := do
  rejectIf t.completion.isSome (invalid "use commit_outcome for completed decisions")
  let (stored, replay) ← store.appendTransactionInner t
  let receipt ← stored.acceptance
  return if replay then .exactReplay receipt else .appended receipt

/-- `validate_authority`. -/
def validateAuthority (store : InMemoryEventStore) (key : OutcomeKey) :
    Except EventStoreError Unit :=
  rejectIf (key.authority ≠ store.authority)
    (.new .configurationMismatch "outcome key belongs to another authority")

/-- `resolve_marker`: the lifecycle first, then the readers. -/
def resolveMarker (store : InMemoryEventStore) (st : State) (marker : OutcomeMarker) :
    Except EventStoreError CompletedOutcome := do
  match st.details.lookup marker.reference with
  | none => throw (corrupt "completed outcome lifecycle authority is missing")
  | some .expired => (CompletedOutcome.new marker .expired).mapError recoveryError
  | some (.active _) =>
    let details ← resolveDetails marker.reference (store.hot st marker.reference)
      (store.cold.map fun reader => reader st marker.reference)
    (CompletedOutcome.new marker details).mapError recoveryError

/-- `resolve_marker` after a winner is known: its errors are marked as recovery errors. -/
def recoverMarker (store : InMemoryEventStore) (st : State) (marker : OutcomeMarker) :
    Except EventStoreError CompletedOutcome :=
  (store.resolveMarker st marker).mapError (·.inOutcomeRecovery)

/-- `OutcomeReader::lookup_outcome`. -/
def lookupOutcome (store : InMemoryEventStore) (st : State) (key : OutcomeKey) :
    Except EventStoreError OutcomeLookup := do
  store.validateAuthority key
  match st.transactions.lookup (some key.context, key.operation) with
  | none => return .missing
  | some (.scoped marker) =>
    let outcome ← store.recoverMarker st marker
    return .completed outcome
  | some (.unscoped _ _) => throw (corrupt "scoped outcome has no marker")

/-- `CommandCommitSession::commit_outcome`. -/
def sessionCommitOutcome (store : InMemoryEventStore) (t : EventTransaction) :
    StoreM CompletedCommit := do
  validateCompletedTransaction t
  let (stored, replay) ← store.appendTransactionInner t
  match stored with
  | .unscoped _ _ => throw (invalid "completed command requires scoped marker")
  | .scoped marker =>
    let state ← get
    let outcome ← store.recoverMarker state marker
    return if replay then .exactReplay outcome else .appended outcome

/-- The receipt of an outcome with its completion, or the recovery error. -/
def inlineOutcome (outcome : CompletedOutcome) : Except EventStoreError InlineCompletedOutcome :=
  outcome.toInline.mapError recoveryError

/-- `EventStore::commit_outcome`: a session's commit with the details put back. -/
def commitOutcome (store : InMemoryEventStore) (t : EventTransaction) :
    StoreM CompletedAppendOutcome := do
  let committed ← store.sessionCommitOutcome t
  match committed with
  | .exactReplay outcome =>
    let inline ← inlineOutcome outcome
    return .exactReplay inline
  | .appended outcome =>
    let inline ← inlineOutcome outcome
    return .appended inline

/-- `OutcomeLifecycle::expire_details`. -/
def expireDetails (store : InMemoryEventStore) (key : OutcomeKey) (expected : OutcomeRevision) :
    EStateM OutcomeLifecycleError State OutcomeExpiry := do
  liftM ((store.validateAuthority key).mapError OutcomeLifecycleError.store)
  let state ← get
  match state.transactions.lookup (some key.context, key.operation) with
  | some (.scoped marker) =>
    rejectIf (marker.revision ≠ expected) OutcomeLifecycleError.revisionMismatch
    match state.details.lookup marker.reference with
    | none => throw (.store (corrupt "cannot expire missing lifecycle evidence"))
    | some _ =>
      -- The slot stays occupied, without its bytes.
      modify fun st => { st with details := st.details.insert marker.reference .expired }
      return ⟨expected, .reclaimed⟩
  | _ => throw .missing

/-- `EventHistory::load`. -/
def load (_store : InMemoryEventStore) (st : State) (streamId : StreamId) : List RecordedEvent :=
  st.stream streamId

end Calls

end InMemoryEventStore

end Rostfrei
