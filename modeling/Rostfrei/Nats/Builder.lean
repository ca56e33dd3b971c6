import Rostfrei.Core.Store

/-!
# Histories from decoded messages

`HistoryBuilder` turns the decoded events of one stream into a `History`, one commit after the
other. An event either opens a commit or continues the one that is pending; a commit that is
complete is checked and moves to the history.

* A builder between commits is determined by its history (`HistoryBuilder.Restored`), so building
  can go on from a finished history (`pushAll_fromHistory`).
* `PendingCommit.push_eq_ok`, `HistoryBuilder.push_eq_ok`: what a step accepts and what it leaves.

A push that fails leaves the builder half changed; every caller then drops it, so the model returns
no builder.
-/

namespace Rostfrei.Nats

open Lib

/-! ## Stored commits -/

/-- `Range<usize>`: from `start` to before `stop`. -/
structure OrdinalRange where
  start : Nat
  stop : Nat
deriving DecidableEq

structure StoredTransactionProvenance where
  batchId : String
  eventOrdinals : OrdinalRange
  transactionEventCount : Nat
deriving DecidableEq

structure StoredCommit where
  batch : EventBatch
  events : List RecordedEvent
  globalStreamSequences : List Nat
  transaction : Option StoredTransactionProvenance
deriving DecidableEq

/-- The events of a stream with the sequences of their messages, and the commits they make up. -/
structure History where
  events : List RecordedEvent := []
  globalStreamSequences : List Nat := []
  commits : List StoredCommit := []
  lastSubjectStreamSequence : Nat := 0
deriving DecidableEq

/-- The version of the last event, 0 for an empty history. -/
def History.version (h : History) : Nat := h.events.getLast?.elim 0 (·.streamVersion)

structure DecodedEvent where
  batchId : String
  commitId : CommitId
  operationId : OperationId
  operationFingerprint : ContentFingerprint
  eventOrdinal : Nat
  eventCount : Nat
  transactionEventOrdinal : Nat
  transactionEventCount : Nat
  isTransactional : Bool
  recorded : RecordedEvent
deriving DecidableEq

structure DecodedStoredEvent where
  decoded : DecodedEvent
  globalStreamSequence : Nat
  isTransactional : Bool
deriving DecidableEq

/-- `transaction_batch_start_sequence`: the sequence of the first message of the transaction. -/
def transactionBatchStartSequence (commit : StoredCommit)
    (provenance : StoredTransactionProvenance) : Except EventStoreError Nat := do
  let firstSequence ← okOr (corrupt "transactional commit has no global stream sequence")
    commit.globalStreamSequences.head?
  let start ← okOr (corrupt "transaction batch start sequence underflowed")
    (if provenance.eventOrdinals.start ≤ firstSequence then
      some (firstSequence - provenance.eventOrdinals.start) else none)
  rejectIf (start = 0) (corrupt "transaction batch has an invalid start sequence")
  return start

/-! ## The commit that is pending -/

structure PendingCommit where
  batchId : String
  commitId : CommitId
  operationId : OperationId
  operationFingerprint : ContentFingerprint
  eventCount : Nat
  events : List RecordedEvent
  globalStreamSequences : List Nat
  transaction : Option StoredTransactionProvenance
deriving DecidableEq

namespace PendingCommit

/-- The place of a transactional commit in its transaction. -/
def provenance (decoded : DecodedEvent) :
    Bool → Except EventStoreError (Option StoredTransactionProvenance)
  | false => return none
  | true => do
    let stop ← okOr (corrupt "transactional commit ordinal range overflowed")
      (checkedAdd decoded.transactionEventOrdinal decoded.eventCount)
    rejectIf (stop > decoded.transactionEventCount)
      (corrupt "transactional commit exceeds its transaction event range")
    return some
      { batchId := decoded.batchId
        eventOrdinals := ⟨decoded.transactionEventOrdinal, stop⟩
        transactionEventCount := decoded.transactionEventCount }

/-- `PendingCommit::new`. -/
def new (decoded : DecodedEvent) (globalStreamSequence : Nat) (isTransactional : Bool) :
    Except EventStoreError PendingCommit := do
  let transaction ← provenance decoded isTransactional
  return {
    batchId := decoded.batchId
    commitId := decoded.commitId
    operationId := decoded.operationId
    operationFingerprint := decoded.operationFingerprint
    eventCount := decoded.eventCount
    events := [decoded.recorded]
    globalStreamSequences := [globalStreamSequence]
    transaction }

/-- The event has the place in the transaction that its place in the commit asks for. -/
def transactionMatches (transaction : Option StoredTransactionProvenance) (decoded : DecodedEvent)
    (isTransactional : Bool) : Bool :=
  match transaction with
  | none => !isTransactional
  | some transaction =>
    isTransactional && decoded.batchId == transaction.batchId &&
      decoded.transactionEventCount == transaction.transactionEventCount &&
      checkedAdd transaction.eventOrdinals.start decoded.eventOrdinal ==
        some decoded.transactionEventOrdinal

/-- `PendingCommit::push`. -/
def push (p : PendingCommit) (decoded : DecodedEvent) (globalStreamSequence : Nat)
    (isTransactional : Bool) : Except EventStoreError PendingCommit := do
  let first ← okOr (corrupt "stored commit is empty") p.events.head?
  rejectIf
    (decoded.eventOrdinal ≠ p.events.length ∨ decoded.eventCount ≠ p.eventCount ∨
      decoded.batchId ≠ p.batchId ∨ decoded.commitId ≠ p.commitId ∨
      decoded.operationId ≠ p.operationId ∨
      decoded.operationFingerprint ≠ p.operationFingerprint ∨
      decoded.recorded.correlationId ≠ first.correlationId ∨
      decoded.recorded.causationId ≠ first.causationId ∨
      decoded.recorded.actor ≠ first.actor ∨
      ¬ transactionMatches p.transaction decoded isTransactional)
    (corrupt "stored commit metadata is inconsistent")
  return { p with
    events := p.events ++ [decoded.recorded]
    globalStreamSequences := p.globalStreamSequences ++ [globalStreamSequence] }

/-- `PendingCommit::is_complete`. -/
def isComplete (p : PendingCommit) : Bool := p.events.length = p.eventCount

/-- The sequences go up by one from the first. -/
def consecutive (sequences : List Nat) (first : Nat) : Bool :=
  sequences.zipIdx.all fun (sequence, index) => checkedAdd first index == some sequence

/-- `PendingCommit::finish`. -/
def finish (p : PendingCommit) : Except EventStoreError StoredCommit := do
  let first ← okOr (corrupt "stored commit is empty") p.events.head?
  let newEvents ← p.events.mapM fun event =>
    (NewEvent.new event.eventId event.eventType event.schemaVersion event.payload).mapError
      fun error => corrupt ("invalid stored event envelope: " ++ error.toString)
  let batch ← (EventBatch.new p.commitId p.operationId p.operationFingerprint newEvents).mapError
    fun error => corrupt ("invalid stored event batch: " ++ error.toString)
  let commit : StoredCommit :=
    { batch := { batch with
        correlationId := first.correlationId
        causationId := first.causationId
        actor := first.actor }
      events := p.events
      globalStreamSequences := p.globalStreamSequences
      transaction := p.transaction }
  let firstSequence ← okOr (corrupt "stored commit has no global stream sequence")
    commit.globalStreamSequences.head?
  rejectIf (¬ consecutive commit.globalStreamSequences firstSequence)
    (corrupt "stored commit events are not contiguous in their atomic batch")
  match commit.transaction with
  | some provenance =>
    let _ ← transactionBatchStartSequence commit provenance
    return commit
  | none => return commit

end PendingCommit

/-! ## The builder -/

structure HistoryBuilder where
  history : History := {}
  currentVersion : Nat := 0
  operationIds : Finset OperationId := ∅
  commitIds : Finset CommitId := ∅
  eventIds : Finset EventId := ∅
  pending : Option PendingCommit := none

namespace HistoryBuilder

/-- `HistoryBuilder::from_history`. -/
def fromHistory (history : History) : HistoryBuilder where
  history := history
  currentVersion := history.version
  operationIds := (history.commits.map (·.batch.operationId)).toFinset
  commitIds := (history.commits.map (·.batch.commitId)).toFinset
  eventIds := (history.events.map (·.eventId)).toFinset
  pending := none

/-- The event opens a commit, or continues the pending one. -/
def place (b : HistoryBuilder) (stored : DecodedStoredEvent) :
    Except EventStoreError PendingCommit :=
  let decoded := stored.decoded
  if decoded.eventOrdinal = 0 then do
    rejectIf b.pending.isSome (corrupt "aggregate history contains an incomplete commit")
    rejectIf (decoded.operationId ∈ b.operationIds)
      (corrupt "aggregate history contains a duplicate operation identity")
    rejectIf (decoded.commitId ∈ b.commitIds)
      (corrupt "aggregate history contains a duplicate commit identity")
    PendingCommit.new decoded stored.globalStreamSequence stored.isTransactional
  else do
    let pending ← okOr (corrupt "aggregate history starts inside a commit") b.pending
    pending.push decoded stored.globalStreamSequence stored.isTransactional

/-- The history with one more commit. -/
def extend (history : History) (stored : StoredCommit) : History :=
  { history with
    events := history.events ++ stored.events
    globalStreamSequences := history.globalStreamSequences ++ stored.globalStreamSequences
    commits := history.commits ++ [stored] }

/-- The builder with the event counted and its commit pending. -/
def pend (b : HistoryBuilder) (decoded : DecodedEvent) (version : Nat) (pending : PendingCommit) :
    HistoryBuilder :=
  { history := b.history
    currentVersion := version
    operationIds :=
      if decoded.eventOrdinal = 0 then insert decoded.operationId b.operationIds
      else b.operationIds
    commitIds :=
      if decoded.eventOrdinal = 0 then insert decoded.commitId b.commitIds else b.commitIds
    eventIds := insert decoded.recorded.eventId b.eventIds
    pending := some pending }

/-- The builder with the pending commit moved to the history. -/
def settle (b : HistoryBuilder) (commit : StoredCommit) : HistoryBuilder :=
  { b with history := extend b.history commit, pending := none }

/-- `HistoryBuilder::push`. -/
def push (b : HistoryBuilder) (stored : DecodedStoredEvent) :
    Except EventStoreError HistoryBuilder := do
  let decoded := stored.decoded
  rejectIf (stored.globalStreamSequence = 0)
    (corrupt "stored event has an invalid global stream sequence")
  let expectedVersion ← okOr (corrupt "aggregate version space overflowed")
    (nextVersion b.currentVersion)
  rejectIf (decoded.recorded.streamVersion ≠ expectedVersion)
    (corrupt "aggregate events are missing, duplicated, or noncontiguous")
  rejectIf (decoded.recorded.eventId ∈ b.eventIds)
    (corrupt "aggregate history contains a duplicate event identity")
  let pending ← b.place stored
  let pushed := b.pend decoded expectedVersion pending
  if pending.isComplete then
    return pushed.settle (← pending.finish)
  else return pushed

/-- The pushes of a list of events. -/
def pushAll (b : HistoryBuilder) (events : List DecodedStoredEvent) :
    Except EventStoreError HistoryBuilder :=
  events.foldlM push b

/-- `HistoryBuilder::finish`. -/
def finish (b : HistoryBuilder) (lastSequence : Nat) : Except EventStoreError History := do
  rejectIf (b.pending.isSome ∨ b.currentVersion = 0)
    (corrupt "aggregate history ended inside a commit")
  return { b.history with lastSubjectStreamSequence := lastSequence }

end HistoryBuilder

/-! ## What a step accepts -/

namespace PendingCommit

variable {p p' : PendingCommit} {decoded : DecodedEvent} {sequence : Nat} {transactional : Bool}

theorem new_eq_ok :
    new decoded sequence transactional = .ok p ↔
      ∃ transaction, provenance decoded transactional = .ok transaction ∧
        { batchId := decoded.batchId
          commitId := decoded.commitId
          operationId := decoded.operationId
          operationFingerprint := decoded.operationFingerprint
          eventCount := decoded.eventCount
          events := [decoded.recorded]
          globalStreamSequences := [sequence]
          transaction } = p := by
  simp only [new, bind_eq_ok, pure_eq_ok]

/-- What `push` compares of an event with its commit. -/
structure Continues (p : PendingCommit) (first : RecordedEvent) (decoded : DecodedEvent)
    (transactional : Bool) : Prop where
  ordinal : decoded.eventOrdinal = p.events.length
  count : decoded.eventCount = p.eventCount
  batchId : decoded.batchId = p.batchId
  commitId : decoded.commitId = p.commitId
  operationId : decoded.operationId = p.operationId
  fingerprint : decoded.operationFingerprint = p.operationFingerprint
  correlationId : decoded.recorded.correlationId = first.correlationId
  causationId : decoded.recorded.causationId = first.causationId
  actor : decoded.recorded.actor = first.actor
  transaction : transactionMatches p.transaction decoded transactional

theorem push_eq_ok :
    p.push decoded sequence transactional = .ok p' ↔
      ∃ first, p.events.head? = some first ∧ Continues p first decoded transactional ∧
        p' = { p with
          events := p.events ++ [decoded.recorded]
          globalStreamSequences := p.globalStreamSequences ++ [sequence] } := by
  simp only [push, bind_eq_ok, okOr_eq_ok, rejectIf_eq_ok, pure_eq_ok, not_or, not_not]
  constructor
  · rintro ⟨first, hfirst, -, ⟨h₁, h₂, h₃, h₄, h₅, h₆, h₇, h₈, h₉, h₁₀⟩, rfl⟩
    exact ⟨first, hfirst, ⟨h₁, h₂, h₃, h₄, h₅, h₆, h₇, h₈, h₉, h₁₀⟩, rfl⟩
  · rintro ⟨first, hfirst, h, rfl⟩
    exact ⟨first, hfirst, (), ⟨h.ordinal, h.count, h.batchId, h.commitId, h.operationId,
      h.fingerprint, h.correlationId, h.causationId, h.actor, h.transaction⟩, rfl⟩

/-- What `finish` builds, and what it checks. -/
structure Finishes (p : PendingCommit) (commit : StoredCommit) : Prop where
  events : commit.events = p.events
  sequences : commit.globalStreamSequences = p.globalStreamSequences
  transaction : commit.transaction = p.transaction
  commitId : commit.batch.commitId = p.commitId
  operationId : commit.batch.operationId = p.operationId
  fingerprint : commit.batch.operationFingerprint = p.operationFingerprint
  newEvents : List.Forall₂ (fun (e : RecordedEvent) (n : NewEvent) =>
    n.eventId = e.eventId ∧ n.eventType = e.eventType ∧ n.schemaVersion = e.schemaVersion ∧
      n.payload = e.payload) p.events commit.batch.events
  first : ∃ first, p.events.head? = some first ∧
    commit.batch.correlationId = first.correlationId ∧
    commit.batch.causationId = first.causationId ∧ commit.batch.actor = first.actor
  consecutive : ∃ first, p.globalStreamSequences.head? = some first ∧
    consecutive p.globalStreamSequences first
  start : ∀ provenance, p.transaction = some provenance →
    ∃ start, transactionBatchStartSequence commit provenance = .ok start

theorem finishes_of_finish {commit : StoredCommit} (h : p.finish = .ok commit) :
    Finishes p commit := by
  simp only [finish, bind_eq_ok, okOr_eq_ok, mapM_eq_ok, mapError_eq_ok, rejectIf_eq_ok,
    not_not] at h
  obtain ⟨first, hfirst, newEvents, hnew, batch, hbatch, sequence, hsequence, -, hconsecutive,
    hlast⟩ := h
  have hstart : ∀ provenance, p.transaction = some provenance →
      ∃ start, transactionBatchStartSequence commit provenance = .ok start := by
    intro provenance hprovenance
    simp only [hprovenance, bind_eq_ok, pure_eq_ok] at hlast
    obtain ⟨start, hstart, rfl⟩ := hlast
    exact ⟨start, hstart⟩
  have hcommit : commit =
      { batch := { batch with
          correlationId := first.correlationId
          causationId := first.causationId
          actor := first.actor }
        events := p.events
        globalStreamSequences := p.globalStreamSequences
        transaction := p.transaction } := by
    split at hlast
    · simp only [bind_eq_ok, pure_eq_ok] at hlast
      obtain ⟨_, -, rfl⟩ := hlast
      rfl
    · simp only [pure_eq_ok] at hlast
      exact hlast.symm
  obtain ⟨hcommitId, hoperation, hfingerprint, hevents⟩ := EventBatch.new_eq_ok hbatch
  subst hcommit
  refine ⟨rfl, rfl, rfl, hcommitId, hoperation, hfingerprint, ?_, ⟨first, hfirst, rfl, rfl, rfl⟩,
    ⟨sequence, hsequence, hconsecutive⟩, hstart⟩
  rw [hevents]
  exact hnew.imp fun e n hn => NewEvent.new_eq_ok hn

end PendingCommit

namespace HistoryBuilder

variable {b b' : HistoryBuilder} {stored : DecodedStoredEvent} {pending : PendingCommit}

/-- What `push` checks before it looks at the commit. -/
structure Next (b : HistoryBuilder) (stored : DecodedStoredEvent) : Prop where
  sequence_ne : stored.globalStreamSequence ≠ 0
  version_lt : b.currentVersion + 1 < 2 ^ 64
  version : stored.decoded.recorded.streamVersion = b.currentVersion + 1
  eventId_new : stored.decoded.recorded.eventId ∉ b.eventIds

/-- A push, taken apart: the event is the next one, it has a place, and its commit is complete or
stays pending. -/
theorem push_eq_ok :
    b.push stored = .ok b' ↔
      Next b stored ∧ ∃ pending, b.place stored = .ok pending ∧
        ((pending.isComplete = true ∧ ∃ commit, pending.finish = .ok commit ∧
            b' = (b.pend stored.decoded (b.currentVersion + 1) pending).settle commit) ∨
          (pending.isComplete = false ∧
            b' = b.pend stored.decoded (b.currentVersion + 1) pending)) := by
  simp only [push, bind_eq_ok, rejectIf_eq_ok, okOr_eq_ok, nextVersion_eq_some, not_not]
  constructor
  · rintro ⟨-, hsequence, _, ⟨hlt, rfl⟩, -, hversion, -, hid, pending, hplace, hrest⟩
    refine ⟨⟨hsequence, hlt, hversion, hid⟩, pending, hplace, ?_⟩
    split at hrest
    · next hcomplete =>
      simp only [bind_eq_ok, pure_eq_ok] at hrest
      obtain ⟨commit, hfinish, rfl⟩ := hrest
      exact .inl ⟨hcomplete, commit, hfinish, rfl⟩
    · next hcomplete =>
      rw [pure_eq_ok] at hrest
      exact .inr ⟨by simpa using hcomplete, hrest.symm⟩
  · rintro ⟨⟨hsequence, hlt, hversion, hid⟩, pending, hplace, hrest⟩
    refine ⟨(), hsequence, _, ⟨hlt, rfl⟩, (), hversion, (), hid, pending, hplace, ?_⟩
    rcases hrest with ⟨hcomplete, commit, hfinish, rfl⟩ | ⟨hcomplete, rfl⟩
    · rw [if_pos hcomplete, hfinish]
      rfl
    · rw [if_neg (by simp [hcomplete])]
      rfl

/-- The event opens a commit, or continues the one that is pending. -/
theorem place_eq_ok :
    b.place stored = .ok pending ↔
      (stored.decoded.eventOrdinal = 0 ∧ b.pending = none ∧
          stored.decoded.operationId ∉ b.operationIds ∧ stored.decoded.commitId ∉ b.commitIds ∧
          PendingCommit.new stored.decoded stored.globalStreamSequence stored.isTransactional =
            .ok pending) ∨
        (stored.decoded.eventOrdinal ≠ 0 ∧ ∃ before, b.pending = some before ∧
          before.push stored.decoded stored.globalStreamSequence stored.isTransactional =
            .ok pending) := by
  unfold place
  by_cases hopens : stored.decoded.eventOrdinal = 0
  · simp only [hopens, if_true, bind_unit_eq_ok, rejectIf_eq_ok, Option.not_isSome_iff_eq_none,
      true_and, ne_eq, not_true_eq_false, false_and, or_false]
  · simp only [hopens, if_false, bind_eq_ok, okOr_eq_ok, false_and, false_or, ne_eq,
      not_false_eq_true, true_and]

theorem finish_eq_ok {lastSequence : Nat} {history : History} :
    b.finish lastSequence = .ok history ↔
      b.pending = none ∧ b.currentVersion ≠ 0 ∧
        history = { b.history with lastSubjectStreamSequence := lastSequence } := by
  simp only [finish, bind_unit_eq_ok, rejectIf_eq_ok, pure_eq_ok, not_or,
    Option.not_isSome_iff_eq_none, and_assoc, eq_comm (a := history)]

@[simp] theorem pushAll_nil : b.pushAll [] = .ok b := rfl

theorem pushAll_cons {events : List DecodedStoredEvent} :
    b.pushAll (stored :: events) = b.push stored >>= (·.pushAll events) := by
  simp [pushAll]

theorem pushAll_append {events more : List DecodedStoredEvent} :
    b.pushAll (events ++ more) = b.pushAll events >>= (·.pushAll more) := by
  simp only [pushAll, List.foldlM_append]

/-- What every push keeps holds after all of them. -/
theorem pushAll_induction {P : HistoryBuilder → Prop} {events : List DecodedStoredEvent}
    (hstep : ∀ b stored b', P b → b.push stored = .ok b' → P b') (hb : P b)
    (h : b.pushAll events = .ok b') : P b' := by
  induction events generalizing b with
  | nil =>
    cases h
    exact hb
  | cons stored events ih =>
    rw [pushAll_cons, bind_eq_ok] at h
    obtain ⟨b₁, hpush, hrest⟩ := h
    exact ih (hstep b stored b₁ hb hpush) hrest

/-! ## Going on from a finished history -/

/-- The events of the pending commit. -/
def pendingEvents (b : HistoryBuilder) : List RecordedEvent := b.pending.elim [] (·.events)

/-- What the builder remembers is what its history and its pending commit say. -/
structure Restored (b : HistoryBuilder) : Prop where
  version : b.currentVersion =
    (b.history.events ++ b.pendingEvents).getLast?.elim 0 (·.streamVersion)
  operationIds : b.operationIds =
    (b.history.commits.map (·.batch.operationId) ++ b.pending.toList.map (·.operationId)).toFinset
  commitIds : b.commitIds =
    (b.history.commits.map (·.batch.commitId) ++ b.pending.toList.map (·.commitId)).toFinset
  eventIds : b.eventIds = ((b.history.events ++ b.pendingEvents).map (·.eventId)).toFinset

theorem restored_default : Restored {} := ⟨rfl, rfl, rfl, rfl⟩

/-- Between commits, a builder is the one that its history gives. -/
theorem Restored.eq_fromHistory (h : Restored b) (hpending : b.pending = none) :
    b = fromHistory b.history := by
  obtain ⟨hversion, hoperations, hcommits, hevents⟩ := h
  have hnone : b.pendingEvents = [] := by simp [pendingEvents, hpending]
  rw [hnone, List.append_nil] at hversion hevents
  rw [hpending, Option.toList_none, List.map_nil, List.append_nil] at hoperations hcommits
  obtain ⟨history, version, operations, commits, ids, pending⟩ := b
  simp only at hpending hversion hoperations hcommits hevents
  subst hpending hversion hoperations hcommits hevents
  rfl

/-- The step: counting an event and its commit. -/
theorem Restored.pend (h : Restored b) (hnext : Next b stored)
    (hplace : b.place stored = .ok pending) :
    Restored (b.pend stored.decoded (b.currentVersion + 1) pending) := by
  rcases place_eq_ok.mp hplace with ⟨hopens, hnone, -, -, hnew⟩ | ⟨hopens, before, hbefore, hpush⟩
  · obtain ⟨transaction, -, rfl⟩ := PendingCommit.new_eq_ok.mp hnew
    have hevents : b.pendingEvents = [] := by simp [pendingEvents, hnone]
    refine ⟨?_, ?_, ?_, ?_⟩
    · simp [HistoryBuilder.pend, pendingEvents, hnext.version]
    · simp only [HistoryBuilder.pend, hopens, if_true, h.operationIds, hnone]
      ext x
      simp
    · simp only [HistoryBuilder.pend, hopens, if_true, h.commitIds, hnone]
      ext x
      simp
    · simp only [HistoryBuilder.pend, h.eventIds, hevents]
      ext x
      simp [pendingEvents]
  · obtain ⟨first, -, -, rfl⟩ := PendingCommit.push_eq_ok.mp hpush
    refine ⟨?_, ?_, ?_, ?_⟩
    · simp [HistoryBuilder.pend, pendingEvents, hnext.version]
    · simp only [HistoryBuilder.pend, hopens, if_false, h.operationIds, hbefore]
      rfl
    · simp only [HistoryBuilder.pend, hopens, if_false, h.commitIds, hbefore]
      rfl
    · simp only [HistoryBuilder.pend, h.eventIds, pendingEvents, hbefore]
      ext x
      simp

/-- The step: moving a complete commit to the history. -/
theorem Restored.settle {commit : StoredCommit} (h : Restored b) (hpending : b.pending = some pending)
    (hfinish : pending.Finishes commit) : Restored (b.settle commit) := by
  obtain ⟨hversion, hoperations, hcommits, hevents⟩ := h
  have hpendingEvents : b.pendingEvents = commit.events := by
    simp [pendingEvents, hpending, hfinish.events]
  rw [hpendingEvents] at hversion hevents
  rw [hpending] at hoperations hcommits
  refine ⟨?_, ?_, ?_, ?_⟩
  · simpa [HistoryBuilder.settle, extend, pendingEvents] using hversion
  · simpa [HistoryBuilder.settle, extend, hfinish.operationId] using hoperations
  · simpa [HistoryBuilder.settle, extend, hfinish.commitId] using hcommits
  · simpa [HistoryBuilder.settle, extend, pendingEvents] using hevents

theorem Restored.push (h : Restored b) (hpush : b.push stored = .ok b') : Restored b' := by
  obtain ⟨hnext, pending, hplace, hrest⟩ := push_eq_ok.mp hpush
  have hpend := h.pend hnext hplace
  rcases hrest with ⟨-, commit, hfinish, rfl⟩ | ⟨-, rfl⟩
  · exact hpend.settle rfl (PendingCommit.finishes_of_finish hfinish)
  · exact hpend

/-- The run. -/
theorem Restored.pushAll {events : List DecodedStoredEvent} (h : Restored b)
    (hpush : b.pushAll events = .ok b') : Restored b' :=
  pushAll_induction (fun _ _ _ hb hstep => Restored.push hb hstep) h hpush

/-- The builder with another last sequence in its history. -/
def withLast (b : HistoryBuilder) (lastSequence : Nat) : HistoryBuilder :=
  { b with history := { b.history with lastSubjectStreamSequence := lastSequence } }

/-- No push looks at the last sequence. -/
theorem push_withLast (lastSequence : Nat) :
    (b.withLast lastSequence).push stored = (·.withLast lastSequence) <$> b.push stored := by
  have hplace : (b.withLast lastSequence).place stored = b.place stored := rfl
  have hversion : (b.withLast lastSequence).currentVersion = b.currentVersion := rfl
  have hids : (b.withLast lastSequence).eventIds = b.eventIds := rfl
  simp only [push, hplace, hversion, hids, map_bind]
  refine congrArg _ (funext fun _ => congrArg _ (funext fun version => congrArg _
    (funext fun _ => congrArg _ (funext fun _ => congrArg _ (funext fun pending => ?_)))))
  split
  · simp only [map_bind, map_pure]
    rfl
  · rfl

theorem pushAll_withLast (lastSequence : Nat) (events : List DecodedStoredEvent) :
    (b.withLast lastSequence).pushAll events =
      (·.withLast lastSequence) <$> b.pushAll events := by
  induction events generalizing b with
  | nil => rfl
  | cons stored events ih =>
    rw [pushAll_cons, pushAll_cons, push_withLast, map_bind, bind_map_left]
    exact congrArg _ (funext fun b => ih)

theorem finish_withLast (lastSequence lastSequence' : Nat) :
    (b.withLast lastSequence).finish lastSequence' = b.finish lastSequence' := rfl

/-- A finished history gives the builder back, up to the last sequence. -/
theorem fromHistory_finish {lastSequence : Nat} {history : History} (h : Restored b)
    (hfinish : b.finish lastSequence = .ok history) :
    fromHistory history = b.withLast lastSequence := by
  obtain ⟨hpending, -, rfl⟩ := finish_eq_ok.mp hfinish
  conv_rhs => rw [h.eq_fromHistory hpending]
  rfl

/-- Pushing on from a finished history, and pushing everything, ends with the same answer: the same
builder up to the last sequence, or the same error. -/
theorem pushAll_fromHistory {first : List DecodedStoredEvent} {lastSequence : Nat}
    {history : History} (h : pushAll {} first >>= (·.finish lastSequence) = .ok history)
    (more : List DecodedStoredEvent) :
    (fromHistory history).pushAll more =
      (·.withLast lastSequence) <$> pushAll {} (first ++ more) := by
  obtain ⟨b, hpush, hfinish⟩ := bind_eq_ok.mp h
  rw [fromHistory_finish (restored_default.pushAll hpush) hfinish, pushAll_withLast,
    pushAll_append, hpush]
  rfl

end HistoryBuilder

end Rostfrei.Nats
