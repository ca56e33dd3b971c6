import Rostfrei.Core.Proposal

/-!
# Receipt checks

`validateIntegrity` checks a receipt by itself: versions follow each base version and every
identity is derived. `validateProposal` checks it against the transaction it answers.
-/

namespace Rostfrei

open Lib

variable [Crates]

/-- The events of one participant of a receipt, from a version and an ordinal on. -/
def checkReceiptEvents (r : TransactionReceipt) (stream : TransactionStreamReceipt)
    (commit : CommitId) (count : Nat) :
    Nat → Nat → List RecordedEvent → Except EventStoreError Unit
  | _, _, [] => .ok ()
  | version, ordinal, event :: rest => do
    let version ← okOr (corrupt "receipt stream version overflow") (nextVersion version)
    rejectIf (ordinal ≥ 2 ^ 32) (corrupt "receipt ordinal overflow")
    rejectIf
      (event.streamId ≠ stream.streamId ∨ event.streamVersion ≠ version ∨
        event.commitId ≠ commit ∨ event.eventId ≠ deriveEventId commit ordinal ∨
        event.operationId ≠ r.operationId ∨
        event.operationFingerprint ≠ r.operationFingerprint ∨
        event.correlationId ≠ r.correlationId ∨ event.causationId ≠ r.causationId ∨
        event.actor ≠ r.actor ∨ event.commitEventOrdinal ≠ ordinal ∨
        event.commitEventCount ≠ count)
      (corrupt "receipt event coordinates or provenance differ from its participant")
    checkReceiptEvents r stream commit count version (ordinal + 1) rest

/-- The participants of a receipt; `seen` are the streams before. -/
def checkReceiptStreams (r : TransactionReceipt) :
    List StreamId → List TransactionStreamReceipt → Except EventStoreError Unit
  | _, [] => .ok ()
  | seen, stream :: rest => do
    rejectIf (stream.streamId ∈ seen) (corrupt "duplicate receipt participant")
    rejectIf (stream.events.length ≥ 2 ^ 32) (corrupt "receipt event count overflow")
    checkReceiptEvents r stream (deriveCommitId stream.streamId r.operationId)
      stream.events.length stream.baseVersion 0 stream.events
    checkReceiptStreams r (stream.streamId :: seen) rest

namespace TransactionReceipt

/-- `TransactionReceipt::validate_integrity`. -/
def validateIntegrity (r : TransactionReceipt) : Except EventStoreError Unit := do
  checkReceiptStreams r [] r.streams
  match r.completion with
  | none => return ()
  | some completion =>
    completion.validate.mapError fun e => corrupt e.toString
    rejectIf (completion.rejection.isSome ∧ r.streams.any (¬ ·.events.isEmpty))
      (corrupt "rejected receipt contains events")

end TransactionReceipt

/-- The base version that an expectation names. -/
def expectedBase : ExpectedVersion → Except EventStoreError Nat
  | .noStream => .ok 0
  | .exact version =>
    if version ≠ 0 then .ok version
    else .error (invalid "Exact requires a nonzero base version")

/-- One participant of a proposal against its part of the receipt. -/
def checkProposalParticipant (r : TransactionReceipt) (stream : TransactionStreamReceipt)
    (p : TransactionParticipant) : Except EventStoreError Unit := do
  let base ← expectedBase p.expectedVersion
  rejectIf (stream.streamId ≠ p.streamId ∨ stream.baseVersion ≠ base)
    (invalid "receipt participant order, identity or base version differs from proposal")
  match p.batch with
  | none => rejectIf (¬ stream.events.isEmpty) (invalid "read guard receipt contains events")
  | some batch =>
    rejectIf
      (batch.operationId ≠ r.operationId ∨
        batch.operationFingerprint ≠ r.operationFingerprint ∨
        batch.correlationId ≠ r.correlationId ∨ batch.causationId ≠ r.causationId ∨
        batch.actor ≠ r.actor ∨
        batch.commitId ≠ deriveCommitId stream.streamId r.operationId ∨
        batch.events.length ≠ stream.events.length)
      (invalid "receipt batch metadata or cardinality differs from proposal")
    (batch.events.zip stream.events).forM fun (new, recorded) =>
      rejectIf
        (new.eventId ≠ recorded.eventId ∨ new.eventType ≠ recorded.eventType ∨
          new.schemaVersion ≠ recorded.schemaVersion ∨ new.payload ≠ recorded.payload)
        (invalid "receipt event content differs from proposal")

namespace TransactionReceipt

/-- `TransactionReceipt::validate_proposal`. -/
def validateProposal (r : TransactionReceipt) (t : EventTransaction) :
    Except EventStoreError Unit := do
  if t.completion.isSome then validateCompletedTransaction t
  let _ ← validateTransactionItemLimit t
  r.validateIntegrity.mapError fun e => invalid e.toString
  rejectIf
    (r.boundedContext ≠ t.boundedContext ∨ r.operationId ≠ t.operationId ∨
      r.operationFingerprint ≠ t.operationFingerprint ∨
      r.correlationId ≠ t.correlationId ∨ r.causationId ≠ t.causationId ∨
      r.actor ≠ t.actor ∨ r.securityScope ≠ t.securityScope ∨
      r.completion.any (fun value => some value ≠ t.completion) ∨
      r.streams.length ≠ t.participants.length)
    (invalid "outcome integrity receipt does not match its proposal")
  (r.streams.zip t.participants).forM fun (stream, p) => checkProposalParticipant r stream p

/-- What it means that a receipt answers a transaction. -/
structure Answers (r : TransactionReceipt) (t : EventTransaction) : Prop where
  completed : t.completion.isSome → validateCompletedTransaction t = .ok ()
  integrity : r.validateIntegrity = .ok ()
  context : r.boundedContext = t.boundedContext
  operation : r.operationId = t.operationId
  fingerprint : r.operationFingerprint = t.operationFingerprint
  correlation : r.correlationId = t.correlationId
  causation : r.causationId = t.causationId
  actor : r.actor = t.actor
  scope : r.securityScope = t.securityScope
  length : r.streams.length = t.participants.length
  participants : ∀ x ∈ r.streams.zip t.participants, checkProposalParticipant r x.1 x.2 = .ok ()

/-- A receipt that passes the check answers the transaction. -/
theorem answers_of_validateProposal {r : TransactionReceipt} {t : EventTransaction} {u : Unit}
    (h : r.validateProposal t = .ok u) : r.Answers t := by
  have hcompleted : t.completion.isSome → validateCompletedTransaction t = .ok () := by
    intro hsome
    rw [validateProposal, if_pos hsome] at h
    exact (bind_unit_eq_ok.mp h).1
  unfold validateProposal at h
  split at h
  on_goal 1 => replace h := (bind_unit_eq_ok.mp h).2
  all_goals
    obtain ⟨_, -, h⟩ := bind_eq_ok.mp h
    obtain ⟨hintegrity, h⟩ := bind_unit_eq_ok.mp h
    obtain ⟨hfields, hparticipants⟩ := bind_unit_eq_ok.mp h
    simp only [rejectIf_eq_ok, not_or, not_not] at hfields
    obtain ⟨hcontext, hop, hfingerprint, hcorrelation, hcausation, hactor, hscope, -, hlength⟩ :=
      hfields
    exact ⟨hcompleted, mapError_eq_ok.mp hintegrity, hcontext, hop, hfingerprint, hcorrelation,
      hcausation, hactor, hscope, hlength, forM_eq_ok.mp hparticipants⟩

/-- The completion of an answered transaction is valid, and a rejection only has read guards. -/
theorem Answers.completion {r : TransactionReceipt} {t : EventTransaction} (h : r.Answers t)
    {c : CommandCompletion} (hc : t.completion = some c) :
    c.validate = .ok () ∧ (c.rejection.isSome → ∀ p ∈ t.participants, p.batch = none) :=
  completion_of_validateCompleted (h.completed (by rw [hc]; rfl)) hc

/-- The receipt of a rejection has no events. -/
theorem Answers.no_events {r : TransactionReceipt} {t : EventTransaction} (h : r.Answers t)
    {c : CommandCompletion} (hc : t.completion = some c) (hrejected : c.rejection.isSome) :
    ∀ s ∈ r.streams, s.events = [] := by
  intro s hs
  obtain ⟨i, hi, rfl⟩ := List.mem_iff_getElem.mp hs
  have hp : i < t.participants.length := h.length ▸ hi
  have hcheck := h.participants (r.streams[i], t.participants[i])
    (List.mem_iff_getElem.mpr ⟨i, by simpa using ⟨hi, hp⟩, by simp⟩)
  simp only [checkProposalParticipant, bind_eq_ok, rejectIf_eq_ok,
    (h.completion hc).2 hrejected _ (List.getElem_mem hp)] at hcheck
  obtain ⟨_, -, _, -, hempty⟩ := hcheck
  simpa using hempty

/-- A receipt is only checked against a valid completion. -/
theorem valid_completion {r : TransactionReceipt} {t : EventTransaction} {u : Unit}
    (h : r.validateProposal t = .ok u) : ∀ c ∈ t.completion, c.validate = .ok () :=
  fun _ hc => ((answers_of_validateProposal h).completion hc).1

/-- A receipt that matches its transaction is sound by itself. -/
theorem valid_integrity {r : TransactionReceipt} {t : EventTransaction} {u : Unit}
    (h : r.validateProposal t = .ok u) : r.validateIntegrity = .ok () :=
  (answers_of_validateProposal h).integrity

end TransactionReceipt

end Rostfrei
