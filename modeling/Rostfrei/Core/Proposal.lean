import Rostfrei.Core.Store

/-!
# Proposal digests

`ProposalDigest.of` hashes a transaction as framed parts: everything but the expected versions.
Version 2 adds the actor of the transaction and of each batch.
-/

namespace Rostfrei

open Lib

/-- A `u16` version and the hash of the framed parts. -/
structure ProposalDigest where
  version : UInt16
  digest : ContentFingerprint
deriving DecidableEq

/-- `optional`. -/
def optionalParts : Option String → List Bytes
  | none => [utf8 "none"]
  | some value => [utf8 "some", utf8 value]

/-- `actor`. -/
def actorParts : Option ActorRef → List Bytes
  | none => [utf8 "none"]
  | some actor => [utf8 "some", utf8 actor.ns.value, utf8 actor.id.value]

def eventParts (event : NewEvent) : List Bytes :=
  [utf8 "event", utf8 event.eventId.value, utf8 event.eventType,
    beBytes 4 event.schemaVersion.toNat, event.payload]

def batchParts (attributed : Bool) (batch : EventBatch) : List Bytes :=
  [utf8 "batch", utf8 batch.commitId.value, utf8 batch.operationId.value,
      batch.operationFingerprint.toList] ++
    optionalParts (batch.correlationId.map (·.value)) ++
    optionalParts (batch.causationId.map (·.value)) ++
    (if attributed then actorParts batch.actor else []) ++
    batch.events.flatMap eventParts ++ [utf8 "end-batch"]

def participantParts (attributed : Bool) (p : TransactionParticipant) : List Bytes :=
  [utf8 "participant", utf8 p.streamId.aggregateType.value, utf8 p.streamId.aggregateId.value] ++
    match p.batch with
    | some batch => batchParts attributed batch
    | none => [utf8 "guard"]

section Of

variable [Crates]

/-- The JSON text of the completion; `null` without one. -/
def completionBytes (completion : Option CommandCompletion) : Bytes :=
  toVec (.orNull (completion.map CommandCompletion.toJson))

/-- The parts before the participants. -/
def headParts (t : EventTransaction) : List Bytes :=
  [if t.actor.isSome then utf8 "rostfrei:proposal:v2" else utf8 "rostfrei:proposal:v1"] ++
    optionalParts (t.boundedContext.map (·.value)) ++
    [utf8 t.operationId.value, t.operationFingerprint.toList] ++
    optionalParts (t.correlationId.map (·.value)) ++
    optionalParts (t.causationId.map (·.value)) ++
    optionalParts (t.securityScope.map (·.value)) ++
    (if t.actor.isSome then actorParts t.actor else []) ++
    [completionBytes t.completion]

/-- The framed parts of a transaction. -/
def proposalParts (t : EventTransaction) : List Bytes :=
  headParts t ++ t.participants.flatMap (participantParts t.actor.isSome) ++
    [utf8 "end-proposal"]

/-- The digest of the framed parts. -/
def ProposalDigest.hash (t : EventTransaction) : ProposalDigest where
  version := if t.actor.isSome then 2 else 1
  digest := sha256 (frames (proposalParts t))

/-- `ProposalDigest::of`: only defined if every batch has the transaction's actor. -/
def ProposalDigest.of (t : EventTransaction) : Except EventStoreError ProposalDigest := do
  rejectIf (t.batches.any (·.actor ≠ t.actor))
    (invalid "participant actor differs from transaction actor")
  return .hash t

theorem ProposalDigest.of_eq_ok {t : EventTransaction} {d : ProposalDigest} :
    ProposalDigest.of t = .ok d ↔ (∀ b ∈ t.batches, b.actor = t.actor) ∧ d = .hash t := by
  simp only [ProposalDigest.of, bind_eq_ok, rejectIf_eq_ok, pure_eq_ok, List.any_eq_true,
    decide_eq_true_eq, not_exists, not_and, ne_eq, not_not]
  constructor
  · rintro ⟨-, h, rfl⟩
    exact ⟨h, rfl⟩
  · rintro ⟨h, rfl⟩
    exact ⟨(), h, rfl⟩

/-- `ProposalDigest::restore`. -/
def ProposalDigest.restore (version : UInt16) (digest : ContentFingerprint) :
    Except EventStoreError ProposalDigest := do
  rejectIf (version ≠ 1 ∧ version ≠ 2) (corrupt "unsupported proposal digest version")
  return ⟨version, digest⟩

end Of

end Rostfrei
