import Rostfrei.Core.Details
import Rostfrei.Core.Staging
import Rostfrei.Nats.Receipt
import Rostfrei.Nats.RoundTrip

/-!
# Staging a transaction, and recovering it from its receipt

`stageTransaction` is what `append_transaction_with_histories` does with the histories it has
loaded, up to the messages that it publishes: the checks of the request, and one staged participant
for each of the transaction. `proposalFromReceipt` goes the other way, from a recorded receipt to
the proposal, and `validateRecovered` accepts the details of a marker only if the proposal made
from them leads to the same marker.

A staged receipt is one of `Core.Staging` (`stages_stagedReceipt`), so the way back leads to the
very transaction that was staged (`proposalFromReceipt_staged`), whichever of its optional parts
are there and whatever its participants are.
-/

namespace Rostfrei.Nats

open Lib

section Staging

variable [Crates]

/-! ## The checks of a request -/

omit [Crates] in
/-- The loop of `validate_transaction_shape`; `seen` are the streams before. -/
def checkShape (t : EventTransaction) :
    List StreamId → List TransactionParticipant → Except EventStoreError Unit
  | _, [] => .ok ()
  | seen, p :: rest => do
    rejectIf (p.batch.any (·.actor ≠ t.actor))
      (invalid "participant actor does not match its transaction")
    rejectIf (p.streamId ∈ seen)
      (invalid "an event transaction must not contain duplicate streams")
    checkShape t (p.streamId :: seen) rest

omit [Crates] in
/-- `validate_transaction_shape`. -/
def validateTransactionShape (t : EventTransaction) : Except EventStoreError Unit :=
  checkShape t [] t.participants

omit [Crates] in
/-- `validate_transaction_participant_requests`. -/
def validateTransactionParticipantRequests (t : EventTransaction) : Except EventStoreError Unit :=
  t.participants.forM fun p => do
    rejectIf (p.expectedVersion = .exact 0)
      (invalid "Exact requires a non-zero stream version; use NoStream for an absent stream")
    match p.batch with
    | none => return ()
    | some batch =>
      rejectIf
        (batch.operationId ≠ t.operationId ∨ batch.operationFingerprint ≠ t.operationFingerprint ∨
          batch.correlationId ≠ t.correlationId ∨ batch.causationId ≠ t.causationId)
        (invalid "participant commit metadata does not match its transaction")

omit [Crates] in
/-- `validate_expected_version`. -/
def validateExpectedVersion (expected : ExpectedVersion) (current : Nat) :
    Except EventStoreError Unit :=
  checkExpectedVersion
    (.new .conflict ("expected version does not match current version " ++ toString current))
    expected current

/-- `validate_derived_identities`, the checks of the in-memory store. -/
def validateDerivedIdentities (streamId : StreamId) (batch : EventBatch) :
    Except EventStoreError Unit :=
  Memory.validateDerivedIdentities streamId batch

/-! ## Staging -/

omit [Crates] in
/-- `same_batch`. -/
def sameBatch (stored incoming : EventBatch) : Bool :=
  stored.commitId = incoming.commitId && stored.operationId = incoming.operationId &&
    stored.operationFingerprint = incoming.operationFingerprint &&
    stored.correlationId = incoming.correlationId && stored.causationId = incoming.causationId &&
    stored.actor = incoming.actor && stored.events = incoming.events

omit [Crates] in
/-- `resolve_existing`: the events of the batch if the history has it. -/
def resolveExisting (history : History) (batch : EventBatch) :
    Except EventStoreError (Option (List RecordedEvent)) :=
  match history.commits.find? (·.batch.operationId = batch.operationId) with
  | some previous =>
    if previous.transaction.isSome then
      .error (identityConflict "operation identity was already used by an event transaction")
    else if sameBatch previous.batch batch then .ok (some previous.events)
    else .error (identityConflict "operation identity was reused with different content")
  | none => do
    rejectIf (history.commits.any (·.batch.commitId = batch.commitId))
      (identityConflict "commit identity was reused with different content")
    rejectIf (batch.events.any fun incoming =>
        history.events.any fun stored => stored.eventId = incoming.eventId)
      (identityConflict "event identity was reused with different content")
    return none

omit [Crates] in
/-- `transaction_participant_has_conflicting_identity`. -/
def transactionParticipantHasConflictingIdentity (history : History) (p : TransactionParticipant) :
    Except EventStoreError Bool :=
  match p.batch with
  | none => .ok false
  | some batch =>
    match resolveExisting history batch with
    | .ok existing => .ok existing.isSome
    | .error e => if e.kind = .identityConflict then .ok true else .error e

/-- The events that a participant records at this version; none for a guard. -/
def recordParticipant (p : TransactionParticipant) (baseVersion : Nat) :
    Except EventStoreError (List RecordedEvent) :=
  match p.batch with
  | none => return []
  | some batch => do
    validateDerivedIdentities p.streamId batch
    recordBatch p.streamId baseVersion batch

/-- The body of the staging loop; `none` if the identities of the participant are taken. -/
def stageParticipant (history : History) (p : TransactionParticipant) :
    Except EventStoreError (Option StagedTransactionParticipant) := do
  let taken ← transactionParticipantHasConflictingIdentity history p
  if taken then return none
  else
    validateExpectedVersion p.expectedVersion history.version
    let recorded ← recordParticipant p history.version
    return some
      { streamId := p.streamId
        baseVersion := history.version
        lastSubjectStreamSequence := history.lastSubjectStreamSequence
        batch := p.batch
        recorded := recorded }

/-- The staging loop; it ends at the first participant whose identities are taken. -/
def stageParticipants (histories : StreamId → History) :
    List TransactionParticipant → Except EventStoreError (Option (List StagedTransactionParticipant))
  | [] => return some []
  | p :: rest => do
    let staged ← stageParticipant (histories p.streamId) p
    match staged with
    | none => return none
    | some staged => do
      let rest ← stageParticipants histories rest
      return rest.map (staged :: ·)

/-- `append_transaction_with_histories` up to its messages, for an operation without a receipt;
`none` if it answers from the receipt of another publisher. -/
def stageTransaction (config : NatsEventStoreConfig) (t : EventTransaction)
    (histories : StreamId → History) :
    Except EventStoreError (Option (List StagedTransactionParticipant)) := do
  rejectIf (t.boundedContext.any (· ≠ config.boundedContext))
    (invalid ("transaction context does not match event-store context `" ++
      config.boundedContext.value ++ "`"))
  validateTransactionShape t
  let _ ← validateTransactionItemLimit t
  validateTransactionParticipantRequests t
  stageParticipants histories t.participants

omit [Crates] in
/-- `staged_receipt`. -/
def stagedReceipt (proposal : EventTransaction) (staged : List StagedTransactionParticipant) :
    TransactionReceipt where
  actor := proposal.actor
  securityScope := proposal.securityScope
  completion := none
  boundedContext := proposal.boundedContext
  operationId := proposal.operationId
  operationFingerprint := proposal.operationFingerprint
  correlationId := proposal.correlationId
  causationId := proposal.causationId
  streams := staged.map fun s => ⟨s.streamId, s.baseVersion, s.recorded⟩

/-! ## Recovery -/

omit [Crates] in
/-- The batch of recorded events; none for a guard. -/
def receiptBatch (receipt : TransactionReceipt) (stream : TransactionStreamReceipt) :
    Except EventStoreError (Option EventBatch) :=
  match stream.events with
  | [] => return none
  | first :: _ => do
    let events ← (stream.events.mapM fun e =>
      NewEvent.new e.eventId e.eventType e.schemaVersion e.payload).mapError
        fun e => corrupt e.toString
    let batch ← (EventBatch.new first.commitId receipt.operationId receipt.operationFingerprint
      events).mapError fun e => corrupt e.toString
    return some { batch with
      correlationId := receipt.correlationId
      causationId := receipt.causationId
      actor := receipt.actor }

omit [Crates] in
/-- The participant of a part of the receipt. -/
def receiptParticipant (receipt : TransactionReceipt) (stream : TransactionStreamReceipt) :
    Except EventStoreError TransactionParticipant := do
  let batch ← receiptBatch receipt stream
  return ⟨stream.streamId, .ofBase stream.baseVersion, batch⟩

/-- `proposal_from_receipt`. -/
def proposalFromReceipt (receipt : TransactionReceipt) :
    Except EventStoreError EventTransaction := do
  receipt.validateIntegrity
  let participants ← receipt.streams.mapM (receiptParticipant receipt)
  return {
    actor := receipt.actor
    securityScope := receipt.securityScope
    completion := receipt.completion
    boundedContext := receipt.boundedContext
    operationId := receipt.operationId
    operationFingerprint := receipt.operationFingerprint
    correlationId := receipt.correlationId
    causationId := receipt.causationId
    participants := participants }

omit [Crates] in
/-- The receipt of a marker with the completion of its details. -/
def recoveredReceipt (marker : OutcomeMarker) (details : EncodedOutcomeDetails) :
    TransactionReceipt :=
  match details.completion with
  | some completion => { marker.integrity with completion := some completion }
  | none => marker.integrity

/-- `validate_recovered`. -/
def validateRecovered (marker : OutcomeMarker) (details : EncodedOutcomeDetails) :
    Except EventStoreError Unit := do
  let receipt := recoveredReceipt marker details
  let proposal ← proposalFromReceipt receipt
  let (reconstructed, _) ← OutcomeMarker.prepare marker.reference.key.authority proposal receipt
  rejectIf (reconstructed ≠ marker)
    (corrupt "recovered details/proposal/permanent manifest mismatch")

/-! ## What a staged transaction has passed -/

omit [Crates] in
theorem checkShape_eq_ok {t : EventTransaction} {seen : List StreamId}
    {ps : List TransactionParticipant} :
    checkShape t seen ps = .ok () ↔
      (∀ p ∈ ps, ∀ b ∈ p.batch, b.actor = t.actor) ∧ (ps.map (·.streamId)).Nodup ∧
        ∀ p ∈ ps, p.streamId ∉ seen := by
  induction ps generalizing seen with
  | nil => simp [checkShape]
  | cons p ps ih =>
    have hactor : ¬ p.batch.any (·.actor ≠ t.actor) ↔ ∀ b ∈ p.batch, b.actor = t.actor := by
      cases p.batch <;> simp
    rw [checkShape, bind_unit_eq_ok, bind_unit_eq_ok, rejectIf_eq_ok, rejectIf_eq_ok, ih, hactor,
      List.forall_mem_cons, List.forall_mem_cons, List.map_cons, List.nodup_cons, List.mem_map]
    constructor
    · rintro ⟨hp, hseen, hactors, hnodup, hrest⟩
      refine ⟨⟨hp, hactors⟩, ⟨?_, hnodup⟩, hseen, fun q hq hmem => ?_⟩
      · rintro ⟨q, hq, heq⟩
        exact hrest q hq (by simp [heq])
      · exact hrest q hq (List.mem_cons_of_mem _ hmem)
    · rintro ⟨⟨hp, hactors⟩, ⟨hne, hnodup⟩, hseen, hrest⟩
      refine ⟨hp, hseen, hactors, hnodup, fun q hq hmem => ?_⟩
      rcases List.mem_cons.mp hmem with heq | hmem
      · exact hne ⟨q, hq, heq⟩
      · exact hrest q hq hmem

omit [Crates] in
/-- Together with the shape, a batch of a checked request has the transaction's metadata. -/
theorem metadata_of_requests {t : EventTransaction} (hshape : validateTransactionShape t = .ok ())
    (h : validateTransactionParticipantRequests t = .ok ()) {p : TransactionParticipant}
    (hp : p ∈ t.participants) {b : EventBatch} (hb : p.batch = some b) : MetadataMatches t b := by
  have hactor := (checkShape_eq_ok.mp hshape).1 p hp b hb
  have hrequest := forM_eq_ok.mp h p hp
  rw [bind_unit_eq_ok, hb] at hrequest
  simp only [rejectIf_eq_ok, not_or, not_not, ne_eq] at hrequest
  obtain ⟨-, hoperation, hfingerprint, hcorrelation, hcausation⟩ := hrequest
  exact ⟨hoperation, hfingerprint, hcorrelation, hcausation, hactor⟩

/-- A staged participant is placed at the version that it expects. -/
theorem stageParticipant_eq_some {t : EventTransaction} {history : History}
    {p : TransactionParticipant} {s : StagedTransactionParticipant}
    (hmetadata : ∀ b ∈ p.batch, MetadataMatches t b)
    (h : stageParticipant history p = .ok (some s)) :
    StagesAs t p ⟨s.streamId, s.baseVersion, s.recorded⟩ := by
  simp only [stageParticipant, bind_eq_ok] at h
  obtain ⟨taken, -, h⟩ := h
  cases taken with
  | true => simp at h
  | false =>
    simp only [Bool.false_eq_true, if_false, bind_eq_ok, pure_eq_ok, Option.some.injEq] at h
    obtain ⟨_, hexpected, recorded, hrecorded, rfl⟩ := h
    refine ⟨rfl, checkExpectedVersion_eq_ok.mp hexpected, ?_, hmetadata, ?_, ?_⟩ <;>
      rcases hb : p.batch with _ | b <;>
      simp only [recordParticipant, hb, bind_unit_eq_ok, recordBatch_eq_ok, pure_eq_ok,
        validateDerivedIdentities, Memory.validateDerivedIdentities_eq_ok] at hrecorded
    · exact hrecorded.symm
    · exact hrecorded.2.2
    · simp
    · simpa using hrecorded.1
    · simp
    · simpa using hrecorded.2.1

theorem stageParticipants_eq_some {t : EventTransaction} {histories : StreamId → History}
    {ps : List TransactionParticipant} {staged : List StagedTransactionParticipant}
    (hmetadata : ∀ p ∈ ps, ∀ b ∈ p.batch, MetadataMatches t b)
    (h : stageParticipants histories ps = .ok (some staged)) :
    List.Forall₂ (StagesAs t) ps (staged.map fun s => ⟨s.streamId, s.baseVersion, s.recorded⟩) := by
  induction ps generalizing staged with
  | nil =>
    simp only [stageParticipants, pure_eq_ok, Option.some.injEq] at h
    subst h
    exact .nil
  | cons p ps ih =>
    simp only [stageParticipants, bind_eq_ok] at h
    obtain ⟨first, hfirst, h⟩ := h
    cases first with
    | none => simp at h
    | some first =>
      simp only [bind_eq_ok, pure_eq_ok, Option.map_eq_some_iff] at h
      obtain ⟨_, hrest, rest, rfl, rfl⟩ := h
      obtain ⟨hp, hps⟩ := List.forall_mem_cons.mp hmetadata
      exact .cons (stageParticipant_eq_some hp hfirst) (ih hps hrest)

/-- What is staged makes a receipt of the transaction, also with its completion. -/
theorem stages_stagedReceipt {config : NatsEventStoreConfig} {t : EventTransaction}
    {histories : StreamId → History} {staged : List StagedTransactionParticipant}
    (h : stageTransaction config t histories = .ok (some staged)) :
    (∃ n, validateTransactionItemLimit t = .ok n) ∧ Stages t (stagedReceipt t staged) ∧
      Stages t { stagedReceipt t staged with completion := t.completion } := by
  simp only [stageTransaction, bind_eq_ok] at h
  obtain ⟨_, -, _, hshape, n, hitems, _, hrequests, hstaged⟩ := h
  have hstreams := stageParticipants_eq_some
    (fun p hp b hb => metadata_of_requests hshape hrequests hp hb) hstaged
  have hnodup := (checkShape_eq_ok.mp hshape).2.1
  exact ⟨⟨n, hitems⟩,
    ⟨rfl, rfl, fun c hc => (by cases hc), rfl, rfl, rfl, rfl, rfl, hnodup, hstreams⟩,
    ⟨rfl, rfl, fun c hc => hc, rfl, rfl, rfl, rfl, rfl, hnodup, hstreams⟩⟩

/-! ## The way back -/

omit [Crates] in
/-- The recorded events of a batch have the contents of the batch's events. -/
theorem mapM_new_ofBatch (streamId : StreamId) (base : Nat) (b : EventBatch) :
    (RecordedEvent.ofBatch streamId base b).mapM (fun e =>
      NewEvent.new e.eventId e.eventType e.schemaVersion e.payload) = .ok b.events := by
  rw [mapM_eq_ok, List.forall₂_iff_get]
  refine ⟨RecordedEvent.length_ofBatch .., fun i hi hb => ?_⟩
  simp only [List.get_eq_getElem, RecordedEvent.ofBatch, List.getElem_mapIdx, RecordedEvent.fromNew]
  exact NewEvent.new_self _

/-- A staged participant is read back from its part of the receipt. -/
theorem receiptParticipant_staged {t : EventTransaction} {r : TransactionReceipt}
    {p : TransactionParticipant} {s : TransactionStreamReceipt} (hr : Stages t r)
    (h : StagesAs t p s) : receiptParticipant r s = .ok p := by
  have hbatch : receiptBatch r s = .ok p.batch := by
    unfold receiptBatch
    rcases hb : p.batch with _ | b
    · rw [h.events, hb]
      rfl
    · have hevents : s.events = RecordedEvent.ofBatch p.streamId s.baseVersion b := by
        rw [h.events, hb]
        rfl
      have hmeta := h.metadata b hb
      obtain ⟨first, rest, hcons⟩ :=
        List.exists_cons_of_ne_nil (RecordedEvent.ofBatch_ne_nil p.streamId s.baseVersion b)
      have hcommit : first.commitId = b.commitId := by
        have hmem : first ∈ RecordedEvent.ofBatch p.streamId s.baseVersion b := by simp [hcons]
        obtain ⟨i, hi, rfl⟩ := List.mem_iff_getElem.mp hmem
        simp [RecordedEvent.ofBatch, RecordedEvent.fromNew]
      have hoperation : r.operationId = b.operationId := hr.operation.trans hmeta.operationId.symm
      have hfingerprint : r.operationFingerprint = b.operationFingerprint :=
        hr.fingerprint.trans hmeta.operationFingerprint.symm
      have hnew := mapM_new_ofBatch p.streamId s.baseVersion b
      simp only [hevents, hcons] at hnew ⊢
      simp only [bind_eq_ok, mapError_eq_ok, pure_eq_ok, Option.some.injEq]
      refine ⟨b.events, hnew, _, by rw [hcommit, hoperation, hfingerprint]; exact b.new_self, ?_⟩
      rw [hr.correlation, hr.causation, hr.actor, ← hmeta.correlationId, ← hmeta.causationId,
        ← hmeta.actor]
  rw [receiptParticipant, bind_eq_ok]
  refine ⟨p.batch, hbatch, ?_⟩
  rw [pure_eq_ok, h.stream, ← h.expected]

/-- The proposal made from a staged receipt is the transaction. -/
theorem proposalFromReceipt_staged {t : EventTransaction} {r : TransactionReceipt}
    (h : Stages t r) (hcompletion : r.completion = t.completion)
    (hcompleted : CompletionChecked t) : proposalFromReceipt r = .ok t := by
  have hparticipants : r.streams.mapM (receiptParticipant r) = .ok t.participants :=
    mapM_eq_ok.mpr (h.streams.flip.imp fun _ _ hs => receiptParticipant_staged h hs)
  rw [proposalFromReceipt, bind_unit_eq_ok, bind_eq_ok]
  refine ⟨h.validateIntegrity hcompleted, _, hparticipants, ?_⟩
  rw [pure_eq_ok, hcompletion, h.actor, h.scope, h.context, h.operation, h.fingerprint,
    h.correlation, h.causation]

/-- The way back from what a transaction commits with. If `stageTransaction` accepts `t` (whose
completion, if there is one, was checked by every caller), its receipt with the completion restored
leads to a proposal with the digest of `t`; and whenever a marker is prepared for it, the details
decode and are accepted as recovered. -/
theorem committed_outcome_recovered [Crates.Lawful] {config : NatsEventStoreConfig}
    {t : EventTransaction} {histories : StreamId → History}
    {staged : List StagedTransactionParticipant}
    (hcompleted : t.completion.isSome → validateCompletedTransaction t = .ok ())
    (hstaged : stageTransaction config t histories = .ok (some staged)) :
    (∃ proposal digest,
      proposalFromReceipt { stagedReceipt t staged with completion := t.completion } =
          .ok proposal ∧
        ProposalDigest.of proposal = .ok digest ∧ ProposalDigest.of t = .ok digest) ∧
      ∀ authority marker bytes,
        OutcomeMarker.prepare authority t (stagedReceipt t staged) = .ok (marker, bytes) →
        (∃ details, EncodedOutcomeDetails.decode marker.reference bytes = .ok details) ∧
          ∀ details, EncodedOutcomeDetails.decode marker.reference bytes = .ok details →
            validateRecovered marker details = .ok () := by
  obtain ⟨⟨n, hitems⟩, hplain, hrestored⟩ := stages_stagedReceipt hstaged
  have hproposal := proposalFromReceipt_staged hrestored rfl hcompleted
  have hactors := hplain.actors
  refine ⟨⟨t, .hash t, hproposal, ProposalDigest.of_eq_ok.mpr ⟨hactors, rfl⟩,
    ProposalDigest.of_eq_ok.mpr ⟨hactors, rfl⟩⟩, fun authority marker bytes hprepare => ?_⟩
  obtain ⟨hvalid, -, context, hcontext, hencode, rfl⟩ := OutcomeMarker.prepare_eq_ok.mp hprepare
  have hdecode := EncodedOutcomeDetails.decode_encode (TransactionReceipt.valid_completion hvalid)
    hencode
  refine ⟨⟨_, hdecode⟩, fun details hdetails => ?_⟩
  obtain rfl := Except.ok.inj (hdecode.symm.trans hdetails)
  -- The restored receipt is the staged one with the completion, so the marker is made again.
  have hreceipt : recoveredReceipt
      (.ofDetails ⟨authority, context, t.operationId⟩ t (stagedReceipt t staged) bytes)
      ⟨detailReference ⟨authority, context, t.operationId⟩ t bytes, t.completion⟩ =
        { stagedReceipt t staged with completion := t.completion } := by
    unfold recoveredReceipt
    cases t.completion <;> rfl
  have hagain : OutcomeMarker.prepare authority t
      { stagedReceipt t staged with completion := t.completion } =
        .ok (.ofDetails ⟨authority, context, t.operationId⟩ t (stagedReceipt t staged) bytes,
          bytes) :=
    OutcomeMarker.prepare_eq_ok.mpr
      ⟨hrestored.validateProposal hcompleted hitems, hactors, context, hcontext, hencode, rfl⟩
  simp only [validateRecovered, hreceipt, bind_eq_ok, rejectIf_eq_ok]
  exact ⟨t, hproposal, _, hagain, fun hne => hne rfl⟩

end Staging

namespace Sample

attribute [local instance] Crates.concrete

open Rostfrei.Sample (authority opening)

/-- The decision to open the account in a journal without events. -/
theorem committed_outcome_recovered_opening :
    ∃ staged, stageTransaction config (opening .noStream) (fun _ => {}) = .ok (some staged) ∧
      ∃ marker bytes details,
        OutcomeMarker.prepare authority (opening .noStream) (stagedReceipt (opening .noStream)
          staged) = .ok (marker, bytes) ∧
        EncodedOutcomeDetails.decode marker.reference bytes = .ok details ∧
        validateRecovered marker details = .ok () := by
  have := Crates.concrete_lawful
  have := Crates.concrete_compact
  have hchecked : CompletionChecked (opening .noStream) := fun _ => by decide +kernel
  obtain ⟨staged, hstaged⟩ : ∃ staged,
      stageTransaction config (opening .noStream) (fun _ => {}) = .ok (some staged) := by
    refine ⟨[⟨Rostfrei.Sample.stream, 0, 0, some Rostfrei.Sample.batch, [Rostfrei.Sample.event]⟩], ?_⟩
    decide +kernel
  obtain ⟨⟨n, hitems⟩, hplain, -⟩ := stages_stagedReceipt hstaged
  obtain ⟨bytes, hprepare⟩ := hplain.exists_prepare hchecked hitems authority rfl
  obtain ⟨⟨details, hdecode⟩, hrecovered⟩ :=
    (committed_outcome_recovered hchecked hstaged).2 _ _ _ hprepare
  exact ⟨staged, hstaged, _, _, details, hprepare, hdecode, hrecovered details hdecode⟩

end Sample

end Rostfrei.Nats
