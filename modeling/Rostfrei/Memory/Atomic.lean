import Rostfrei.Memory.Frame

/-!
# Appends and transactions are atomic

A call that fails leaves the state as it was. A fresh commit changes exactly what belongs to it:
every written stream grows by its batch, the indexes gain the entries of the commit, and all else
stays (`append_frame`, `appendTransaction_frame`).
-/

namespace Rostfrei

open Lib

namespace InMemoryEventStore

open Memory

variable [Crates] {store : InMemoryEventStore} {st st' : State} {t : EventTransaction}

/-- A transaction without a completion is stored as an acceptance of its receipt. -/
theorem acceptance_of_prepared {proposal : ProposalDigest} {receipt : TransactionReceipt}
    {stored : StoredTransaction} {detail : Option (OutcomeDetailReference × DetailState)}
    (hnone : t.completion = none) (hreceipt : receipt.completion = none)
    (h : store.prepareStored t proposal receipt = .ok (stored, detail)) :
    stored.acceptance = .ok receipt := by
  obtain ⟨context, bytes, -, -, -, rfl, -⟩ | ⟨-, rfl, -⟩ := prepareStored_ok h
  · have hdecision : (OutcomeMarker.ofDetails ⟨store.authority, context, t.operationId⟩ t receipt
        bytes).decision = .accepted := by
      simp [OutcomeMarker.decision, OutcomeMarker.ofDetails, detailReference,
        completionDecision, hnone]
    rw [StoredTransaction.acceptance, if_neg (by rw [hdecision]; decide)]
    simp [OutcomeMarker.ofDetails, TransactionReceipt.withoutCompletion, ← hreceipt]
  · rfl

/-- What is stored for a committed transaction keeps its digest. -/
theorem proposal_of_prepared {receipt : TransactionReceipt} {stored : StoredTransaction}
    {detail : Option (OutcomeDetailReference × DetailState)}
    (h : store.prepareStored t (.hash t) receipt = .ok (stored, detail)) :
    stored.proposal = .hash t := by
  obtain ⟨context, bytes, -, -, -, rfl, -⟩ | ⟨-, rfl, -⟩ := prepareStored_ok h <;> rfl

/-- A transaction that is answered commits or replays, and its answer is an acceptance. -/
theorem appendTransaction_ok {outcome : TransactionAppendOutcome}
    (h : store.appendTransaction t st = .ok outcome st') :
    t.completion = none ∧
      ((∃ stored receipt, outcome = .exactReplay receipt ∧ st' = st ∧
        st.transactions.lookup (t.boundedContext, t.operationId) = some stored ∧
        stored.proposal = .hash t ∧ stored.acceptance = .ok receipt) ∨
      (∃ stored detail, outcome = .appended (receiptIn st t) ∧ store.Commits st t stored detail ∧
        st' = committed st t stored detail)) := by
  simp only [appendTransaction, run_bind_ok, run_lift_ok, run_pure_ok, rejectIf_eq_ok,
    Bool.not_eq_true, Option.isSome_eq_false_iff, Option.isNone_iff_eq_none] at h
  obtain ⟨_, _, ⟨hnone, rfl⟩, ⟨stored, replay⟩, _, hinner, receipt, _, ⟨haccept, rfl⟩, rfl, rfl⟩ := h
  refine ⟨hnone, ?_⟩
  obtain ⟨rfl, rfl, hl, hp⟩ | ⟨rfl, detail, hc, rfl⟩ := appendTransactionInner_ok hinner
  · exact .inl ⟨stored, receipt, rfl, rfl, hl, hp, haccept⟩
  · have hsame := acceptance_of_prepared hnone rfl hc.prepared
    obtain rfl := Except.ok.inj (haccept.symm.trans hsame)
    exact .inr ⟨stored, detail, rfl, hc, rfl⟩

/-- A transaction that is refused changes nothing: a fresh commit is always answered. -/
theorem appendTransaction_error {e : EventStoreError}
    (h : store.appendTransaction t st = .error e st') : st' = st := by
  simp only [appendTransaction, run_bind_error, run_lift_ok, run_lift_error, run_pure_error,
    rejectIf_eq_ok, and_false, exists_false, or_false, Bool.not_eq_true,
    Option.isSome_eq_false_iff, Option.isNone_iff_eq_none] at h
  obtain ⟨-, rfl⟩ | ⟨_, _, ⟨hnone, rfl⟩, hinner | ⟨⟨stored, replay⟩, _, hinner, herr, rfl⟩⟩ := h
  · rfl
  · exact appendTransactionInner_error hinner
  · obtain ⟨-, rfl, -⟩ | ⟨-, detail, hc, -⟩ := appendTransactionInner_ok hinner
    · rfl
    · rw [acceptance_of_prepared hnone rfl hc.prepared] at herr
      cases herr

/-- The entries that a transaction adds to the transactions and to the details. -/
structure RecordsOutcome (st st' : State) (t : EventTransaction) (receipt : TransactionReceipt)
    (authority : CommandAuthority) : Prop where
  transaction : ∃ stored, stored.acceptance = .ok receipt ∧ stored.proposal = .hash t ∧
    st'.transactions = st.transactions.insert (t.boundedContext, t.operationId) stored ∧
    match t.boundedContext with
    | none => st'.details = st.details
    | some context => ∃ marker bytes, stored = .scoped marker ∧
        marker.reference = detailReference ⟨authority, context, t.operationId⟩ t bytes ∧
        st'.details = st.details.insert marker.reference (.active bytes)

theorem recordsOutcome_committed {stored : StoredTransaction}
    {detail : Option (OutcomeDetailReference × DetailState)} (hnone : t.completion = none)
    (h : store.Commits st t stored detail) :
    RecordsOutcome st (committed st t stored detail) t (receiptIn st t) store.authority := by
  refine ⟨stored, acceptance_of_prepared hnone rfl h.prepared, proposal_of_prepared h.prepared,
    committed_transactions .., ?_⟩
  obtain ⟨context, bytes, hctx, -, -, rfl, rfl⟩ | ⟨hctx, rfl, rfl⟩ :=
    prepareStored_ok h.prepared
  · rw [hctx]
    exact ⟨_, bytes, rfl, rfl, committed_details ..⟩
  · rw [hctx]
    exact committed_details ..

/-- In every state, an append or a transaction that fails or replays leaves the state exactly as it
was, and one that commits changes exactly what belongs to the commit: the written streams, the
entries of the commit in each index, and the counter. -/
theorem calls_atomic (store : InMemoryEventStore) (st : State) :
    (∀ streamId expected batch,
      match store.append streamId expected batch st with
      | .error _ st' => st' = st
      | .ok (.exactReplay _) st' => st' = st
      | .ok (.appended events) st' =>
        events = RecordedEvent.ofBatch streamId (st.currentVersion streamId) batch ∧
          Records st st' .direct [⟨streamId, expected, some batch⟩] ∧
          st'.transactions = st.transactions ∧ st'.details = st.details ∧
          st'.eventCount = st.eventCount + batch.events.length) ∧
    ∀ t : EventTransaction,
      match store.appendTransaction t st with
      | .error _ st' => st' = st
      | .ok (.exactReplay _) st' => st' = st
      | .ok (.appended receipt) st' =>
        receipt = receiptIn st t ∧ (t.participants.map (·.streamId)).Nodup ∧
          Records st st' .transaction t.participants ∧
          RecordsOutcome st st' t receipt store.authority ∧
          st'.eventCount = st.eventCount + t.eventCount := by
  constructor
  · intro streamId expected batch
    cases hr : store.append streamId expected batch st with
    | error e st' => exact append_error hr
    | ok outcome st' =>
      obtain ⟨_, -, -, -, rfl, rfl⟩ | ⟨-, rfl, rfl⟩ := append_ok hr
      · rfl
      · exact ⟨rfl, records_appended st streamId expected batch, rfl, rfl, rfl⟩
  · intro t
    cases hr : store.appendTransaction t st with
    | error e st' => exact appendTransaction_error hr
    | ok outcome st' =>
      obtain ⟨hnone, ⟨_, _, rfl, rfl, -⟩ | ⟨stored, detail, rfl, hc, rfl⟩⟩ :=
        appendTransaction_ok hr
      · rfl
      · exact ⟨rfl, hc.admissible.nodup, records_committed st stored detail hc.admissible.nodup,
          recordsOutcome_committed hnone hc, rfl⟩

/-- A direct append succeeds exactly for a batch that is there and for a fresh one with room, it
changes nothing when it fails, and repeated at any expected version it answers what it did. -/
theorem append_exact (store : InMemoryEventStore) (st : State) (streamId : StreamId)
    (expected : ExpectedVersion) (batch : EventBatch) :
    (∀ outcome st', store.append streamId expected batch st = .ok outcome st' ↔
      (∃ previous, st.operations.lookup (streamId, batch.operationId) = some previous ∧
        previous.provenance = .direct ∧ previous.batch = batch ∧
        outcome = .exactReplay previous.events ∧ st' = st) ∨
      (store.Appends st streamId expected batch ∧
        outcome = .appended
          (RecordedEvent.ofBatch streamId (st.currentVersion streamId) batch) ∧
        st' = appended st streamId batch)) ∧
    (∀ e st', store.append streamId expected batch st = .error e st' → st' = st) ∧
    ∀ events st', store.append streamId expected batch st = .ok (.appended events) st' →
      ∀ expected', store.append streamId expected' batch st' = .ok (.exactReplay events) st' := by
  refine ⟨fun outcome st' => ⟨append_ok, ?_⟩, fun e st' => append_error, ?_⟩
  · rintro (⟨previous, hop, hdirect, hbatch, rfl, rfl⟩ | ⟨happends, rfl, rfl⟩)
    · exact append_recorded hop hdirect hbatch
    · exact append_appends happends
  · intro events st' h expected'
    obtain ⟨_, -, -, -, houtcome, -⟩ | ⟨-, houtcome, rfl⟩ := append_ok h
    · cases houtcome
    · obtain rfl := AppendOutcome.appended.inj houtcome
      have hop : (appended st streamId batch).operations.lookup (streamId, batch.operationId) =
          some ⟨batch, RecordedEvent.ofBatch streamId (st.currentVersion streamId) batch, .direct⟩ := by
        simp [appended, State.recordAppend]
      exact append_recorded hop rfl rfl

end InMemoryEventStore

end Rostfrei
