import Rostfrei.Memory.Reachable
import Rostfrei.Concrete

/-!
# One winner for each operation

A context and an operation identity have at most one recorded transaction. Once it is there, every
later proposal for the same operation is answered from the record, before any version, capacity or
identity check: `RetryLaw` lists the answers, and `one_winner` shows that they are given in every
state of a run after the winner.

Requests that a call refuses by their shape alone (`Shaped`, `validateCompletedTransaction`) never
reach the record; `completed_retry_refused` is such a case.
-/

namespace Rostfrei

open Lib

namespace InMemoryEventStore

open Memory

variable [Crates] {store : InMemoryEventStore} {st st' : State} {t winner : EventTransaction}
  {context : BoundedContextName} {marker : OutcomeMarker} {bytes : Bytes}

/-- The shape that every transaction call checks first. -/
structure Shaped (t : EventTransaction) : Prop where
  items : t.eventCount + t.guardCount + transactionReceiptItems ≤ maxTransactionItems
  actors : ∀ b ∈ t.batches, b.actor = t.actor

/-- The transaction is recorded under its context with this marker and these detail bytes. -/
structure Recorded (store : InMemoryEventStore) (context : BoundedContextName)
    (winner : EventTransaction) (receipt : TransactionReceipt) (marker : OutcomeMarker)
    (bytes : Bytes) : Prop where
  boundedContext : winner.boundedContext = some context
  valid : ∀ c ∈ winner.completion, c.validate = .ok ()
  encode : EncodedOutcomeDetails.encode winner.completion
    ⟨store.authority, context, winner.operationId⟩ winner.securityScope winner.actor = .ok bytes
  ofDetails : marker =
    .ofDetails ⟨store.authority, context, winner.operationId⟩ winner receipt bytes

omit [Crates] in
/-- The marker is at its key; its details are these, or have been withdrawn. -/
structure Holds (st : State) (context : BoundedContextName) (op : OperationId)
    (marker : OutcomeMarker) (bytes : Bytes) : Prop where
  transaction : st.transactions.lookup (some context, op) = some (.scoped marker)
  details : st.details.lookup marker.reference = some (.active bytes) ∨
    st.details.lookup marker.reference = some .expired

/-! ## The record is kept -/

/-- A call neither replaces a record nor writes its details, other than to withdraw them. -/
theorem Step.kept {op : OperationId} (hstep : Step store st st')
    (htransaction : st.transactions.lookup (some context, op) = some (.scoped marker))
    (hkey : marker.reference.key = ⟨store.authority, context, op⟩) :
    st'.transactions.lookup (some context, op) = some (.scoped marker) ∧
      (st'.details.lookup marker.reference = st.details.lookup marker.reference ∨
        st'.details.lookup marker.reference = some .expired) := by
  cases hstep with
  | same => exact ⟨htransaction, .inl rfl⟩
  | append ha => exact ⟨htransaction, .inl rfl⟩
  | @commit t stored detail hc =>
    have hne : (some context, op) ≠ (t.boundedContext, t.operationId) := by
      intro heq
      have := hc.key
      rw [← heq, htransaction] at this
      cases this
    refine ⟨?_, .inl ?_⟩
    · rw [committed_transactions, Finmap.lookup_insert_of_ne _ hne]
      exact htransaction
    · rw [committed_details]
      obtain ⟨context', bytes', hctx, -, -, -, rfl⟩ | ⟨-, -, rfl⟩ := prepareStored_ok hc.prepared
      · have href : marker.reference ≠
            detailReference ⟨store.authority, context', t.operationId⟩ t bytes' := by
          intro heq
          rw [heq] at hkey
          simp only [detailReference, OutcomeKey.mk.injEq, true_and] at hkey
          exact hne (by rw [hctx, hkey.1, hkey.2])
        simp only [Option.elim_some, Finmap.lookup_insert_of_ne _ href]
      · rfl
  | @expire context' op' marker' hrec hslot =>
    refine ⟨htransaction, ?_⟩
    by_cases href : marker.reference = marker'.reference
    · rw [href]
      exact .inr (Finmap.lookup_insert _)
    · exact .inl (Finmap.lookup_insert_of_ne _ href)

theorem Holds.step {op : OperationId} (h : Holds st context op marker bytes)
    (hkey : marker.reference.key = ⟨store.authority, context, op⟩) (hstep : Step store st st') :
    Holds st' context op marker bytes := by
  obtain ⟨htransaction, hsame | hexpired⟩ := hstep.kept h.transaction hkey
  · exact ⟨htransaction, hsame ▸ h.details⟩
  · exact ⟨htransaction, .inr hexpired⟩

/-! ## The answers -/

/-- A shaped transaction for a recorded operation is compared with the record only. -/
theorem appendTransactionInner_recorded {stored : StoredTransaction} (hshape : Shaped t)
    (hrec : st.transactions.lookup (t.boundedContext, t.operationId) = some stored) :
    store.appendTransactionInner t st =
      if stored.proposal = .hash t then .ok (stored, true) st
      else .error (identityConflict "transaction identity was reused with different content") st := by
  have hitems : validateTransactionItemLimit t = .ok t.eventCount :=
    validateTransactionItemLimit_eq_ok.mpr ⟨hshape.items, rfl⟩
  have hof : ProposalDigest.of t = .ok (.hash t) :=
    ProposalDigest.of_eq_ok.mpr ⟨hshape.actors, rfl⟩
  rw [appendTransactionInner, hitems, hof, run_lift_ok_bind, run_lift_ok_bind, run_get_bind, hrec]
  show (if stored.proposal = .hash t then pure (stored, true) else throw _ : StoreM _) st = _
  split <;> rfl

/-- The details of a record that the store reads back itself. -/
def recordedDetails (st : State) (winner : EventTransaction) (marker : OutcomeMarker) :
    OutcomeDetails :=
  if st.details.lookup marker.reference = some .expired then .expired
  else .available ⟨marker.reference, winner.completion⟩

/-- The store's own reader gives the winner's completion, until it is withdrawn. -/
theorem recoverMarker_recorded [Crates.Lawful] {receipt : TransactionReceipt}
    (hhot : store.hot = memoryDetails) (hrec : store.Recorded context winner receipt marker bytes)
    (h : Holds st context winner.operationId marker bytes) :
    store.recoverMarker st marker = .ok ⟨marker, recordedDetails st winner marker⟩ := by
  have hread : EncodedOutcomeDetails.decode marker.reference bytes =
      .ok ⟨marker.reference, winner.completion⟩ := by
    rw [hrec.ofDetails]
    exact EncodedOutcomeDetails.decode_encode hrec.valid hrec.encode
  obtain hactive | hexpired := h.details
  · simp [recoverMarker, resolveMarker, recordedDetails, hactive, hhot, memoryDetails,
      resolveDetails, resolveReads, hread, CompletedOutcome.new, validateDetailBinding,
      Except.mapError, rejectIf]
  · simp [recoverMarker, resolveMarker, recordedDetails, hexpired, CompletedOutcome.new,
      validateDetailBinding, Except.mapError]

/-- The completion is put back into the receipt, until it is withdrawn. -/
theorem inlineOutcome_recorded (st : State) (winner : EventTransaction)
    (hintegrity : marker.integrity.completion = none) :
    inlineOutcome ⟨marker, recordedDetails st winner marker⟩ =
      if st.details.lookup marker.reference = some .expired then .error (recoveryError .expired)
      else .ok { marker.integrity with completion := winner.completion } := by
  unfold recordedDetails
  split
  · rfl
  · rcases hc : winner.completion with _ | c
    · have hsame : { marker.integrity with completion := none } = marker.integrity := by
        rw [← hintegrity]
      simp [inlineOutcome, CompletedOutcome.toInline, validateDetailBinding,
        OutcomeDetails.getAvailable, Except.mapError, rejectIf, hsame]
    · simp [inlineOutcome, CompletedOutcome.toInline, validateDetailBinding,
        OutcomeDetails.getAvailable, Except.mapError, rejectIf]

/-- The receipt of a record with its completion, or the error after it was withdrawn. -/
def inlineAnswer (st : State) (winner : EventTransaction) (marker : OutcomeMarker) :
    EStateM.Result EventStoreError State CompletedAppendOutcome :=
  if st.details.lookup marker.reference = some .expired then .error (recoveryError .expired) st
  else .ok (.exactReplay { marker.integrity with completion := winner.completion }) st

/-- A transaction for the operation of the winner, in its context. -/
def SameOperation (t winner : EventTransaction) : Prop :=
  t.boundedContext = winner.boundedContext ∧ t.operationId = winner.operationId

/-- How a state with a recorded winner answers every proposal for its operation. None of the
answers depends on expected or current versions, and none changes the state. -/
structure RetryLaw (store : InMemoryEventStore) (st : State) (winner : EventTransaction)
    (marker : OutcomeMarker) : Prop where
  /-- The winner's digest again, as an acceptance: the winner's receipt. -/
  append_same : ∀ t, SameOperation t winner → Shaped t → t.completion = none →
    ProposalDigest.hash t = .hash winner →
    store.appendTransaction t st =
      if marker.decision = .rejected then
        .error (identityConflict "operation has a completed rejection, not acceptance") st
      else .ok (.exactReplay marker.integrity) st
  append_other : ∀ t, SameOperation t winner → Shaped t → t.completion = none →
    ProposalDigest.hash t ≠ .hash winner →
    store.appendTransaction t st =
      .error (identityConflict "transaction identity was reused with different content") st
  /-- The winner's digest again, as a completed decision: the winner's marker and details. -/
  session_same : ∀ t, SameOperation t winner → Shaped t → validateCompletedTransaction t = .ok () →
    ProposalDigest.hash t = .hash winner →
    store.sessionCommitOutcome t st =
      .ok (.exactReplay ⟨marker, recordedDetails st winner marker⟩) st
  session_other : ∀ t, SameOperation t winner → Shaped t →
    validateCompletedTransaction t = .ok () → ProposalDigest.hash t ≠ .hash winner →
    store.sessionCommitOutcome t st =
      .error (identityConflict "transaction identity was reused with different content") st
  commit_same : ∀ t, SameOperation t winner → Shaped t → validateCompletedTransaction t = .ok () →
    ProposalDigest.hash t = .hash winner →
    store.commitOutcome t st = inlineAnswer st winner marker
  commit_other : ∀ t, SameOperation t winner → Shaped t →
    validateCompletedTransaction t = .ok () → ProposalDigest.hash t ≠ .hash winner →
    store.commitOutcome t st =
      .error (identityConflict "transaction identity was reused with different content") st

section Law

variable {receipt : TransactionReceipt} (hrec : store.Recorded context winner receipt marker bytes)
  (h : Holds st context winner.operationId marker bytes) (hop : SameOperation t winner)
  (hshape : Shaped t)

include hrec h hop

theorem Holds.lookup :
    st.transactions.lookup (t.boundedContext, t.operationId) = some (.scoped marker) := by
  rw [hop.1, hop.2, hrec.boundedContext]
  exact h.transaction

include hshape

theorem inner_same (hsame : ProposalDigest.hash t = .hash winner) :
    store.appendTransactionInner t st = .ok (.scoped marker, true) st := by
  have hproposal : marker.proposal = .hash winner := by rw [hrec.ofDetails]; rfl
  rw [appendTransactionInner_recorded hshape (h.lookup hrec hop)]
  exact if_pos (hproposal.trans hsame.symm)

theorem inner_other (hother : ProposalDigest.hash t ≠ .hash winner) :
    store.appendTransactionInner t st =
      .error (identityConflict "transaction identity was reused with different content") st := by
  have hproposal : marker.proposal = .hash winner := by rw [hrec.ofDetails]; rfl
  rw [appendTransactionInner_recorded hshape (h.lookup hrec hop)]
  exact if_neg fun heq => hother (heq.symm.trans hproposal)

theorem appendTransaction_same (hnone : t.completion = none)
    (hsame : ProposalDigest.hash t = .hash winner) :
    store.appendTransaction t st =
      if marker.decision = .rejected then
        .error (identityConflict "operation has a completed rejection, not acceptance") st
      else .ok (.exactReplay marker.integrity) st := by
  have hinner := inner_same hrec h hop hshape hsame
  split
  · next hrejected =>
    rw [appendTransaction, run_bind_error]
    refine .inr ⟨(), st, by simp [hnone], ?_⟩
    rw [run_bind_error]
    refine .inr ⟨_, st, hinner, ?_⟩
    rw [run_bind_error]
    exact .inl (run_lift_error.mpr ⟨if_pos hrejected, rfl⟩)
  · next haccepted =>
    rw [appendTransaction, run_bind_ok]
    refine ⟨(), st, by simp [hnone], ?_⟩
    rw [run_bind_ok]
    refine ⟨_, st, hinner, ?_⟩
    rw [run_bind_ok]
    exact ⟨_, st, run_lift_ok.mpr ⟨if_neg haccepted, rfl⟩, rfl⟩

theorem appendTransaction_other (hnone : t.completion = none)
    (hother : ProposalDigest.hash t ≠ .hash winner) :
    store.appendTransaction t st =
      .error (identityConflict "transaction identity was reused with different content") st := by
  rw [appendTransaction, run_bind_error]
  refine .inr ⟨(), st, by simp [hnone], ?_⟩
  rw [run_bind_error]
  exact .inl (inner_other hrec h hop hshape hother)

theorem sessionCommitOutcome_same [Crates.Lawful] (hhot : store.hot = memoryDetails)
    (hvalid : validateCompletedTransaction t = .ok ())
    (hsame : ProposalDigest.hash t = .hash winner) :
    store.sessionCommitOutcome t st =
      .ok (.exactReplay ⟨marker, recordedDetails st winner marker⟩) st := by
  rw [sessionCommitOutcome, run_bind_ok]
  refine ⟨(), st, run_lift_ok.mpr ⟨hvalid, rfl⟩, ?_⟩
  rw [run_bind_ok]
  refine ⟨_, st, inner_same hrec h hop hshape hsame, ?_⟩
  simp only [run_bind_ok, run_get_ok, run_lift_ok, run_pure_ok]
  exact ⟨st, st, ⟨rfl, rfl⟩, _, st, ⟨recoverMarker_recorded hhot hrec h, rfl⟩, rfl, rfl⟩

theorem sessionCommitOutcome_other (hvalid : validateCompletedTransaction t = .ok ())
    (hother : ProposalDigest.hash t ≠ .hash winner) :
    store.sessionCommitOutcome t st =
      .error (identityConflict "transaction identity was reused with different content") st := by
  rw [sessionCommitOutcome, run_bind_error]
  refine .inr ⟨(), st, run_lift_ok.mpr ⟨hvalid, rfl⟩, ?_⟩
  rw [run_bind_error]
  exact .inl (inner_other hrec h hop hshape hother)

theorem commitOutcome_same [Crates.Lawful] (hhot : store.hot = memoryDetails)
    (hvalid : validateCompletedTransaction t = .ok ())
    (hsame : ProposalDigest.hash t = .hash winner) :
    store.commitOutcome t st = inlineAnswer st winner marker := by
  have hsession := sessionCommitOutcome_same hrec h hop hshape hhot hvalid hsame
  have hintegrity : marker.integrity.completion = none := by rw [hrec.ofDetails]; rfl
  have hinline := inlineOutcome_recorded st winner hintegrity
  unfold inlineAnswer
  split at hinline
  · next hexpired =>
    rw [if_pos hexpired, commitOutcome, run_bind_error]
    refine .inr ⟨_, st, hsession, ?_⟩
    rw [run_bind_error]
    exact .inl (run_lift_error.mpr ⟨hinline, rfl⟩)
  · next hactive =>
    rw [if_neg hactive, commitOutcome, run_bind_ok]
    refine ⟨_, st, hsession, ?_⟩
    rw [run_bind_ok]
    exact ⟨_, st, run_lift_ok.mpr ⟨hinline, rfl⟩, rfl⟩

theorem commitOutcome_other (hvalid : validateCompletedTransaction t = .ok ())
    (hother : ProposalDigest.hash t ≠ .hash winner) :
    store.commitOutcome t st =
      .error (identityConflict "transaction identity was reused with different content") st := by
  rw [commitOutcome, run_bind_error]
  exact .inl (sessionCommitOutcome_other hrec h hop hshape hvalid hother)

end Law

theorem retryLaw [Crates.Lawful] {receipt : TransactionReceipt} (hhot : store.hot = memoryDetails)
    (hrec : store.Recorded context winner receipt marker bytes)
    (h : Holds st context winner.operationId marker bytes) :
    store.RetryLaw st winner marker where
  append_same _ hop hshape hnone hsame := appendTransaction_same hrec h hop hshape hnone hsame
  append_other _ hop hshape hnone hother := appendTransaction_other hrec h hop hshape hnone hother
  session_same _ hop hshape := sessionCommitOutcome_same hrec h hop hshape hhot
  session_other _ hop hshape := sessionCommitOutcome_other hrec h hop hshape
  commit_same _ hop hshape := commitOutcome_same hrec h hop hshape hhot
  commit_other _ hop hshape := commitOutcome_other hrec h hop hshape

/-! ## Along runs -/

/-- A request leaves every record alone, or commits its own transaction under a free key. -/
theorem Request.apply_lookup (store : InMemoryEventStore) (st : State) (request : Request)
    (key : Option BoundedContextName × OperationId) :
    (request.apply store st).transactions.lookup key = st.transactions.lookup key ∨
      ∃ t stored detail, request.transaction? = some t ∧ (t.boundedContext, t.operationId) = key ∧
        store.Commits st t stored detail ∧
        request.apply store st = committed st t stored detail := by
  rcases ht : request.transaction? with _ | t
  · refine .inl ?_
    cases request with
    | appendTransaction | sessionCommitOutcome | commitOutcome => cases ht
    | append streamId expected batch =>
      simp only [Request.apply]
      cases hr : store.append streamId expected batch st with
      | error e st₁ => rw [append_error hr]; rfl
      | ok r st₁ => obtain ⟨_, -, -, -, -, rfl⟩ | ⟨-, -, rfl⟩ := append_ok hr <;> rfl
    | expireDetails k expected =>
      simp only [Request.apply]
      cases hr : store.expireDetails k expected st with
      | error e st₁ => rw [expireDetails_error hr]; rfl
      | ok r st₁ => obtain ⟨-, _, -, -, -, -, rfl⟩ := expireDetails_ok hr; rfl
  · obtain hsame | hinner := Request.apply_transaction store st ht
    · rw [hsame]
      exact .inl rfl
    · rw [hinner]
      cases hr : store.appendTransactionInner t st with
      | error e st₁ => rw [appendTransactionInner_error hr]; exact .inl rfl
      | ok r st₁ =>
        obtain ⟨-, rfl, -⟩ | ⟨-, detail, hc, rfl⟩ := appendTransactionInner_ok hr
        · exact .inl rfl
        · by_cases hkey : (t.boundedContext, t.operationId) = key
          · exact .inr ⟨t, _, detail, rfl, hkey, hc, rfl⟩
          · refine .inl ?_
            rw [finalState_ok, committed_transactions,
              Finmap.lookup_insert_of_ne _ (Ne.symm hkey)]

/-- A commit under a context puts the winner's marker and details into the state. -/
theorem recorded_of_commits {stored : StoredTransaction}
    {detail : Option (OutcomeDetailReference × DetailState)}
    (hctx : t.boundedContext = some context) (h : store.Commits st t stored detail) :
    ∃ marker bytes, store.Recorded context t (receiptIn st t) marker bytes ∧
      Holds (committed st t stored detail) context t.operationId marker bytes := by
  obtain ⟨context', bytes, hctx', hvalid, hencode, rfl, rfl⟩ | ⟨hnone, -, -⟩ :=
    prepareStored_ok h.prepared
  · obtain rfl := Option.some.inj (hctx.symm.trans hctx')
    refine ⟨_, bytes, ⟨hctx, ?_, hencode, rfl⟩, ?_, .inl ?_⟩
    · exact TransactionReceipt.valid_completion hvalid
    · rw [committed_transactions, hctx, Finmap.lookup_insert]
    · rw [committed_details]
      exact Finmap.lookup_insert _
  · rw [hctx] at hnone
    cases hnone

theorem Recorded.key {receipt : TransactionReceipt}
    (h : store.Recorded context winner receipt marker bytes) :
    marker.reference.key = ⟨store.authority, context, winner.operationId⟩ := by
  rw [h.ofDetails]
  rfl

theorem holds_foldl {op : OperationId} {requests : List Request}
    (hkey : marker.reference.key = ⟨store.authority, context, op⟩)
    (h : Holds st context op marker bytes) :
    Holds (requests.foldl (Request.apply store) st) context op marker bytes := by
  induction requests generalizing st with
  | nil => exact h
  | cons request requests ih => exact ih (h.step hkey request.step)

theorem run_append (store : InMemoryEventStore) (xs ys : List Request) :
    store.run (xs ++ ys) = ys.foldl (Request.apply store) (store.run xs) := List.foldl_append

theorem run_commitOutcome (store : InMemoryEventStore) {t : EventTransaction}
    (h : validateCompletedTransaction t = .ok ()) :
    store.run [.commitOutcome t] = finalState (store.appendTransactionInner t .empty) :=
  (finalState_commitOutcome t).trans (finalState_sessionCommitOutcome_of_valid h)

/-- If a key has a record at some point of a run, one request is the first to leave it there. -/
theorem exists_first (store : InMemoryEventStore) {requests : List Request}
    {key : Option BoundedContextName × OperationId}
    (h : ¬ ∀ m, (store.run (requests.take m)).transactions.lookup key = none) :
    ∃ n request, requests[n]? = some request ∧
      (∀ m ≤ n, (store.run (requests.take m)).transactions.lookup key = none) ∧
      (store.run (requests.take (n + 1))).transactions.lookup key ≠ none := by
  rw [not_forall] at h
  classical
  have hfirst := Nat.find_spec h
  have hmin : ∀ m < Nat.find h, (store.run (requests.take m)).transactions.lookup key = none :=
    fun m hm => not_not.mp (Nat.find_min h hm)
  rcases hn : Nat.find h with _ | n
  · rw [hn] at hfirst
    exact absurd rfl hfirst
  · rw [hn] at hfirst hmin
    rcases hrequest : requests[n]? with _ | request
    · rw [List.take_add_one, hrequest, Option.toList_none, List.append_nil] at hfirst
      exact absurd (hmin n (by omega)) hfirst
    · exact ⟨n, request, hrequest, fun m hm => hmin m (by omega), hfirst⟩

/-- In every run, an operation of a context has no record, or one that is put there by one request
and stays. From then on every proposal for the operation is answered by the retry law: the winner's
receipt for the winner's digest, an identity conflict for every other. -/
theorem one_winner [Crates.Lawful] (store : InMemoryEventStore) (hhot : store.hot = memoryDetails)
    (requests : List Request) (context : BoundedContextName) (op : OperationId) :
    (∀ m, (store.run (requests.take m)).transactions.lookup (some context, op) = none) ∨
    ∃ n winner marker, requests[n]?.bind Request.transaction? = some winner ∧
      winner.boundedContext = some context ∧ winner.operationId = op ∧
      marker.proposal = .hash winner ∧
      marker.integrity = receiptIn (store.run (requests.take n)) winner ∧
      (∀ m, (store.run (requests.take m)).transactions.lookup (some context, op) =
        if m ≤ n then none else some (.scoped marker)) ∧
      ∀ m > n, store.RetryLaw (store.run (requests.take m)) winner marker := by
  by_cases hnone :
    ∀ m, (store.run (requests.take m)).transactions.lookup (some context, op) = none
  · exact .inl hnone
  refine .inr ?_
  obtain ⟨n, request, hrequest, hbefore, hafter⟩ := exists_first store hnone
  have hnext : store.run (requests.take (n + 1)) =
      request.apply store (store.run (requests.take n)) := by
    rw [List.take_add_one, hrequest, run_append]
    rfl
  rw [hnext] at hafter
  obtain hsame | ⟨winner, stored, detail, ht, hkey, hc, hst⟩ :=
    request.apply_lookup store (store.run (requests.take n)) (some context, op)
  · exact absurd (hsame.trans (hbefore n le_rfl)) hafter
  obtain ⟨hctx, rfl⟩ := Prod.mk.inj hkey
  obtain ⟨marker, bytes, hrec, hholds⟩ := recorded_of_commits hctx hc
  rw [← hst, ← hnext] at hholds
  -- after the winner the rest of the run keeps its record
  have hlater : ∀ m > n, Holds (store.run (requests.take m)) context winner.operationId marker
      bytes := by
    intro m hm
    have hsplit : requests.take m = requests.take (n + 1) ++ (requests.take m).drop (n + 1) := by
      conv_lhs => rw [← List.take_append_drop (n + 1) (requests.take m)]
      rw [List.take_take, min_eq_left (by omega)]
    rw [hsplit, run_append]
    exact holds_foldl hrec.key hholds
  refine ⟨n, winner, marker, by rw [hrequest]; exact ht, hctx, rfl, ?_, ?_, ?_, ?_⟩
  · rw [hrec.ofDetails]; rfl
  · rw [hrec.ofDetails]; rfl
  · intro m
    split
    · next hm => exact hbefore m hm
    · next hm => exact (hlater m (by omega)).transaction
  · exact fun m hm => retryLaw hhot hrec (hlater m hm)

end InMemoryEventStore

/-! ## A decision proposed twice -/

namespace InMemoryEventStore

open Memory

attribute [local instance] Crates.concrete

def sampleStore : InMemoryEventStore := .new Sample.authority 10 10

theorem decision_inner :
    (sampleStore.appendTransactionInner Sample.decision .empty matches .ok _ _) = true := by
  decide +kernel

theorem decision_commits :
    ∃ stored detail, sampleStore.Commits .empty Sample.decision stored detail ∧
      sampleStore.run [.commitOutcome Sample.decision] =
        committed .empty Sample.decision stored detail := by
  have hvalid : validateCompletedTransaction Sample.decision = .ok () := by decide +kernel
  have hok := decision_inner
  rw [run_commitOutcome sampleStore hvalid]
  cases hr : sampleStore.appendTransactionInner Sample.decision .empty with
  | error e st => simp [hr] at hok
  | ok r st =>
    obtain ⟨-, -, hl, -⟩ | ⟨-, detail, hc, rfl⟩ := appendTransactionInner_ok hr
    · simp [State.empty] at hl
    · exact ⟨_, detail, hc, rfl⟩

/-- A decision that `commit_outcome` recorded is refused by `append_transaction`, which is for
acceptances without a completion: its own digest gets no replay. -/
theorem completed_retry_refused :
    ∃ marker, (sampleStore.run [.commitOutcome Sample.decision]).transactions.lookup
        (Sample.decision.boundedContext, Sample.decision.operationId) = some (.scoped marker) ∧
      marker.proposal = .hash Sample.decision ∧
      sampleStore.appendTransaction Sample.decision
          (sampleStore.run [.commitOutcome Sample.decision]) =
        .error (invalid "use commit_outcome for completed decisions")
          (sampleStore.run [.commitOutcome Sample.decision]) := by
  obtain ⟨stored, detail, hc, hrun⟩ := decision_commits
  obtain ⟨marker, bytes, hrec, hholds⟩ := recorded_of_commits rfl hc
  refine ⟨marker, ?_, ?_, rfl⟩
  · rw [hrun]
    exact hholds.transaction
  · rw [hrec.ofDetails]
    rfl

/-- The run that records the decision has a winner, with all of its answers. -/
theorem one_winner_decision :
    ∃ n winner marker,
      [Request.commitOutcome Sample.decision][n]?.bind Request.transaction? = some winner ∧
      winner.boundedContext = some Sample.context ∧ winner.operationId = Sample.operation ∧
      marker.proposal = .hash winner ∧
      marker.integrity =
        receiptIn (sampleStore.run ([.commitOutcome Sample.decision].take n)) winner ∧
      (∀ m, (sampleStore.run ([.commitOutcome Sample.decision].take m)).transactions.lookup
        (some Sample.context, Sample.operation) = if m ≤ n then none else some (.scoped marker)) ∧
      ∀ m > n, sampleStore.RetryLaw
        (sampleStore.run ([.commitOutcome Sample.decision].take m)) winner marker := by
  have := Crates.concrete_lawful
  refine (one_winner sampleStore rfl [.commitOutcome Sample.decision] Sample.context
    Sample.operation).resolve_left fun hnone => ?_
  obtain ⟨stored, detail, hc, hrun⟩ := decision_commits
  obtain ⟨marker, bytes, -, hholds⟩ := recorded_of_commits rfl hc
  have habsent := hnone 1
  rw [List.take_of_length_le (by simp), hrun] at habsent
  exact Option.some_ne_none _ (hholds.transaction.symm.trans habsent)

end InMemoryEventStore

end Rostfrei
