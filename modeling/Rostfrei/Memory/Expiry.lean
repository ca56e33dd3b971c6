import Rostfrei.Memory.Replay
import Rostfrei.Core.Framing

/-!
# Withdrawn details

Once the details of an outcome are withdrawn, they stay withdrawn: the slot of a recorded marker is
only ever written to withdraw it (`Step.kept`). `expired_stays` follows an expiry through every
later run: the marker stays, its details are reported as expired, the events that were there stay
where they were, and a retry is still classified by its digest and appends nothing.
-/

namespace Rostfrei

open Lib

namespace InMemoryEventStore

open Memory

/-! ## Streams only grow -/

theorem stream_prefix_of_records {st st' : State} {provenance : AppendProvenance}
    {ps : List TransactionParticipant} (h : Records st st' provenance ps) (s : StreamId) :
    st.stream s <+: st'.stream s := by
  by_cases hs : ∀ p ∈ ps, p.batch.isSome → p.streamId ≠ s
  · rw [State.stream_congr (h.otherStreams s hs)]
  · push Not at hs
    obtain ⟨p, hp, hb, rfl⟩ := hs
    obtain ⟨b, hb⟩ := Option.isSome_iff_exists.mp hb
    rw [h.written p hp b hb]
    exact List.prefix_append _ _

variable [Crates] {store : InMemoryEventStore} {st st' : State}

theorem Step.stream_prefix (hstep : Step store st st') (s : StreamId) :
    st.stream s <+: st'.stream s := by
  cases hstep with
  | same => exact List.prefix_rfl
  | @append streamId expected batch ha =>
    exact stream_prefix_of_records (records_appended st streamId expected batch) s
  | @commit t stored detail hc =>
    exact stream_prefix_of_records (records_committed st stored detail hc.admissible.nodup) s
  | expire hrec hslot => exact List.prefix_rfl

/-- A step that leaves a stream as it is leaves the record of its appends. -/
theorem Step.frame {s : StreamId} {log : List StoredAppend} (hstep : Step store st st')
    (hs : st'.stream s = st.stream s) (h : StreamInvariant st s log) :
    StreamInvariant st' s log := by
  cases hstep with
  | same => exact h
  | @append streamId expected batch ha =>
    exact h.frame_of_records (records_appended st streamId expected batch) hs
  | @commit t stored detail hc =>
    exact h.frame_of_records (records_committed st stored detail hc.admissible.nodup) hs
  | expire => exact h.frame rfl (fun _ => rfl) (fun _ => rfl) fun _ => Iff.rfl

theorem stream_prefix_foldl (requests : List Request) (s : StreamId) :
    st.stream s <+: (requests.foldl (Request.apply store) st).stream s := by
  induction requests generalizing st with
  | nil => exact List.prefix_rfl
  | cons request requests ih => exact (request.step.stream_prefix s).trans ih

/-! ## The transaction behind a record -/

variable {context : BoundedContextName} {winner t : EventTransaction} {marker : OutcomeMarker}

/-- A transaction that a commit call accepted. -/
structure Accepted (t : EventTransaction) : Prop extends Shaped t where
  completed : t.completion.isSome → validateCompletedTransaction t = .ok ()

/-- Every record of a run is that of an accepted transaction, in its context. -/
theorem run_recorded (store : InMemoryEventStore) (requests : List Request)
    {op : OperationId} {stored : StoredTransaction}
    (h : (store.run requests).transactions.lookup (some context, op) = some stored) :
    ∃ winner receipt marker bytes, stored = .scoped marker ∧ winner.operationId = op ∧
      Accepted winner ∧ store.Recorded context winner receipt marker bytes := by
  induction requests using List.reverseRecOn with
  | nil => simp [run, State.empty] at h
  | append_singleton requests request ih =>
    rw [run_append] at h
    obtain hsame | ⟨winner, stored', detail, -, hkey, hc, hst⟩ :=
      request.apply_lookup store (store.run requests) (some context, op)
    · exact ih (hsame.symm.trans h)
    · obtain ⟨hctx, rfl⟩ := Prod.mk.inj hkey
      obtain ⟨marker, bytes, hrec, hholds⟩ := recorded_of_commits hctx hc
      rw [← hst] at hholds
      have hvalid : (receiptIn (store.run requests) winner).validateProposal winner = .ok () := by
        obtain ⟨-, -, -, hvalid, -⟩ | ⟨hnone, -, -⟩ := prepareStored_ok hc.prepared
        · exact hvalid
        · rw [hctx] at hnone
          cases hnone
      have hanswers := TransactionReceipt.answers_of_validateProposal hvalid
      exact ⟨winner, _, marker, bytes, Option.some.inj (h.symm.trans hholds.transaction), rfl,
        ⟨⟨hc.items, hc.actors⟩, hanswers.completed⟩, hrec⟩

omit [Crates] in
/-- The batches of a proposal are those of its places. -/
theorem batches_eq_filterMap_place (t : EventTransaction) :
    t.batches = (t.participants.map (·.place)).filterMap (·.2) := by
  rw [List.filterMap_map]
  rfl

omit [Crates] in
theorem guardCount_eq_countP_place (t : EventTransaction) :
    t.guardCount = (t.participants.map (·.place)).countP (·.2.isNone) := by
  rw [EventTransaction.guardCount, ← List.countP_eq_length_filter, List.countP_map]
  rfl

omit [Crates] in
/-- A retry with other expected versions passes the checks that its first proposal passed. -/
theorem Accepted.of_sameProposal (h : Accepted winner) (hsame : SameProposal t winner) :
    Accepted t := by
  have hbatches : t.batches = winner.batches := by
    rw [batches_eq_filterMap_place, batches_eq_filterMap_place, hsame.participants]
  have hany : t.participants.any (·.batch.isSome) = winner.participants.any (·.batch.isSome) := by
    have hplaces := congrArg (List.any · (·.2.isSome)) hsame.participants
    rw [List.any_map, List.any_map] at hplaces
    exact hplaces
  refine ⟨⟨?_, ?_⟩, ?_⟩
  · rw [EventTransaction.eventCount, guardCount_eq_countP_place, hbatches, hsame.participants,
      ← guardCount_eq_countP_place]
    exact h.items
  · rw [hbatches, hsame.actor]
    exact h.actors
  · intro hsome
    rw [hsame.completion] at hsome
    have hvalid := h.completed hsome
    rw [validateCompletedTransaction] at hvalid ⊢
    rw [hsame.completion, hsame.boundedContext, hany]
    exact hvalid

/-! ## Reading a withdrawn outcome -/

/-- The marker is at its key and its details are withdrawn. -/
structure Expired (store : InMemoryEventStore) (st : State) (context : BoundedContextName)
    (op : OperationId) (marker : OutcomeMarker) : Prop where
  key : marker.reference.key = ⟨store.authority, context, op⟩
  transaction : st.transactions.lookup (some context, op) = some (.scoped marker)
  details : st.details.lookup marker.reference = some .expired

theorem Expired.step {op : OperationId} (h : store.Expired st context op marker)
    (hstep : Step store st st') : store.Expired st' context op marker := by
  obtain ⟨htransaction, hsame | hexpired⟩ := hstep.kept h.transaction h.key
  · exact ⟨h.key, htransaction, hsame.trans h.details⟩
  · exact ⟨h.key, htransaction, hexpired⟩

theorem Expired.foldl {op : OperationId} {requests : List Request}
    (h : store.Expired st context op marker) :
    store.Expired (requests.foldl (Request.apply store) st) context op marker := by
  induction requests generalizing st with
  | nil => exact h
  | cons request requests ih => exact ih (h.step request.step)

theorem Expired.recover {op : OperationId} (h : store.Expired st context op marker) :
    store.recoverMarker st marker = .ok ⟨marker, .expired⟩ := by
  simp [recoverMarker, resolveMarker, h.details, CompletedOutcome.new, validateDetailBinding,
    Except.mapError]

theorem Expired.lookup {op : OperationId} (h : store.Expired st context op marker) :
    store.lookupOutcome st ⟨store.authority, context, op⟩ =
      .ok (.completed ⟨marker, .expired⟩) := by
  simp [lookupOutcome, validateAuthority, rejectIf, h.transaction, h.recover]

/-- How a state answers once the details of a recorded outcome are withdrawn. None of the answers
changes the state. -/
structure ExpiredLaw (store : InMemoryEventStore) (st : State) (context : BoundedContextName)
    (winner : EventTransaction) (marker : OutcomeMarker) : Prop where
  /-- The decision is still there, without its details. -/
  lookup : store.lookupOutcome st ⟨store.authority, context, winner.operationId⟩ =
    .ok (.completed ⟨marker, .expired⟩)
  /-- The proposal again, as a completed decision. -/
  session_same : ∀ t, SameProposal t winner → t.completion.isSome →
    store.sessionCommitOutcome t st = .ok (.exactReplay ⟨marker, .expired⟩) st
  commit_same : ∀ t, SameProposal t winner → t.completion.isSome →
    store.commitOutcome t st = .error (recoveryError .expired) st
  /-- The proposal again, as an acceptance without a completion: its receipt has no details. -/
  append_same : ∀ t, SameProposal t winner → t.completion = none →
    store.appendTransaction t st = .ok (.exactReplay marker.integrity) st
  append_other : ∀ t, SameOperation t winner → Shaped t → t.completion = none →
    ProposalDigest.hash t ≠ .hash winner →
    store.appendTransaction t st =
      .error (identityConflict "transaction identity was reused with different content") st
  session_other : ∀ t, SameOperation t winner → Shaped t →
    validateCompletedTransaction t = .ok () → ProposalDigest.hash t ≠ .hash winner →
    store.sessionCommitOutcome t st =
      .error (identityConflict "transaction identity was reused with different content") st
  commit_other : ∀ t, SameOperation t winner → Shaped t →
    validateCompletedTransaction t = .ok () → ProposalDigest.hash t ≠ .hash winner →
    store.commitOutcome t st =
      .error (identityConflict "transaction identity was reused with different content") st

theorem Expired.law {receipt : TransactionReceipt} {bytes : Bytes}
    (h : store.Expired st context winner.operationId marker) (haccepted : Accepted winner)
    (hrec : store.Recorded context winner receipt marker bytes) :
    store.ExpiredLaw st context winner marker := by
  have hholds : Holds st context winner.operationId marker bytes :=
    ⟨h.transaction, .inr h.details⟩
  have hinner : ∀ t, SameProposal t winner →
      store.appendTransactionInner t st = .ok (.scoped marker, true) st := fun t hsame =>
    inner_same hrec hholds ⟨hsame.boundedContext, hsame.operationId⟩
      (haccepted.of_sameProposal hsame).toShaped (by rw [ProposalDigest.hash, ProposalDigest.hash,
        hsame.parts_eq, hsame.actor])
  have hsession : ∀ t, SameProposal t winner → t.completion.isSome →
      store.sessionCommitOutcome t st = .ok (.exactReplay ⟨marker, .expired⟩) st := by
    intro t hsame hsome
    rw [sessionCommitOutcome, run_bind_ok]
    refine ⟨(), st, run_lift_ok.mpr ⟨(haccepted.of_sameProposal hsame).completed hsome, rfl⟩, ?_⟩
    rw [run_bind_ok]
    refine ⟨_, st, hinner t hsame, ?_⟩
    simp only [run_bind_ok, run_get_ok, run_lift_ok, run_pure_ok]
    exact ⟨st, st, ⟨rfl, rfl⟩, _, st, ⟨h.recover, rfl⟩, rfl, rfl⟩
  refine ⟨h.lookup, hsession, ?_, ?_, ?_, ?_, ?_⟩
  · intro t hsame hsome
    rw [commitOutcome, run_bind_error]
    refine .inr ⟨_, st, hsession t hsame hsome, ?_⟩
    rw [run_bind_error]
    exact .inl (run_lift_error.mpr ⟨rfl, rfl⟩)
  · intro t hsame hnone
    have hdecision : ¬ marker.decision = .rejected := by
      rw [hrec.ofDetails]
      show ¬ completionDecision winner.completion = .rejected
      rw [← hsame.completion, hnone]
      decide
    rw [appendTransaction, run_bind_ok]
    refine ⟨(), st, by simp [hnone], ?_⟩
    rw [run_bind_ok]
    refine ⟨_, st, hinner t hsame, ?_⟩
    rw [run_bind_ok]
    exact ⟨_, st, run_lift_ok.mpr ⟨if_neg hdecision, rfl⟩, rfl⟩
  · exact fun _ hop hshape => appendTransaction_other hrec hholds hop hshape
  · exact fun _ hop hshape => sessionCommitOutcome_other hrec hholds hop hshape
  · exact fun _ hop hshape => commitOutcome_other hrec hholds hop hshape

/-! ## Along runs -/

omit [Crates] in
/-- An expiry for another revision changes nothing. -/
theorem expireDetails_other_revision {key : OutcomeKey} {revision : OutcomeRevision}
    (hrec : st.transactions.lookup (some key.context, key.operation) = some (.scoped marker))
    (hne : revision ≠ marker.revision) : finalState (store.expireDetails key revision st) = st := by
  cases hr : store.expireDetails key revision st with
  | error e st₁ => exact expireDetails_error hr
  | ok expiry st₁ =>
    obtain ⟨-, marker', hrec', hrevision, -⟩ := expireDetails_ok hr
    obtain rfl := StoredTransaction.scoped.inj (Option.some.inj (hrec.symm.trans hrec'))
    exact absurd hrevision.symm hne

/-- After an expiry in any run, every later run keeps the marker of the outcome, reports its details
as expired, and classifies retries as before; the events that were there stay. In every run, an
expiry for another revision than the marker's changes nothing. -/
theorem expired_stays (store : InMemoryEventStore) (requests : List Request) :
    (∀ key revision expiry st, store.expireDetails key revision (store.run requests) =
        .ok expiry st →
      ∃ winner marker, (store.run requests).transactions.lookup (some key.context, key.operation) =
          some (.scoped marker) ∧ winner.operationId = key.operation ∧
        marker.revision = revision ∧ marker.proposal = .hash winner ∧
        ∀ later : List Request,
          (later.foldl (Request.apply store) st).transactions.lookup
              (some key.context, key.operation) = some (.scoped marker) ∧
          (∀ s, (store.run requests).stream s <+:
            (later.foldl (Request.apply store) st).stream s) ∧
          store.ExpiredLaw (later.foldl (Request.apply store) st) key.context winner marker) ∧
    ∀ key marker revision, (store.run requests).transactions.lookup
        (some key.context, key.operation) = some (.scoped marker) → revision ≠ marker.revision →
      finalState (store.expireDetails key revision (store.run requests)) = store.run requests := by
  refine ⟨?_, fun key marker revision hrec hne => expireDetails_other_revision hrec hne⟩
  intro key revision expiry st hexpire
  obtain ⟨hauthority, marker, hlookup, hrevision, -, -, hst⟩ := expireDetails_ok hexpire
  obtain ⟨winner, receipt, marker', bytes, hstored, hop, haccepted, hrec⟩ :=
    run_recorded store requests hlookup
  obtain rfl := StoredTransaction.scoped.inj hstored
  have hexpired : store.Expired st key.context winner.operationId marker := by
    refine ⟨hrec.key, ?_, ?_⟩
    · rw [hst, hop]
      exact hlookup
    · rw [hst]
      exact Finmap.lookup_insert _
  have hstream : ∀ s, (store.run requests).stream s = st.stream s := fun s => by
    rw [hst]
    rfl
  refine ⟨winner, marker, hlookup, hop, hrevision, by rw [hrec.ofDetails]; rfl, fun later => ?_⟩
  have hlater : store.Expired (later.foldl (Request.apply store) st) key.context
      winner.operationId marker := hexpired.foldl
  refine ⟨by rw [← hop]; exact hlater.transaction, fun s => ?_, hlater.law haccepted hrec⟩
  rw [hstream]
  exact stream_prefix_foldl later s

omit [Crates] in
/-- A recorded outcome can be withdrawn under its revision. -/
theorem expireDetails_of_recorded {key : OutcomeKey} (hauthority : key.authority = store.authority)
    (hrec : st.transactions.lookup (some key.context, key.operation) = some (.scoped marker))
    (hslot : st.details.lookup marker.reference ≠ none) :
    store.expireDetails key marker.revision st = .ok ⟨marker.revision, .reclaimed⟩
      { st with details := st.details.insert marker.reference .expired } := by
  obtain ⟨detail, hdetail⟩ := Option.ne_none_iff_exists'.mp hslot
  simp only [expireDetails, run_bind_ok, run_lift_ok, run_get_ok]
  refine ⟨(), st, ⟨by simp [validateAuthority, rejectIf, hauthority, Except.mapError], rfl⟩, st, st,
    ⟨rfl, rfl⟩, ?_⟩
  simp only [hrec, run_bind_ok, run_lift_ok]
  refine ⟨(), st, ⟨rejectIf_of_not (not_not.mpr rfl) _, rfl⟩, ?_⟩
  simp only [hdetail, run_bind_ok, run_modify_ok, run_pure_ok]
  exact ⟨(), _, rfl, trivial, rfl⟩

end InMemoryEventStore

namespace InMemoryEventStore

open Memory

attribute [local instance] Crates.concrete

/-- The decision of a run of one request, after its details are withdrawn. -/
theorem expired_stays_decision :
    ∃ marker expiry st,
      sampleStore.expireDetails ⟨Sample.authority, Sample.context, Sample.operation⟩
        marker.revision (sampleStore.run [.commitOutcome Sample.decision]) = .ok expiry st ∧
      sampleStore.lookupOutcome st ⟨Sample.authority, Sample.context, Sample.operation⟩ =
        .ok (.completed ⟨marker, .expired⟩) := by
  obtain ⟨stored, detail, hc, hrun⟩ := decision_commits
  obtain ⟨marker, bytes, hrec, hholds⟩ := recorded_of_commits rfl hc
  rw [← hrun] at hholds
  have hslot : (sampleStore.run [.commitOutcome Sample.decision]).details.lookup
      marker.reference ≠ none := by
    rcases hholds.details with hslot | hslot <;> rw [hslot] <;> exact Option.some_ne_none _
  have hexpire : sampleStore.expireDetails ⟨Sample.authority, Sample.context, Sample.operation⟩
      marker.revision (sampleStore.run [.commitOutcome Sample.decision]) = .ok _ _ :=
    expireDetails_of_recorded rfl hholds.transaction hslot
  obtain ⟨winner, marker', hlookup, hop, -, -, hlater⟩ :=
    (expired_stays sampleStore [.commitOutcome Sample.decision]).1 _ _ _ _ hexpire
  obtain rfl := StoredTransaction.scoped.inj
    (Option.some.inj (hholds.transaction.symm.trans hlookup))
  have hlaw := (hlater []).2.2.lookup
  rw [hop] at hlaw
  exact ⟨marker, _, _, hexpire, hlaw⟩

end InMemoryEventStore

end Rostfrei
