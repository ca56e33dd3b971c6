import Rostfrei.Core.Staging
import Rostfrei.Memory.Store

/-!
# What each call of the in-memory store can do

One inversion lemma for each function of `Memory.Store`: when a check passes, and which states and
answers a call can end with. The invariants are proved from these lemmas, not from the calls.

* `append_ok`, `append_error`: a direct append replays, or records one fresh batch, or fails and
  changes nothing.
* `appendTransactionInner_ok`, `appendTransactionInner_error`: the same for a transaction, whose
  fresh run records all of its batches (`Commits`).
-/

namespace Rostfrei

open Lib

namespace Memory

variable [Crates] {streamId : StreamId} {batch : EventBatch} {st st' : State}

/-! ## Checks -/

theorem checkEventIds_eq_ok {commitId : CommitId} {ordinal : Nat} {events : List NewEvent}
    {u : Unit} :
    checkEventIds commitId ordinal events = .ok u ↔
      ∀ i (h : i < events.length),
        ordinal + i < 2 ^ 32 ∧ events[i].eventId = deriveEventId commitId (ordinal + i) := by
  induction events generalizing ordinal with
  | nil => simp [checkEventIds]
  | cons e es ih =>
    simp only [checkEventIds, bind_eq_ok, rejectIf_eq_ok, ih, not_le, ne_eq, not_not]
    constructor
    · rintro ⟨-, hlt, -, hid, hrest⟩ i hi
      cases i with
      | zero => exact ⟨hlt, hid⟩
      | succ i =>
        have h := hrest i (by simpa using hi)
        rw [Nat.add_right_comm, Nat.add_assoc] at h
        simpa using h
    · intro h
      have h0 := h 0 (by simp)
      refine ⟨(), by simpa using h0.1, (), by simpa using h0.2, fun i hi => ?_⟩
      have h := h (i + 1) (by simpa using hi)
      rw [Nat.add_right_comm, Nat.add_assoc]
      simpa using h

/-- A batch has at most 100 events, so the ordinals are always in range. -/
theorem validateDerivedIdentities_eq_ok {u : Unit} :
    validateDerivedIdentities streamId batch = .ok u ↔ DerivedIdentities streamId batch := by
  have hle : batch.events.length ≤ 100 := batch.events_le
  simp only [validateDerivedIdentities, bind_eq_ok, rejectIf_eq_ok, checkEventIds_eq_ok, ne_eq,
    not_not, Nat.zero_add]
  constructor
  · rintro ⟨-, hcommit, hevents⟩
    exact ⟨hcommit, fun i hi => (hevents i hi).2⟩
  · rintro ⟨hcommit, hevents⟩
    exact ⟨(), hcommit, fun i hi => ⟨by omega, hevents i hi⟩⟩

omit [Crates] in
theorem recordEvents_eq_ok {count version ordinal : Nat} {events : List NewEvent}
    {recorded : List RecordedEvent} :
    recordEvents streamId batch count version ordinal events = .ok recorded ↔
      (∀ i < events.length, version + 1 + i < 2 ^ 64 ∧ ordinal + i < 2 ^ 32) ∧
        recorded = events.mapIdx fun i event =>
          .fromNew streamId (version + 1 + i) batch (ordinal + i) count event := by
  induction events generalizing version ordinal recorded with
  | nil => simp [recordEvents, eq_comm]
  | cons e es ih =>
    simp only [recordEvents, bind_eq_ok, rejectIf_eq_ok, okOr_eq_ok, pure_eq_ok, ih,
      nextVersion_eq_some, not_le, List.mapIdx_cons, List.length_cons]
    constructor
    · rintro ⟨_, ⟨hv, rfl⟩, -, ho, _, ⟨hrest, rfl⟩, rfl⟩
      refine ⟨fun i hi => ?_, ?_⟩
      · cases i with
        | zero => exact ⟨hv, ho⟩
        | succ i => have := hrest i (by omega); omega
      · congr 2
        funext i event
        congr 1 <;> omega
    · rintro ⟨hrange, rfl⟩
      have h0 := hrange 0 (by omega)
      refine ⟨_, ⟨by omega, rfl⟩, (), by omega, _,
        ⟨fun i hi => by have := hrange (i + 1) (by omega); omega, rfl⟩, ?_⟩
      congr 2
      funext i event
      congr 1 <;> omega

omit [Crates] in
/-- `record_batch` fails only when the versions of the stream run out. -/
theorem recordBatch_eq_ok {base : Nat} {recorded : List RecordedEvent} :
    recordBatch streamId base batch = .ok recorded ↔
      base + batch.events.length < 2 ^ 64 ∧
        recorded = RecordedEvent.ofBatch streamId base batch := by
  have hle : batch.events.length ≤ 100 := batch.events_le
  have hpos : 0 < batch.events.length := List.length_pos_iff.mpr batch.events_ne
  simp only [recordBatch, bind_eq_ok, rejectIf_eq_ok, recordEvents_eq_ok, not_le, Nat.zero_add]
  constructor
  · rintro ⟨-, -, hrange, rfl⟩
    have := hrange (batch.events.length - 1) (by omega)
    exact ⟨by omega, rfl⟩
  · rintro ⟨hv, rfl⟩
    exact ⟨(), by omega, fun i hi => ⟨by omega, by omega⟩, rfl⟩

/-- No identity of the batch is in the state, and they are the derived ones. -/
structure Fresh (st : State) (streamId : StreamId) (batch : EventBatch) : Prop where
  derived : DerivedIdentities streamId batch
  operation : st.operations.lookup (streamId, batch.operationId) = none
  commit : (streamId, batch.commitId) ∉ st.commits
  eventIds : ∀ e ∈ batch.events, (streamId, e.eventId) ∉ st.eventIds

theorem checkBatch_eq_ok {t : EventTransaction} {u : Unit} :
    checkBatch st t streamId batch = .ok u ↔
      MetadataMatches t batch ∧ Fresh st streamId batch := by
  simp only [checkBatch, bind_unit_eq_ok, rejectIf_eq_ok, validateDerivedIdentities_eq_ok]
  constructor
  · rintro ⟨hmeta, hderived, h⟩
    simp only [not_or, ne_eq, not_not] at hmeta
    split at h
    · cases h
    · next hop =>
      simp only [bind_unit_eq_ok, rejectIf_eq_ok, List.any_eq_true, decide_eq_true_eq, not_exists,
        not_and] at h
      exact ⟨⟨hmeta.1, hmeta.2.1, hmeta.2.2.1, hmeta.2.2.2.1, hmeta.2.2.2.2⟩,
        hderived, hop, h.1, h.2⟩
  · rintro ⟨hmeta, hfresh⟩
    refine ⟨?_, hfresh.derived, ?_⟩
    · simp [hmeta.operationId, hmeta.operationFingerprint, hmeta.correlationId,
        hmeta.causationId, hmeta.actor]
    · rw [hfresh.operation]
      simp only [bind_unit_eq_ok, rejectIf_eq_ok, List.any_eq_true, decide_eq_true_eq, not_exists,
        not_and]
      exact ⟨hfresh.commit, hfresh.eventIds⟩

/-- The participants are of distinct streams, and every batch is fresh. -/
structure Admissible (st : State) (t : EventTransaction) (participants : List TransactionParticipant) :
    Prop where
  nodup : (participants.map (·.streamId)).Nodup
  batches : ∀ p ∈ participants, ∀ b ∈ p.batch, MetadataMatches t b ∧ Fresh st p.streamId b

theorem checkParticipants_eq_ok {t : EventTransaction} {seen : List StreamId}
    {participants : List TransactionParticipant} :
    checkParticipants st t seen participants = .ok () ↔
      Admissible st t participants ∧ ∀ p ∈ participants, p.streamId ∉ seen := by
  induction participants generalizing seen with
  | nil =>
    simp only [checkParticipants, List.not_mem_nil, false_imp_iff, implies_true, and_true,
      true_iff]
    exact ⟨by simp, by simp⟩
  | cons p ps ih =>
    have hstep : checkParticipants st t seen (p :: ps) = .ok () ↔
        p.streamId ∉ seen ∧ (∀ b ∈ p.batch, MetadataMatches t b ∧ Fresh st p.streamId b) ∧
          checkParticipants st t (p.streamId :: seen) ps = .ok () := by
      simp only [checkParticipants, bind_unit_eq_ok, rejectIf_eq_ok]
      rcases p.batch with _ | b
      · simp
      · simp [bind_unit_eq_ok, checkBatch_eq_ok]
    rw [hstep, ih]
    constructor
    · rintro ⟨hseen, hb, hadm, hrest⟩
      refine ⟨⟨?_, List.forall_mem_cons.mpr ⟨hb, hadm.batches⟩⟩, List.forall_mem_cons.mpr
        ⟨hseen, fun q hq => fun hmem => hrest q hq (List.mem_cons_of_mem _ hmem)⟩⟩
      rw [List.map_cons, List.nodup_cons]
      refine ⟨fun hmem => ?_, hadm.nodup⟩
      obtain ⟨q, hq, heq⟩ := List.mem_map.mp hmem
      exact hrest q hq (heq ▸ List.mem_cons_self)
    · rintro ⟨hadm, hseen⟩
      have hnodup := List.nodup_cons.mp hadm.nodup
      refine ⟨hseen p (by simp), hadm.batches p (by simp),
        ⟨hnodup.2, fun q hq => hadm.batches q (by simp [hq])⟩, fun q hq hmem => ?_⟩
      rcases List.mem_cons.mp hmem with heq | hmem
      · exact hnodup.1 (List.mem_map.mpr ⟨q, hq, heq⟩)
      · exact hseen q (by simp [hq]) hmem

theorem validateTransaction_eq_ok {t : EventTransaction} {u : Unit} :
    validateTransaction st t = .ok u ↔
      Admissible st t t.participants ∧
        ∀ p ∈ t.participants,
          validateExpectedVersion p.expectedVersion (st.currentVersion p.streamId) = .ok () := by
  simp only [validateTransaction, bind_unit_eq_ok, checkParticipants_eq_ok, forM_eq_ok]
  simp

omit [Crates] in
/-- The expectation names the current version. -/
theorem validateExpectedVersion_eq_ok {expected : ExpectedVersion} {current : Nat} :
    validateExpectedVersion expected current = .ok () ↔
      expected = (if current = 0 then .noStream else .exact current) :=
  checkExpectedVersion_eq_ok

/-! ## Staging -/

/-- What a participant records in this state. -/
def Staged.of (st : State) (p : TransactionParticipant) : Staged where
  participant := p
  baseVersion := st.currentVersion p.streamId
  events := p.batch.elim [] (RecordedEvent.ofBatch p.streamId (st.currentVersion p.streamId))

/-- The versions of the participant's stream do not run out. -/
def HasRoom (st : State) (p : TransactionParticipant) : Prop :=
  ∀ b ∈ p.batch, st.currentVersion p.streamId + b.events.length < 2 ^ 64

omit [Crates] in
theorem stage_eq_ok {p : TransactionParticipant} {x : Staged} :
    stage st p = .ok x ↔ HasRoom st p ∧ x = Staged.of st p := by
  unfold stage HasRoom Staged.of
  rcases p with ⟨s, e, _ | b⟩
  · simp only [pure_eq_ok, Option.not_mem_none, false_imp_iff, implies_true, true_and,
      Option.elim_none]
    exact eq_comm
  · simp only [bind_eq_ok, recordBatch_eq_ok, pure_eq_ok, Option.mem_def, Option.some.injEq,
      forall_eq', Option.elim_some]
    constructor
    · rintro ⟨_, ⟨h, rfl⟩, rfl⟩
      exact ⟨h, rfl⟩
    · rintro ⟨h, rfl⟩
      exact ⟨_, ⟨h, rfl⟩, rfl⟩

omit [Crates] in
theorem stageAll_eq_ok {participants : List TransactionParticipant} {staged : List Staged} :
    stageAll st participants = .ok staged ↔
      (∀ p ∈ participants, HasRoom st p) ∧ staged = participants.map (Staged.of st) := by
  rw [stageAll, mapM_eq_ok]
  simp only [stage_eq_ok]
  induction participants generalizing staged with
  | nil => simp
  | cons p ps ih =>
    constructor
    · rintro (_ | ⟨⟨hroom, rfl⟩, hrest⟩)
      obtain ⟨hrooms, rfl⟩ := ih.mp hrest
      exact ⟨List.forall_mem_cons.mpr ⟨hroom, hrooms⟩, rfl⟩
    · rintro ⟨hrooms, rfl⟩
      have h := List.forall_mem_cons.mp hrooms
      exact .cons ⟨h.1, rfl⟩ (ih.mpr ⟨h.2, rfl⟩)

end Memory

/-! ## Direct appends -/

namespace InMemoryEventStore

open Memory

variable {store : InMemoryEventStore} {streamId : StreamId} {expected : ExpectedVersion}
  {batch : EventBatch} {t : EventTransaction} {st st' : State}

theorem newCount_eq_ok {added count : Nat} :
    store.newCount st added = .ok count ↔
      st.eventCount + added < 2 ^ 64 ∧ st.eventCount + added ≤ store.maximumEvents ∧
        count = st.eventCount + added := by
  simp only [newCount, okOr_eq_ok, Option.filter_eq_some_iff, checkedAdd_eq_some,
    decide_eq_true_eq]
  constructor
  · rintro ⟨⟨hlt, rfl⟩, hle⟩
    exact ⟨hlt, hle, rfl⟩
  · rintro ⟨hlt, hle, rfl⟩
    exact ⟨⟨hlt, rfl⟩, hle⟩

variable [Crates]

/-- The batch is recorded now: it is fresh, expected, and there is room for it. -/
structure Appends (store : InMemoryEventStore) (st : State) (streamId : StreamId)
    (expected : ExpectedVersion) (batch : EventBatch) : Prop where
  fresh : Fresh st streamId batch
  expected : validateExpectedVersion expected (st.currentVersion streamId) = .ok ()
  count : st.eventCount + batch.events.length < 2 ^ 64
  capacity : st.eventCount + batch.events.length ≤ store.maximumEvents
  room : st.currentVersion streamId + batch.events.length < 2 ^ 64

omit [Crates] in
/-- The state after a direct append. -/
def appended (st : State) (streamId : StreamId) (batch : EventBatch) : State :=
  { st.recordAppend streamId batch
      (RecordedEvent.ofBatch streamId (st.currentVersion streamId) batch) .direct with
    eventCount := st.eventCount + batch.events.length }

/-- The answer and the state after a direct append that succeeds. -/
theorem append_ok {outcome : AppendOutcome}
    (h : store.append streamId expected batch st = .ok outcome st') :
    (∃ previous, st.operations.lookup (streamId, batch.operationId) = some previous ∧
      previous.provenance = .direct ∧ previous.batch = batch ∧
      outcome = .exactReplay previous.events ∧ st' = st) ∨
    (store.Appends st streamId expected batch ∧
      outcome = .appended
        (RecordedEvent.ofBatch streamId (st.currentVersion streamId) batch) ∧
      st' = appended st streamId batch) := by
  simp only [append, run_bind_ok, run_get_ok] at h
  obtain ⟨_, _, ⟨rfl, rfl⟩, h⟩ := h
  rcases hop : st.operations.lookup (streamId, batch.operationId) with _ | previous
  rotate_left
  · simp only [hop] at h
    split at h
    · next hsame =>
      simp only [run_pure_ok] at h
      exact .inl ⟨previous, rfl, hsame.1, hsame.2, h.1.symm, h.2.symm⟩
    · split at h <;> simp at h
  · simp only [hop, run_bind_ok, run_lift_ok, run_modify_ok, run_pure_ok, rejectIf_eq_ok,
      validateDerivedIdentities_eq_ok, newCount_eq_ok, recordBatch_eq_ok, List.any_eq_true,
      decide_eq_true_eq, not_exists, not_and] at h
    obtain ⟨_, _, ⟨hcommit, rfl⟩, _, _, ⟨hids, rfl⟩, _, _, ⟨hderived, rfl⟩, _, _,
      ⟨hexpected, rfl⟩, _, _, ⟨⟨hcount, hcap, rfl⟩, rfl⟩, _, _, ⟨⟨hroom, rfl⟩, rfl⟩, _, _, rfl,
      _, _, rfl, rfl, rfl⟩ := h
    exact .inr ⟨⟨⟨hderived, hop, hcommit, hids⟩, hexpected, hcount, hcap, hroom⟩, rfl, rfl⟩

/-- A batch that is there is answered with its events. -/
theorem append_recorded {previous : StoredAppend}
    (h : st.operations.lookup (streamId, batch.operationId) = some previous)
    (hdirect : previous.provenance = .direct) (hbatch : previous.batch = batch) :
    store.append streamId expected batch st = .ok (.exactReplay previous.events) st := by
  rw [append, run_get_bind, h]
  show (if previous.provenance = .direct ∧ previous.batch = batch then
    pure (.exactReplay previous.events) else _ : StoreM AppendOutcome) st = _
  rw [if_pos ⟨hdirect, hbatch⟩]
  rfl

/-- A fresh and expected batch is recorded, if there is room. -/
theorem append_appends (h : store.Appends st streamId expected batch) :
    store.append streamId expected batch st =
      .ok (.appended (RecordedEvent.ofBatch streamId (st.currentVersion streamId) batch))
        (appended st streamId batch) := by
  have hids : ¬ (batch.events.any fun e => (streamId, e.eventId) ∈ st.eventIds) := by
    simpa using h.fresh.eventIds
  have hderived := validateDerivedIdentities_eq_ok (u := ()).mpr h.fresh.derived
  have hcount : store.newCount st batch.events.length = .ok _ :=
    newCount_eq_ok.mpr ⟨h.count, h.capacity, rfl⟩
  have hrecorded : recordBatch streamId (st.currentVersion streamId) batch = .ok _ :=
    recordBatch_eq_ok.mpr ⟨h.room, rfl⟩
  rw [append, run_get_bind, h.fresh.operation]
  simp only [rejectIf_of_not h.fresh.commit, rejectIf_of_not hids, hderived, h.expected, hcount,
    hrecorded]
  rfl

/-- A direct append that fails changes nothing. -/
theorem append_error {e : EventStoreError}
    (h : store.append streamId expected batch st = .error e st') : st' = st := by
  simp only [append, run_bind_error, run_get_ok, run_get_error, false_or] at h
  obtain ⟨_, _, ⟨rfl, rfl⟩, h⟩ := h
  rcases hop : st.operations.lookup (streamId, batch.operationId) with _ | previous
  · simp only [hop, run_bind_error, run_lift_ok, run_lift_error, run_modify_error,
      run_pure_error, and_false, exists_false, or_false] at h
    obtain ⟨-, rfl⟩ | ⟨_, _, ⟨-, rfl⟩, ⟨-, rfl⟩ | ⟨_, _, ⟨-, rfl⟩, ⟨-, rfl⟩ | ⟨_, _, ⟨-, rfl⟩,
      ⟨-, rfl⟩ | ⟨_, _, ⟨-, rfl⟩, ⟨-, rfl⟩ | ⟨_, _, ⟨-, rfl⟩, -, rfl⟩⟩⟩⟩⟩ := h <;> rfl
  · simp only [hop] at h
    split at h
    · simp at h
    · split at h <;> simp only [run_throw_error] at h <;> exact h.2.symm

/-! ## Transactions -/

/-- A transaction with a context stores a marker and the slot that the marker refers to; any
other stores its digest and receipt. -/
theorem prepareStored_ok {proposal : ProposalDigest} {receipt : TransactionReceipt}
    {stored : StoredTransaction} {detail : Option (OutcomeDetailReference × DetailState)}
    (h : store.prepareStored t proposal receipt = .ok (stored, detail)) :
    (∃ context bytes, t.boundedContext = some context ∧
      receipt.validateProposal t = .ok () ∧
      EncodedOutcomeDetails.encode t.completion ⟨store.authority, context, t.operationId⟩
        t.securityScope t.actor = .ok bytes ∧
      stored = .scoped
        (.ofDetails ⟨store.authority, context, t.operationId⟩ t receipt bytes) ∧
      detail = some (detailReference ⟨store.authority, context, t.operationId⟩ t bytes,
        .active bytes)) ∨
    (t.boundedContext = none ∧ stored = .unscoped proposal receipt ∧ detail = none) := by
  rcases hc : t.boundedContext with _ | context
  · simp only [prepareStored, hc, Option.isSome_none, Bool.false_eq_true, if_false, pure_eq_ok,
      Prod.mk.injEq] at h
    exact .inr ⟨rfl, h.1.symm, h.2.symm⟩
  · simp only [prepareStored, hc, Option.isSome_some, if_true, bind_eq_ok, pure_eq_ok,
      Prod.mk.injEq] at h
    obtain ⟨⟨marker, bytes⟩, hprepare, rfl, rfl⟩ := h
    obtain ⟨hvalid, -, context', hc', hencode, rfl⟩ := OutcomeMarker.prepare_eq_ok.mp hprepare
    obtain rfl := Option.some.inj (hc.symm.trans hc')
    exact .inl ⟨context, bytes, rfl, hvalid, hencode, rfl, rfl⟩

/-- The receipt of a transaction that commits in this state. -/
def receiptIn (st : State) (t : EventTransaction) : TransactionReceipt :=
  stagedReceipt t (t.participants.map (Staged.of st))

/-- The transaction is recorded now, with `stored` and `detail`. -/
structure Commits (store : InMemoryEventStore) (st : State) (t : EventTransaction)
    (stored : StoredTransaction) (detail : Option (OutcomeDetailReference × DetailState)) :
    Prop where
  items : t.eventCount + t.guardCount + transactionReceiptItems ≤ maxTransactionItems
  actors : ∀ b ∈ t.batches, b.actor = t.actor
  key : st.transactions.lookup (t.boundedContext, t.operationId) = none
  outcomes : st.transactions.keys.card < store.maximumOutcomes
  admissible : Admissible st t t.participants
  expected : ∀ p ∈ t.participants,
    validateExpectedVersion p.expectedVersion (st.currentVersion p.streamId) = .ok ()
  count : st.eventCount + t.eventCount < 2 ^ 64
  capacity : st.eventCount + t.eventCount ≤ store.maximumEvents
  room : ∀ p ∈ t.participants, HasRoom st p
  prepared : store.prepareStored t (.hash t) (receiptIn st t) = .ok (stored, detail)

/-- The writes of all participants, in order. -/
def recordAll (st : State) (staged : List Staged) : State :=
  staged.foldl (fun st x => recordStaged x st) st

/-- The state after a transaction. -/
def committed (st : State) (t : EventTransaction) (stored : StoredTransaction)
    (detail : Option (OutcomeDetailReference × DetailState)) : State :=
  let st' := recordAll st (t.participants.map (Staged.of st))
  { st' with
    eventCount := st.eventCount + t.eventCount
    transactions := st'.transactions.insert (t.boundedContext, t.operationId) stored
    details := detail.elim st'.details fun d => st'.details.insert d.1 d.2 }

/-- The answer and the state after a transaction that succeeds. -/
theorem appendTransactionInner_ok {stored : StoredTransaction} {replay : Bool}
    (h : store.appendTransactionInner t st = .ok (stored, replay) st') :
    (replay = true ∧ st' = st ∧
      st.transactions.lookup (t.boundedContext, t.operationId) = some stored ∧
      stored.proposal = .hash t) ∨
    (replay = false ∧ ∃ detail, store.Commits st t stored detail ∧
      st' = committed st t stored detail) := by
  simp only [appendTransactionInner, run_bind_ok, run_lift_ok, run_get_ok,
    validateTransactionItemLimit_eq_ok, ProposalDigest.of_eq_ok] at h
  obtain ⟨_, _, ⟨⟨hitems, rfl⟩, rfl⟩, _, _, ⟨⟨hactors, rfl⟩, rfl⟩, _, _, ⟨rfl, rfl⟩, h⟩ := h
  rcases hkey : st.transactions.lookup (t.boundedContext, t.operationId) with _ | previous
  · simp only [hkey, run_bind_ok, run_lift_ok, run_modify_ok, run_pure_ok, rejectIf_eq_ok,
      validateTransaction_eq_ok, newCount_eq_ok, stageAll_eq_ok, run_forM_modify,
      EStateM.Result.ok.injEq] at h
    obtain ⟨_, _, ⟨houtcomes, rfl⟩, _, _, ⟨⟨hadm, hexpected⟩, rfl⟩, _, _,
      ⟨⟨hcount, hcap, rfl⟩, rfl⟩, _, _, ⟨⟨hroom, rfl⟩, rfl⟩, ⟨_, detail⟩, _, ⟨hprepared, rfl⟩,
      _, _, ⟨-, rfl⟩, _, _, rfl, _, _, rfl, _, _, ⟨-, rfl⟩, hanswer, rfl⟩ := h
    obtain ⟨rfl, rfl⟩ := Prod.mk.inj hanswer
    refine .inr ⟨rfl, detail, ⟨hitems, hactors, hkey, by omega, hadm, hexpected, hcount, hcap,
      hroom, hprepared⟩, ?_⟩
    cases detail <;> rfl
  · simp only [hkey] at h
    split at h
    · next hsame =>
      simp only [run_pure_ok, Prod.mk.injEq] at h
      obtain ⟨⟨rfl, rfl⟩, rfl⟩ := h
      exact .inl ⟨rfl, rfl, rfl, hsame⟩
    · simp at h

/-- A transaction that fails changes nothing: all checks come before the first write. -/
theorem appendTransactionInner_error {e : EventStoreError}
    (h : store.appendTransactionInner t st = .error e st') : st' = st := by
  simp only [appendTransactionInner, run_bind_error, run_lift_ok, run_lift_error, run_get_ok,
    run_get_error, false_or] at h
  obtain ⟨-, rfl⟩ | ⟨_, _, ⟨-, rfl⟩, ⟨-, rfl⟩ | ⟨_, _, ⟨-, rfl⟩, _, _, ⟨rfl, rfl⟩, h⟩⟩ := h
  · rfl
  · rfl
  rcases hkey : st.transactions.lookup (t.boundedContext, t.operationId) with _ | previous
  · simp only [hkey, run_bind_error, run_lift_ok, run_lift_error, run_modify_error,
      run_pure_error, run_forM_modify, and_false, exists_false, or_false, reduceCtorEq] at h
    obtain ⟨-, rfl⟩ | ⟨_, _, ⟨-, rfl⟩, ⟨-, rfl⟩ | ⟨_, _, ⟨-, rfl⟩, ⟨-, rfl⟩ | ⟨_, _, ⟨-, rfl⟩,
      ⟨-, rfl⟩ | ⟨_, _, ⟨-, rfl⟩, -, rfl⟩⟩⟩⟩ := h <;> rfl
  · simp only [hkey] at h
    split at h <;> simp only [run_pure_error, run_throw_error] at h
    exact h.2.symm

/-! ## Expiry -/

omit [Crates] in
/-- An expiry that succeeds withdraws the details of the recorded marker. -/
theorem expireDetails_ok {key : OutcomeKey} {expected : OutcomeRevision} {expiry : OutcomeExpiry}
    (h : store.expireDetails key expected st = .ok expiry st') :
    key.authority = store.authority ∧
      ∃ marker, st.transactions.lookup (some key.context, key.operation) = some (.scoped marker) ∧
        marker.revision = expected ∧ marker.reference ∈ st.details ∧
        expiry = ⟨expected, .reclaimed⟩ ∧
        st' = { st with details := st.details.insert marker.reference .expired } := by
  simp only [expireDetails, run_bind_ok, run_lift_ok, run_get_ok] at h
  obtain ⟨_, _, ⟨hauth, rfl⟩, _, _, ⟨rfl, rfl⟩, h⟩ := h
  have hauth' : key.authority = store.authority := by
    by_contra hne
    simp [validateAuthority, rejectIf, hne, Except.mapError] at hauth
  refine ⟨hauth', ?_⟩
  rcases hkey : st.transactions.lookup (some key.context, key.operation) with _ | marker | _
  · simp [hkey] at h
  · simp only [hkey, run_bind_ok, run_lift_ok, rejectIf_eq_ok, not_not, ne_eq] at h
    obtain ⟨_, _, ⟨hrev, rfl⟩, h⟩ := h
    rcases hslot : st.details.lookup marker.reference with _ | detail
    · simp [hslot] at h
    · simp only [hslot, run_bind_ok, run_modify_ok, run_pure_ok] at h
      obtain ⟨_, _, rfl, rfl, rfl⟩ := h
      exact ⟨marker, rfl, hrev, Finmap.mem_of_lookup_eq_some hslot, rfl, rfl⟩
  · simp [hkey] at h

omit [Crates] in
/-- An expiry that fails changes nothing. -/
theorem expireDetails_error {key : OutcomeKey} {expected : OutcomeRevision}
    {e : OutcomeLifecycleError}
    (h : store.expireDetails key expected st = .error e st') : st' = st := by
  simp only [expireDetails, run_bind_error, run_lift_ok, run_lift_error, run_get_ok,
    run_get_error, false_or] at h
  obtain ⟨-, rfl⟩ | ⟨_, _, ⟨-, rfl⟩, _, _, ⟨rfl, rfl⟩, h⟩ := h
  · rfl
  rcases hkey : st.transactions.lookup (some key.context, key.operation) with _ | marker | _
  · simp only [hkey, run_throw_error] at h
    exact h.2.symm
  · simp only [hkey, run_bind_error, run_lift_ok, run_lift_error] at h
    obtain ⟨-, rfl⟩ | ⟨_, _, ⟨-, rfl⟩, h⟩ := h
    · rfl
    rcases hslot : st.details.lookup marker.reference with _ | detail
    · simp only [hslot, run_throw_error] at h
      exact h.2.symm
    · simp only [hslot, run_bind_error, run_modify_error, run_pure_error, and_false,
        exists_false, or_false] at h
  · simp only [hkey, run_throw_error] at h
    exact h.2.symm

end InMemoryEventStore

end Rostfrei
