import Rostfrei.Memory.Invariant

/-!
# Reachable states

The requests of the in-memory store and the states that sequences of them reach. Every request is
one `Step`; the invariant is kept by every step, so it holds of every reachable state.
-/

namespace Rostfrei

open Lib

namespace InMemoryEventStore

open Memory

variable [Crates] {store : InMemoryEventStore} {st st' : State}

/-- What one call can do to the state. -/
inductive Step (store : InMemoryEventStore) (st : State) : State → Prop where
  | same : Step store st st
  | append {streamId : StreamId} {expected : ExpectedVersion} {batch : EventBatch}
      (h : store.Appends st streamId expected batch) : Step store st (appended st streamId batch)
  | commit {t : EventTransaction} {stored : StoredTransaction}
      {detail : Option (OutcomeDetailReference × DetailState)}
      (h : store.Commits st t stored detail) : Step store st (committed st t stored detail)
  | expire {context : BoundedContextName} {op : OperationId} {marker : OutcomeMarker}
      (h : st.transactions.lookup (some context, op) = some (.scoped marker))
      (hslot : marker.reference ∈ st.details) :
      Step store st { st with details := st.details.insert marker.reference .expired }

inductive Request where
  | append (streamId : StreamId) (expected : ExpectedVersion) (batch : EventBatch)
  | appendTransaction (t : EventTransaction)
  | sessionCommitOutcome (t : EventTransaction)
  | commitOutcome (t : EventTransaction)
  | expireDetails (key : OutcomeKey) (expected : OutcomeRevision)

/-- The state after a request, whatever its answer. -/
def Request.apply (store : InMemoryEventStore) (st : State) : Request → State
  | append streamId expected batch => finalState (store.append streamId expected batch st)
  | appendTransaction t => finalState (store.appendTransaction t st)
  | sessionCommitOutcome t => finalState (store.sessionCommitOutcome t st)
  | commitOutcome t => finalState (store.commitOutcome t st)
  | expireDetails key expected => finalState (store.expireDetails key expected st)

/-- The state after a sequence of requests to an empty store. -/
def run (store : InMemoryEventStore) (requests : List Request) : State :=
  requests.foldl (Request.apply store) .empty

theorem appendTransactionInner_step (t : EventTransaction) :
    Step store st (finalState (store.appendTransactionInner t st)) := by
  cases hr : store.appendTransactionInner t st with
  | error e st₁ =>
    obtain rfl := appendTransactionInner_error hr
    exact .same
  | ok r st₁ =>
    obtain ⟨stored, replay⟩ := r
    obtain ⟨-, rfl, -⟩ | ⟨-, detail, hc, rfl⟩ := appendTransactionInner_ok hr
    · exact .same
    · exact .commit hc

theorem append_step (streamId : StreamId) (expected : ExpectedVersion) (batch : EventBatch) :
    Step store st (finalState (store.append streamId expected batch st)) := by
  cases hr : store.append streamId expected batch st with
  | error e st₁ =>
    obtain rfl := append_error hr
    exact .same
  | ok r st₁ =>
    obtain ⟨_, -, -, -, -, rfl⟩ | ⟨ha, -, rfl⟩ := append_ok hr
    · exact .same
    · exact .append ha

/-- A transaction call stops before the inner call, or leaves the inner call's state. -/
theorem finalState_appendTransaction (t : EventTransaction) :
    finalState (store.appendTransaction t st) = st ∨
      finalState (store.appendTransaction t st) =
        finalState (store.appendTransactionInner t st) := by
  rw [appendTransaction, finalState_lift_bind]
  split
  · rw [finalState_bind_readOnly]
    · exact .inr rfl
    · intro r
      exact (ReadOnly.lift _).bind fun _ => .pure _
  · exact .inl rfl

/-- After a valid decision, the session only reads what the inner call left. -/
theorem finalState_sessionCommitOutcome_of_valid {t : EventTransaction}
    (h : validateCompletedTransaction t = .ok ()) :
    finalState (store.sessionCommitOutcome t st) =
      finalState (store.appendTransactionInner t st) := by
  rw [sessionCommitOutcome, finalState_lift_bind, h]
  rw [finalState_bind_readOnly]
  rintro ⟨stored, replay⟩
  rcases stored with marker | ⟨proposal, receipt⟩
  · exact ReadOnly.get.bind fun _ => (ReadOnly.lift _).bind fun _ => .pure _
  · exact .throw _

theorem finalState_sessionCommitOutcome (t : EventTransaction) :
    finalState (store.sessionCommitOutcome t st) = st ∨
      finalState (store.sessionCommitOutcome t st) =
        finalState (store.appendTransactionInner t st) := by
  cases h : validateCompletedTransaction t with
  | ok => exact .inr (finalState_sessionCommitOutcome_of_valid h)
  | error e =>
    rw [sessionCommitOutcome, finalState_lift_bind, h]
    exact .inl rfl

theorem finalState_commitOutcome (t : EventTransaction) :
    finalState (store.commitOutcome t st) = finalState (store.sessionCommitOutcome t st) := by
  rw [commitOutcome, finalState_bind_readOnly]
  intro r
  cases r <;> exact (ReadOnly.lift _).bind fun _ => .pure _

/-- The transaction that a request proposes, if it is one. -/
def Request.transaction? : Request → Option EventTransaction
  | appendTransaction t | sessionCommitOutcome t | commitOutcome t => some t
  | append .. | expireDetails .. => none

/-- A request for a transaction changes nothing, or commits it. -/
theorem Request.apply_transaction (store : InMemoryEventStore) (st : State) {request : Request}
    {t : EventTransaction}
    (h : request.transaction? = some t) :
    request.apply store st = st ∨ request.apply store st =
      finalState (store.appendTransactionInner t st) := by
  cases request with
  | append | expireDetails => cases h
  | appendTransaction t' =>
    obtain rfl := Option.some.inj h
    exact finalState_appendTransaction t'
  | sessionCommitOutcome t' =>
    obtain rfl := Option.some.inj h
    exact finalState_sessionCommitOutcome t'
  | commitOutcome t' =>
    obtain rfl := Option.some.inj h
    show finalState (store.commitOutcome t' st) = st ∨ finalState (store.commitOutcome t' st) = _
    rw [finalState_commitOutcome]
    exact finalState_sessionCommitOutcome t'

theorem Request.transaction_step {request : Request} {t : EventTransaction}
    (h : request.transaction? = some t) : Step store st (request.apply store st) := by
  obtain hsame | hinner := Request.apply_transaction store st h
  · rw [hsame]
    exact .same
  · rw [hinner]
    exact appendTransactionInner_step t

theorem expireDetails_step (key : OutcomeKey) (expected : OutcomeRevision) :
    Step store st (finalState (store.expireDetails key expected st)) := by
  cases hr : store.expireDetails key expected st with
  | error e st₁ =>
    obtain rfl := expireDetails_error hr
    exact .same
  | ok r st₁ =>
    obtain ⟨-, marker, hkey, -, hslot, -, rfl⟩ := expireDetails_ok hr
    exact .expire hkey hslot

/-- Every request is a step. -/
theorem Request.step (request : Request) : Step store st (request.apply store st) := by
  cases request with
  | append streamId expected batch => exact append_step streamId expected batch
  | appendTransaction | sessionCommitOutcome | commitOutcome => exact transaction_step rfl
  | expireDetails key expected => exact expireDetails_step key expected

/-! ## The invariant along runs -/

/-- One call keeps the invariant. -/
theorem Invariant.step (h : store.Invariant st) (hstep : Step store st st') :
    store.Invariant st' := by
  obtain ⟨log, hlog⟩ := h.streams
  cases hstep with
  | same => exact h
  | @append streamId expected batch ha =>
    refine ⟨?_, ?_, ha.capacity, h.outcomes.frame rfl fun _ => Iff.rfl⟩
    · refine streams_of_records hlog (records_appended st streamId expected batch) (by simp) ?_ ?_
      · simpa using ha.fresh
      · simpa [HasRoom] using ha.room
    · rw [totalEvents_appended, ← h.count]
      rfl
  | @commit t stored detail hc =>
    refine ⟨?_, ?_, hc.capacity, ?_⟩
    · exact streams_of_records hlog (records_committed st stored detail hc.admissible.nodup)
        hc.admissible.nodup (fun p hp b hb => (hc.admissible.batches p hp b hb).2) hc.room
    · rw [totalEvents_committed, ← h.count]
      rfl
    · obtain ⟨context, bytes, hctx, -, -, rfl, rfl⟩ | ⟨hctx, rfl, rfl⟩ :=
        prepareStored_ok hc.prepared
      · set marker := OutcomeMarker.ofDetails ⟨store.authority, context, t.operationId⟩ t
          (receiptIn st t) bytes
        have ht := committed_transactions st t (.scoped marker)
          (some (marker.reference, .active bytes))
        have hd := committed_details st t (.scoped marker)
          (some (marker.reference, .active bytes))
        rw [hctx] at ht
        exact h.outcomes.commit_scoped rfl (hctx ▸ hc.key) ht hd
      · have ht := committed_transactions st t (.unscoped (.hash t) (receiptIn st t)) none
        rw [hctx] at ht
        exact h.outcomes.commit_unscoped ht (committed_details ..)
  | @expire context op marker hkey hslot =>
    refine ⟨⟨log, fun s => (hlog s).frame rfl (fun _ => rfl) (fun _ => rfl) fun _ => Iff.rfl⟩,
      h.count, h.capacity, h.outcomes.frame rfl fun reference => ?_⟩
    rw [Finmap.mem_insert]
    exact ⟨fun hr => hr.elim (fun heq => heq ▸ hslot) id, .inr⟩

/-- A run of requests keeps the invariant. -/
theorem invariant_foldl {requests : List Request} (h : store.Invariant st) :
    store.Invariant (requests.foldl (Request.apply store) st) := by
  induction requests generalizing st with
  | nil => exact h
  | cons request requests ih => exact ih (h.step request.step)

/-- Every reachable state satisfies the invariant. -/
theorem invariant_run (store : InMemoryEventStore) (requests : List Request) :
    store.Invariant (store.run requests) :=
  invariant_foldl invariant_empty

/-! ## What the invariant says -/

/-- The state in the words of the interface. -/
structure WellFormed (store : InMemoryEventStore) (st : State) : Prop where
  /-- The versions of a stored stream are `1..n`, in order. -/
  versions : ∀ s, (st.stream s).map (·.streamVersion) = List.range' 1 (st.stream s).length
  /-- The executor accepts every stored stream as a history. -/
  history : ∀ s, validateHistory s (st.stream s) = .ok ()
  /-- The counter is the sum of the stream lengths. -/
  count : st.eventCount = ∑ s ∈ st.streams.keys, (st.stream s).length
  capacity : st.eventCount ≤ store.maximumEvents
  /-- The identity index holds exactly the identities of stored events. -/
  eventIds : ∀ s e, (s, e) ∈ st.eventIds ↔ ∃ event ∈ st.stream s, event.eventId = e
  /-- No identity is stored twice. -/
  eventIds_nodup : ∀ s, ((st.stream s).map (·.eventId)).Nodup
  /-- Every stored event belongs to exactly one recorded append of its stream. -/
  appends : ∀ s, ∀ event ∈ st.stream s,
    ∃! op, ∃ a, st.operations.lookup (s, op) = some a ∧ event ∈ a.events
  /-- The events of a recorded append are one contiguous block of its stream. -/
  blocks : ∀ s op a, st.operations.lookup (s, op) = some a → a.events <:+: st.stream s
  /-- A transaction with a context has exactly one details slot, the one its marker names. -/
  details : ∀ context op stored, st.transactions.lookup (some context, op) = some stored →
    ∃ marker, stored = .scoped marker ∧ ∀ reference,
      reference ∈ st.details ∧ reference.key = ⟨store.authority, context, op⟩ ↔
        reference = marker.reference

theorem Invariant.wellFormed (h : store.Invariant st) : store.WellFormed st := by
  obtain ⟨log, hlog⟩ := h.streams
  constructor
  · intro s
    rw [(hlog s).stream, map_streamVersion_journalEvents, length_journalEvents]
  · intro s
    rw [(hlog s).stream]
    exact validateHistory_journal (hlog s).journal
  · exact h.count
  · exact h.capacity
  · intro s e
    rw [(hlog s).eventIds, List.mem_map]
  · intro s
    rw [(hlog s).stream, map_eventId_journalEvents]
    exact (hlog s).journal.eventIds
  · intro s event he
    obtain ⟨a, ha, hea⟩ := (hlog s).mem_append he
    refine ⟨a.batch.operationId, ⟨a, ((hlog s).operations _ a).mpr ⟨ha, rfl⟩, hea⟩, ?_⟩
    rintro op ⟨b, hb, heb⟩
    obtain ⟨hmem, rfl⟩ := ((hlog s).operations _ b).mp hb
    exact (hlog s).append_unique hmem ha heb hea
  · intro s op a ha
    exact (hlog s).events_block (((hlog s).operations op a).mp ha).1
  · intro context op stored hl
    obtain ⟨marker, rfl, hkey, hmem⟩ := h.outcomes.markers context op stored hl
    refine ⟨marker, rfl, fun reference => ⟨?_, ?_⟩⟩
    · rintro ⟨hr, hrkey⟩
      obtain ⟨-, marker', hl', rfl⟩ := h.outcomes.slots reference hr
      rw [hrkey, hl, Option.some.injEq, StoredTransaction.scoped.injEq] at hl'
      rw [hl']
    · rintro rfl
      exact ⟨hmem, hkey⟩

/-- After any sequence of requests to an empty store, with any maxima, the state is well formed. -/
theorem run_wellFormed (store : InMemoryEventStore) (requests : List Request) :
    store.WellFormed (store.run requests) :=
  (invariant_run store requests).wellFormed

end InMemoryEventStore

end Rostfrei
