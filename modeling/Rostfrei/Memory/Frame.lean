import Rostfrei.Memory.Spec

/-!
# What a commit writes

`Records st st' provenance participants`: `st'` is `st` with the batches of the participants
recorded, and nothing else of the streams and of the event indexes is touched. Direct appends and
transactions both satisfy it, so everything about streams is proved once from it.
-/

namespace Rostfrei

open Lib

namespace Memory

variable {st st' : State}

/-- The batches of the participants are recorded after the current versions of `st`; the rest of
the streams and of the indexes is as before. -/
structure Records (st st' : State) (provenance : AppendProvenance)
    (participants : List TransactionParticipant) : Prop where
  /-- A written stream grows by exactly the events of its batch. -/
  written : ∀ p ∈ participants, ∀ b ∈ p.batch,
    st'.stream p.streamId =
      st.stream p.streamId ++ RecordedEvent.ofBatch p.streamId (st.currentVersion p.streamId) b
  /-- Guards and the streams that do not take part keep their events. -/
  otherStreams : ∀ s, (∀ p ∈ participants, p.batch.isSome → p.streamId ≠ s) →
    st'.streams.lookup s = st.streams.lookup s
  operations : ∀ p ∈ participants, ∀ b ∈ p.batch,
    st'.operations.lookup (p.streamId, b.operationId) =
      some ⟨b, RecordedEvent.ofBatch p.streamId (st.currentVersion p.streamId) b, provenance⟩
  otherOperations : ∀ key,
    (∀ p ∈ participants, ∀ b ∈ p.batch, (p.streamId, b.operationId) ≠ key) →
      st'.operations.lookup key = st.operations.lookup key
  commits : ∀ p ∈ participants, ∀ b ∈ p.batch,
    st'.commits.lookup (p.streamId, b.commitId) = some b.operationId
  otherCommits : ∀ key,
    (∀ p ∈ participants, ∀ b ∈ p.batch, (p.streamId, b.commitId) ≠ key) →
      st'.commits.lookup key = st.commits.lookup key
  eventIds : ∀ key, key ∈ st'.eventIds ↔
    key ∈ st.eventIds ∨ ∃ p ∈ participants, ∃ b ∈ p.batch, ∃ e ∈ b.events,
      (p.streamId, e.eventId) = key

namespace State

@[simp] theorem stream_recordAppend (st : State) (s : StreamId) (b : EventBatch)
    (events : List RecordedEvent) (provenance : AppendProvenance) :
    (st.recordAppend s b events provenance).stream s = st.stream s ++ events := by
  simp [stream, recordAppend]

theorem lookup_recordAppend_of_ne {s s' : StreamId} (h : s' ≠ s) (st : State) (b : EventBatch)
    (events : List RecordedEvent) (provenance : AppendProvenance) :
    (st.recordAppend s b events provenance).streams.lookup s' = st.streams.lookup s' :=
  Finmap.lookup_insert_of_ne _ h

theorem stream_congr {s : StreamId} (h : st'.streams.lookup s = st.streams.lookup s) :
    st'.stream s = st.stream s := by
  rw [stream, h, stream]

theorem stream_recordAppend_of_ne {s s' : StreamId} (h : s' ≠ s) (st : State) (b : EventBatch)
    (events : List RecordedEvent) (provenance : AppendProvenance) :
    (st.recordAppend s b events provenance).stream s' = st.stream s' :=
  stream_congr (lookup_recordAppend_of_ne h ..)

end State

/-- Guards and the streams that do not take part keep their events. -/
theorem Records.unwritten {provenance : AppendProvenance} {ps : List TransactionParticipant}
    (h : Records st st' provenance ps) (s : StreamId)
    (hs : ∀ p ∈ ps, p.batch.isSome → p.streamId ≠ s) : st'.stream s = st.stream s :=
  State.stream_congr (h.otherStreams s hs)

/-- Recording one batch. -/
theorem records_recordAppend (st : State) (s : StreamId) (expected : ExpectedVersion)
    (b : EventBatch) (provenance : AppendProvenance) :
    Records st (st.recordAppend s b (RecordedEvent.ofBatch s (st.currentVersion s) b) provenance) provenance
      [⟨s, expected, some b⟩] where
  written := by simp
  otherStreams := by
    intro s' h
    have hne : s ≠ s' := h ⟨s, expected, some b⟩ (by simp) rfl
    exact State.lookup_recordAppend_of_ne hne.symm ..
  operations := by simp [State.recordAppend]
  otherOperations := by
    intro key h
    have hne : (s, b.operationId) ≠ key := h ⟨s, expected, some b⟩ (by simp) b rfl
    exact Finmap.lookup_insert_of_ne _ hne.symm
  commits := by simp [State.recordAppend]
  otherCommits := by
    intro key h
    have hne : (s, b.commitId) ≠ key := h ⟨s, expected, some b⟩ (by simp) b rfl
    exact Finmap.lookup_insert_of_ne _ hne.symm
  eventIds := by
    intro key
    simp [State.recordAppend]

/-- The event bookkeeping does not look at the other fields. -/
theorem Records.congr {provenance : AppendProvenance} {ps : List TransactionParticipant}
    {st'' : State} (h : Records st st' provenance ps) (hs : st''.streams = st'.streams)
    (ho : st''.operations = st'.operations) (hc : st''.commits = st'.commits)
    (he : st''.eventIds = st'.eventIds) : Records st st'' provenance ps := by
  have hstream : ∀ s, st''.stream s = st'.stream s := fun s => by simp [State.stream, hs]
  constructor
  · simpa only [hstream] using h.written
  · simpa only [hs] using h.otherStreams
  · simpa only [ho] using h.operations
  · simpa only [ho] using h.otherOperations
  · simpa only [hc] using h.commits
  · simpa only [hc] using h.otherCommits
  · simpa only [he] using h.eventIds

/-- One more participant, on a stream that the recorded ones do not write. -/
theorem Records.snoc {provenance : AppendProvenance} {ps : List TransactionParticipant}
    {p : TransactionParticipant} (h : Records st st' provenance ps)
    (hp : ∀ q ∈ ps, q.streamId ≠ p.streamId) {b : EventBatch} (hb : p.batch = some b) :
    Records st
      (st'.recordAppend p.streamId b (RecordedEvent.ofBatch p.streamId (st.currentVersion p.streamId) b)
        provenance)
      provenance (ps ++ [p]) := by
  have hsame : st'.stream p.streamId = st.stream p.streamId :=
    h.unwritten p.streamId fun q hq _ => hp q hq
  have hmem : ∀ {P : TransactionParticipant → Prop}, (∀ q ∈ ps ++ [p], P q) ↔
      (∀ q ∈ ps, P q) ∧ P p := by
    intro P
    simp only [List.forall_mem_append, List.forall_mem_singleton]
  have hbatch : ∀ {P : EventBatch → Prop}, (∀ b' ∈ p.batch, P b') ↔ P b := by
    intro P
    simp [hb]
  constructor
  · rw [hmem]
    refine ⟨fun q hq b' hb' => ?_, hbatch.mpr ?_⟩
    · rw [State.stream_recordAppend_of_ne (hp q hq), h.written q hq b' hb']
    · rw [State.stream_recordAppend, hsame]
  · intro s hs
    rw [hmem] at hs
    rw [State.lookup_recordAppend_of_ne (hs.2 (by simp [hb])).symm, h.otherStreams s hs.1]
  · rw [hmem]
    refine ⟨fun q hq b' hb' => ?_, hbatch.mpr ?_⟩
    · rw [State.recordAppend, Finmap.lookup_insert_of_ne _ (by simp [hp q hq]),
        h.operations q hq b' hb']
    · simp [State.recordAppend]
  · intro key hkey
    rw [hmem, hbatch] at hkey
    rw [State.recordAppend, Finmap.lookup_insert_of_ne _ hkey.2.symm, h.otherOperations key hkey.1]
  · rw [hmem]
    refine ⟨fun q hq b' hb' => ?_, hbatch.mpr ?_⟩
    · rw [State.recordAppend, Finmap.lookup_insert_of_ne _ (by simp [hp q hq]),
        h.commits q hq b' hb']
    · simp [State.recordAppend]
  · intro key hkey
    rw [hmem, hbatch] at hkey
    rw [State.recordAppend, Finmap.lookup_insert_of_ne _ hkey.2.symm, h.otherCommits key hkey.1]
  · intro key
    have hnew : key ∈ (st'.recordAppend p.streamId b
        (RecordedEvent.ofBatch p.streamId (st.currentVersion p.streamId) b) provenance).eventIds ↔
        key ∈ st'.eventIds ∨ ∃ e ∈ b.events, (p.streamId, e.eventId) = key := by
      simp [State.recordAppend]
    rw [hnew, h.eventIds, or_assoc]
    simp [or_and_right, exists_or, hb]

/-- Guards write nothing. -/
theorem Records.snoc_guard {provenance : AppendProvenance} {ps : List TransactionParticipant}
    {p : TransactionParticipant} (h : Records st st' provenance ps) (hb : p.batch = none) :
    Records st st' provenance (ps ++ [p]) := by
  have hmem : ∀ {P : TransactionParticipant → Prop}, (∀ q ∈ ps ++ [p], P q) ↔
      (∀ q ∈ ps, P q) ∧ P p := by
    intro P
    simp only [List.forall_mem_append, List.forall_mem_singleton]
  constructor
  · rw [hmem]; exact ⟨h.written, by simp [hb]⟩
  · intro s hs; exact h.otherStreams s (hmem.mp hs).1
  · rw [hmem]; exact ⟨h.operations, by simp [hb]⟩
  · intro key hkey; exact h.otherOperations key (hmem.mp hkey).1
  · rw [hmem]; exact ⟨h.commits, by simp [hb]⟩
  · intro key hkey; exact h.otherCommits key (hmem.mp hkey).1
  · intro key
    rw [h.eventIds]
    simp [or_and_right, exists_or, hb]

theorem Records.refl (st : State) (provenance : AppendProvenance) :
    Records st st provenance [] := by
  constructor <;> simp

end Memory

namespace InMemoryEventStore

open Memory

variable {store : InMemoryEventStore} {st : State}

/-- The recording loop records every participant. -/
theorem records_recordAll (st : State) {ps : List TransactionParticipant}
    (hnodup : (ps.map (·.streamId)).Nodup) :
    Records st (recordAll st (ps.map (Staged.of st))) .transaction ps := by
  -- From the front: the state after the first participants, for the next one.
  induction ps using List.reverseRecOn with
  | nil => exact Records.refl st .transaction
  | append_singleton ps p ih =>
    rw [List.map_append, List.nodup_append] at hnodup
    have hp : ∀ q ∈ ps, q.streamId ≠ p.streamId := fun q hq =>
      hnodup.2.2 _ (List.mem_map_of_mem hq) _ (by simp)
    have hih := ih hnodup.1
    have hfold : recordAll st ((ps ++ [p]).map (Staged.of st)) =
        recordStaged (Staged.of st p) (recordAll st (ps.map (Staged.of st))) := by
      simp [recordAll]
    rw [hfold]
    rcases hb : p.batch with _ | b
    · simpa [recordStaged, Staged.of, hb] using hih.snoc_guard hb
    · simpa [recordStaged, Staged.of, hb] using hih.snoc hp hb

theorem records_committed (st : State) {t : EventTransaction} (stored : StoredTransaction)
    (detail : Option (OutcomeDetailReference × DetailState))
    (hnodup : (t.participants.map (·.streamId)).Nodup) :
    Records st (committed st t stored detail) .transaction t.participants :=
  (records_recordAll st hnodup).congr rfl rfl rfl rfl

theorem records_appended (st : State) (streamId : StreamId) (expected : ExpectedVersion)
    (batch : EventBatch) :
    Records st (appended st streamId batch) .direct [⟨streamId, expected, some batch⟩] :=
  (records_recordAppend st streamId expected batch .direct).congr rfl rfl rfl rfl

/-- The recording loop leaves transactions, details and the counter alone. -/
theorem recordAll_rest (st : State) (staged : List Staged) :
    (recordAll st staged).transactions = st.transactions ∧
      (recordAll st staged).details = st.details ∧
      (recordAll st staged).eventCount = st.eventCount := by
  induction staged generalizing st with
  | nil => exact ⟨rfl, rfl, rfl⟩
  | cons x xs ih =>
    have hx : (recordStaged x st).transactions = st.transactions ∧
        (recordStaged x st).details = st.details ∧
        (recordStaged x st).eventCount = st.eventCount := by
      unfold recordStaged
      split <;> exact ⟨rfl, rfl, rfl⟩
    have h := ih (recordStaged x st)
    exact ⟨h.1.trans hx.1, h.2.1.trans hx.2.1, h.2.2.trans hx.2.2⟩

@[simp] theorem committed_transactions (st : State) (t : EventTransaction)
    (stored : StoredTransaction) (detail : Option (OutcomeDetailReference × DetailState)) :
    (committed st t stored detail).transactions =
      st.transactions.insert (t.boundedContext, t.operationId) stored := by
  simp [committed, (recordAll_rest st _).1]

@[simp] theorem committed_details (st : State) (t : EventTransaction)
    (stored : StoredTransaction) (detail : Option (OutcomeDetailReference × DetailState)) :
    (committed st t stored detail).details =
      detail.elim st.details fun d => st.details.insert d.1 d.2 := by
  simp [committed, (recordAll_rest st _).2.1]

end InMemoryEventStore

end Rostfrei
