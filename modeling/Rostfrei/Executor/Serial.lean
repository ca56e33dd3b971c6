import Rostfrei.Executor.Loop
import Rostfrei.Memory.Replay

/-!
# Executing commands one after another

The abstract machine that the concurrent executor refines. A `Decision` is one step of it: in one
moment a handler reads its aggregates, decides, and its transaction is committed. A `SerialRun` is
a sequence of such steps, and everything the executor is meant to guarantee can be read off it:

* `SerialRun.nodup`: an operation of a context is decided once.
* `SerialRun.stream`: the streams hold the events of the decisions, and nothing else.
* `Decision.Known`: the record of a decision stays, and the store gives its outcome.
-/

namespace Rostfrei

open Lib Memory

variable [Crates]

/-- The histories of one state. -/
def Memory.State.history (st : State) : EventHistory Id := fun streamId => .ok (st.stream streamId)

/-- The transaction that an attempt of a command proposes, if the store stays in the state `st` from
its first load to its last. -/
def Execution.proposal (e : Execution) (st : State) (handler : Handler e.Rejection) :
    Except CommandExecutionError EventTransaction := do
  let m ← e.metadata
  let (decision, x) := Id.run (CommandExecution.handle st.history e.executor.codecs m handler .new)
  let (participants, rejection) ← settle e.codec decision x
  (prepareTransaction m participants rejection).mapError .store

/-- A command that is decided, with the marker and the details that are stored for it. -/
structure Decision where
  execution : Execution
  handler : Handler execution.Rejection
  before : State
  transaction : EventTransaction
  context : BoundedContextName
  bytes : Bytes

namespace Decision

def marker (store : InMemoryEventStore) (d : Decision) : OutcomeMarker :=
  .ofDetails ⟨store.authority, d.context, d.transaction.operationId⟩ d.transaction
    (InMemoryEventStore.receiptIn d.before d.transaction) d.bytes

def after (store : InMemoryEventStore) (d : Decision) : State :=
  InMemoryEventStore.committed d.before d.transaction (.scoped (d.marker store))
    (some ((d.marker store).reference, .active d.bytes))

omit [Crates] in
/-- What is decided: an operation of a context. -/
def key (d : Decision) : BoundedContextName × OperationId := (d.context, d.transaction.operationId)

/-- The outcome of a decision: its marker, and the evidence and rejection of its transaction. -/
def outcome (store : InMemoryEventStore) (d : Decision) : CompletedOutcome :=
  ⟨d.marker store, .available ⟨(d.marker store).reference, d.transaction.completion⟩⟩

omit [Crates] in
/-- The events of a decision in one stream. -/
def events (d : Decision) (streamId : StreamId) : List RecordedEvent :=
  d.transaction.participants.flatMap fun p =>
    if p.streamId = streamId then (Staged.of d.before p).events else []

/-- The decision is what a handler of an issued command decides in the state before it, and the
store commits it there. -/
structure Valid (store : InMemoryEventStore) (issued : Execution → Prop) (d : Decision) : Prop where
  issued : issued d.execution
  attempt : d.handler ∈ d.execution.attempts
  context : d.transaction.boundedContext = some d.context
  proposed : d.execution.proposal d.before d.handler = .ok d.transaction
  commits : store.Commits d.before d.transaction (.scoped (d.marker store))
    (some ((d.marker store).reference, .active d.bytes))

end Decision

/-- Decisions one after another, each in the state that the one before left. -/
def SerialRun (store : InMemoryEventStore) (issued : Execution → Prop) :
    State → List Decision → State → Prop
  | st, [], st' => st = st'
  | st, d :: log, st' => d.before = st ∧ d.Valid store issued ∧
      SerialRun store issued (d.after store) log st'

variable {store : InMemoryEventStore} {issued : Execution → Prop} {st st' st'' : State}
  {d : Decision} {log log' : List Decision}

/-! ## One decision -/

namespace Decision

theorem Valid.step (h : d.Valid store issued) :
    InMemoryEventStore.Step store d.before (d.after store) := .commit h.commits

theorem Valid.lookup_self (h : d.Valid store issued) :
    (d.after store).transactions.lookup (some d.context, d.transaction.operationId) =
      some (.scoped (d.marker store)) := by
  rw [after, InMemoryEventStore.committed_transactions, h.context, Finmap.lookup_insert]

theorem Valid.lookup_other (h : d.Valid store issued) {context : BoundedContextName}
    {op : OperationId} (hne : (context, op) ≠ d.key) :
    (d.after store).transactions.lookup (some context, op) =
      d.before.transactions.lookup (some context, op) := by
  rw [after, InMemoryEventStore.committed_transactions, h.context, Finmap.lookup_insert_of_ne]
  intro heq
  obtain ⟨hcontext, hop⟩ := Prod.mk.inj heq
  exact hne (by rw [key, Option.some.inj hcontext, hop])

theorem Valid.free (h : d.Valid store issued) :
    d.before.transactions.lookup (some d.context, d.transaction.operationId) = none := by
  rw [← h.context]
  exact h.commits.key

/-- The streams of the participants are distinct, so the events of a stream are those of one. -/
theorem Valid.events_participant (h : d.Valid store issued) {p : TransactionParticipant}
    (hp : p ∈ d.transaction.participants) :
    d.events p.streamId = (Staged.of d.before p).events := by
  have hnodup := h.commits.admissible.nodup
  obtain ⟨xs, ys, hsplit⟩ := List.append_of_mem hp
  rw [hsplit, List.map_append, List.map_cons, List.nodup_append, List.nodup_cons] at hnodup
  have hxs : ∀ q ∈ xs, q.streamId ≠ p.streamId := fun q hq =>
    hnodup.2.2 _ (List.mem_map_of_mem hq) _ (by simp)
  have hys : ∀ q ∈ ys, q.streamId ≠ p.streamId := fun q hq heq =>
    hnodup.2.1.1 (heq ▸ List.mem_map_of_mem hq)
  have hzero : ∀ qs : List TransactionParticipant, (∀ q ∈ qs, q.streamId ≠ p.streamId) →
      (qs.flatMap fun q => if q.streamId = p.streamId then (Staged.of d.before q).events
        else []) = [] := by
    intro qs hqs
    rw [List.flatMap_eq_nil_iff]
    exact fun q hq => if_neg (hqs q hq)
  rw [events, hsplit, List.flatMap_append, List.flatMap_cons, hzero xs hxs, hzero ys hys,
    if_pos rfl]
  simp

/-- A stream grows by the events of the decision in it. -/
theorem Valid.stream (h : d.Valid store issued) (streamId : StreamId) :
    (d.after store).stream streamId = d.before.stream streamId ++ d.events streamId := by
  have hrec : Records d.before (d.after store) .transaction d.transaction.participants :=
    InMemoryEventStore.records_committed _ _ _ h.commits.admissible.nodup
  by_cases hp : ∃ p ∈ d.transaction.participants, p.streamId = streamId
  · obtain ⟨p, hp, rfl⟩ := hp
    rw [h.events_participant hp]
    rcases hb : p.batch with _ | b
    · have hguard : (d.after store).stream p.streamId = d.before.stream p.streamId := by
        refine hrec.unwritten p.streamId fun q hq hsome heq => ?_
        obtain rfl := List.inj_on_of_nodup_map h.commits.admissible.nodup hq hp heq
        rw [hb] at hsome
        cases hsome
      simpa [Staged.of, hb] using hguard
    · simpa [Staged.of, hb] using hrec.written p hp b hb
  · have hkeep : (d.after store).stream streamId = d.before.stream streamId :=
      hrec.unwritten streamId fun q hq _ heq => hp ⟨q, hq, heq⟩
    have hnone : d.events streamId = [] := by
      rw [events, List.flatMap_eq_nil_iff]
      exact fun q hq => if_neg fun heq => hp ⟨q, hq, heq⟩
    rw [hkeep, hnone, List.append_nil]

/-- The record of a decision, as the store's own laws know it. -/
theorem Valid.recorded (h : d.Valid store issued) :
    store.Recorded d.context d.transaction
      (InMemoryEventStore.receiptIn d.before d.transaction) (d.marker store) d.bytes := by
  obtain ⟨context, bytes, hctx, hvalid, hencode, hstored, hdetail⟩ | ⟨hnone, -, -⟩ :=
    InMemoryEventStore.prepareStored_ok h.commits.prepared
  · obtain rfl := Option.some.inj (h.context.symm.trans hctx)
    obtain rfl : d.bytes = bytes := by
      have := (Prod.mk.inj (Option.some.inj hdetail)).2
      exact DetailState.active.inj this
    exact ⟨h.context, TransactionReceipt.valid_completion hvalid, hencode, rfl⟩
  · rw [h.context] at hnone
    cases hnone

/-- A decision writes the details of its own key only. -/
theorem Valid.details_other (h : d.Valid store issued) {reference : OutcomeDetailReference}
    (hne : (reference.key.context, reference.key.operation) ≠ d.key) :
    (d.after store).details.lookup reference = d.before.details.lookup reference := by
  rw [after, InMemoryEventStore.committed_details]
  refine Finmap.lookup_insert_of_ne _ fun heq => hne ?_
  rw [heq, h.recorded.key, key]

end Decision

/-! ## Runs of decisions -/

namespace SerialRun

theorem append (h : SerialRun store issued st log st')
    (h' : SerialRun store issued st' log' st'') : SerialRun store issued st (log ++ log') st'' := by
  induction log generalizing st with
  | nil =>
    obtain rfl : st = st' := h
    exact h'
  | cons d log ih => exact ⟨h.1, h.2.1, ih h.2.2⟩

theorem single (h : d.Valid store issued) :
    SerialRun store issued d.before [d] (d.after store) := ⟨rfl, h, rfl⟩

/-- A run from the empty store satisfies the invariant of the store. -/
theorem invariant (h : SerialRun store issued st log st') (hinv : store.Invariant st) :
    store.Invariant st' := by
  induction log generalizing st with
  | nil =>
    obtain rfl : st = st' := h
    exact hinv
  | cons d log ih =>
    obtain ⟨rfl, hd, hrest⟩ := h
    exact ih hrest (hinv.step hd.step)

/-- The streams grow by the events of the decisions. -/
theorem stream (h : SerialRun store issued st log st') (streamId : StreamId) :
    st'.stream streamId = st.stream streamId ++ log.flatMap (·.events streamId) := by
  induction log generalizing st with
  | nil =>
    obtain rfl : st = st' := h
    simp
  | cons d log ih =>
    obtain ⟨rfl, hd, hrest⟩ := h
    rw [ih hrest, hd.stream, List.flatMap_cons, List.append_assoc]

/-- A record stays. -/
theorem lookup_kept (h : SerialRun store issued st log st') {context : BoundedContextName}
    {op : OperationId} {stored : StoredTransaction}
    (hl : st.transactions.lookup (some context, op) = some stored) :
    st'.transactions.lookup (some context, op) = some stored := by
  induction log generalizing st with
  | nil =>
    obtain rfl : st = st' := h
    exact hl
  | cons d log ih =>
    obtain ⟨rfl, hd, hrest⟩ := h
    refine ih hrest ?_
    rw [hd.lookup_other, hl]
    intro heq
    obtain ⟨rfl, rfl⟩ := Prod.mk.inj heq
    rw [hd.free] at hl
    cases hl

/-- Details of a key that has a record stay. -/
theorem details_kept (h : SerialRun store issued st log st') {reference : OutcomeDetailReference}
    {stored : StoredTransaction}
    (hl : st.transactions.lookup (some reference.key.context, reference.key.operation) =
      some stored) :
    st'.details.lookup reference = st.details.lookup reference := by
  induction log generalizing st with
  | nil =>
    obtain rfl : st = st' := h
    rfl
  | cons d log ih =>
    obtain ⟨rfl, hd, hrest⟩ := h
    have hne : (reference.key.context, reference.key.operation) ≠ d.key := by
      intro heq
      obtain ⟨hcontext, hop⟩ := Prod.mk.inj heq
      rw [hcontext, hop, hd.free] at hl
      cases hl
    rw [ih hrest (by rw [hd.lookup_other hne]; exact hl), hd.details_other hne]

/-- Every record of a run was there before, or is that of a decision. -/
theorem record_cases (h : SerialRun store issued st log st') {context : BoundedContextName}
    {op : OperationId} {stored : StoredTransaction}
    (hl : st'.transactions.lookup (some context, op) = some stored) :
    st.transactions.lookup (some context, op) = some stored ∨ ∃ d ∈ log, d.key = (context, op) := by
  induction log generalizing st with
  | nil =>
    obtain rfl : st = st' := h
    exact .inl hl
  | cons d log ih =>
    obtain ⟨rfl, hd, hrest⟩ := h
    by_cases hkey : (context, op) = d.key
    · exact .inr ⟨d, by simp, hkey.symm⟩
    · obtain hafter | ⟨d', hd', hkey'⟩ := ih hrest
      · exact .inl (by rwa [hd.lookup_other hkey] at hafter)
      · exact .inr ⟨d', by simp [hd'], hkey'⟩

/-- The state and the run before a decision of a run, and those after it. -/
theorem split (h : SerialRun store issued st log st') (hd : d ∈ log) :
    ∃ before after, log = before ++ d :: after ∧ d.Valid store issued ∧
      SerialRun store issued st before d.before ∧
      SerialRun store issued (d.after store) after st' := by
  induction log generalizing st with
  | nil => cases hd
  | cons d' log ih =>
    obtain ⟨rfl, hvalid, hrest⟩ := h
    rcases List.mem_cons.mp hd with rfl | hd
    · exact ⟨[], log, rfl, hvalid, rfl, hrest⟩
    · obtain ⟨before, after, rfl, hvalid', hbefore, hafter⟩ := ih hrest hd
      exact ⟨d' :: before, after, rfl, hvalid', ⟨rfl, hvalid, hbefore⟩, hafter⟩

/-- An operation of a context is decided once. -/
theorem nodup (h : SerialRun store issued st log st') : (log.map Decision.key).Nodup := by
  induction log generalizing st with
  | nil => exact List.nodup_nil
  | cons d log ih =>
    obtain ⟨rfl, hd, hrest⟩ := h
    rw [List.map_cons, List.nodup_cons]
    refine ⟨fun hmem => ?_, ih hrest⟩
    obtain ⟨d', hd', hkey⟩ := List.mem_map.mp hmem
    obtain ⟨before, after, -, hvalid', hbefore, -⟩ := hrest.split hd'
    obtain ⟨hcontext, hop⟩ := Prod.mk.inj hkey
    have hkept := hbefore.lookup_kept hd.lookup_self
    rw [← hcontext, ← hop, hvalid'.free] at hkept
    cases hkept

end SerialRun

/-! ## Known decisions -/

/-- The record and the details of a decision are in the state. -/
structure Decision.Known (store : InMemoryEventStore) (issued : Execution → Prop) (st : State)
    (d : Decision) : Prop where
  valid : d.Valid store issued
  record : st.transactions.lookup (some d.context, d.transaction.operationId) =
    some (.scoped (d.marker store))
  details : st.details.lookup (d.marker store).reference = some (.active d.bytes)

namespace Decision

theorem Valid.known (h : d.Valid store issued) : d.Known store issued (d.after store) where
  valid := h
  record := h.lookup_self
  details := by
    rw [after, InMemoryEventStore.committed_details]
    exact Finmap.lookup_insert _

theorem Known.later (h : d.Known store issued st) (hrun : SerialRun store issued st log st') :
    d.Known store issued st' where
  valid := h.valid
  record := hrun.lookup_kept h.record
  details := by
    have hl : st.transactions.lookup (some (d.marker store).reference.key.context,
        (d.marker store).reference.key.operation) = some (.scoped (d.marker store)) := by
      rw [h.valid.recorded.key]
      exact h.record
    rw [hrun.details_kept hl, h.details]

/-- The store gives the outcome of a known decision. -/
theorem Known.lookup [Crates.Lawful] (hhot : store.hot = memoryDetails)
    (h : d.Known store issued st) :
    store.lookupOutcome st ⟨store.authority, d.context, d.transaction.operationId⟩ =
      .ok (.completed (d.outcome store)) := by
  have hrecover := InMemoryEventStore.recoverMarker_recorded hhot h.valid.recorded
    ⟨h.record, .inl h.details⟩
  have hdetails : InMemoryEventStore.recordedDetails st d.transaction (d.marker store) =
      .available ⟨(d.marker store).reference, d.transaction.completion⟩ := by
    simp [InMemoryEventStore.recordedDetails, h.details]
  simp [InMemoryEventStore.lookupOutcome, InMemoryEventStore.validateAuthority, h.record,
    hrecover, hdetails, Decision.outcome, rejectIf]

end Decision

/-- Every decision of a run is known at its end. -/
theorem SerialRun.known (h : SerialRun store issued st log st') (hd : d ∈ log) :
    d.Known store issued st' := by
  obtain ⟨_, _, -, hvalid, -, hafter⟩ := h.split hd
  exact hvalid.known.later hafter

/-- In a run from the empty store, every record is that of a decision. -/
theorem SerialRun.of_record (h : SerialRun store issued .empty log st)
    {context : BoundedContextName} {op : OperationId} {stored : StoredTransaction}
    (hl : st.transactions.lookup (some context, op) = some stored) :
    ∃ d ∈ log, d.key = (context, op) ∧ stored = .scoped (d.marker store) := by
  obtain hempty | ⟨d, hd, hkey⟩ := h.record_cases hl
  · simp [State.empty] at hempty
  · obtain ⟨rfl, rfl⟩ := Prod.mk.inj hkey
    exact ⟨d, hd, rfl, Option.some.inj (hl.symm.trans (h.known hd).record)⟩

/-- A known decision is in the run, or one with the same key and outcome is. -/
theorem SerialRun.of_known [Crates.Lawful] (hhot : store.hot = memoryDetails)
    (h : SerialRun store issued .empty log st) (hd : d.Known store issued st) :
    ∃ d' ∈ log, d'.key = d.key ∧ d'.outcome store = d.outcome store := by
  obtain ⟨d', hmem, hkey, -⟩ := h.of_record hd.record
  obtain ⟨hcontext, hop⟩ := Prod.mk.inj hkey
  have hlookup := (h.known hmem).lookup hhot
  rw [hcontext, hop, hd.lookup hhot] at hlookup
  simp only [Except.ok.injEq, OutcomeLookup.completed.injEq] at hlookup
  exact ⟨d', hmem, hkey, hlookup.symm⟩

end Rostfrei
