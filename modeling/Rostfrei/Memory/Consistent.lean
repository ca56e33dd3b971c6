import Rostfrei.Core.Details
import Rostfrei.Memory.Replay

/-!
# What the entry checks leave for the later ones

A transaction of the in-memory store is checked twice: before it is staged, and then the receipt,
the marker and the details that were made of it. In a reachable state the second checks cannot
fail once the first ones have passed (`entry_checks_suffice`): the staged receipt is one of
`Stages`, no stream runs out of versions, and the details can be read back.
-/

namespace Rostfrei

open Lib

namespace InMemoryEventStore

open Memory

variable [Crates] {store : InMemoryEventStore} {st : State} {t : EventTransaction}

/-- A stream has at most as many versions as the store has events. -/
theorem Invariant.currentVersion_le (h : store.Invariant st) (s : StreamId) :
    st.currentVersion s ≤ st.eventCount := by
  obtain ⟨log, hlog⟩ := h.streams
  have hlength : (st.stream s).length = st.currentVersion s := by
    rw [(hlog s).currentVersion, (hlog s).stream, length_journalEvents]
  rw [h.count, totalEvents_eq_insert st s, hlength]
  omega

omit [Crates] in
theorem length_events_le_eventCount {p : TransactionParticipant} (hp : p ∈ t.participants)
    {b : EventBatch} (hb : p.batch = some b) : b.events.length ≤ t.eventCount :=
  List.le_sum_of_mem (List.mem_map_of_mem (List.mem_filterMap.mpr ⟨p, hp, hb⟩))

/-- The versions cannot run out before the store's own count does. -/
theorem Invariant.hasRoom (h : store.Invariant st) (hcount : st.eventCount + t.eventCount < 2 ^ 64) :
    ∀ p ∈ t.participants, HasRoom st p := by
  intro p hp b hb
  have hversion := h.currentVersion_le p.streamId
  have hevents := length_events_le_eventCount hp hb
  omega

/-- The receipt of an admitted transaction is a staged one. -/
theorem stages_receiptIn (hvalid : validateTransaction st t = .ok ())
    (hroom : ∀ p ∈ t.participants, HasRoom st p) : Stages t (receiptIn st t) := by
  obtain ⟨hadmissible, hexpected⟩ := validateTransaction_eq_ok.mp hvalid
  refine ⟨rfl, rfl, fun c hc => (by cases hc), rfl, rfl, rfl, rfl, rfl, hadmissible.nodup, ?_⟩
  show List.Forall₂ (StagesAs t) t.participants
    ((t.participants.map (Staged.of st)).map fun x =>
      ⟨x.participant.streamId, x.baseVersion, x.events⟩)
  rw [List.map_map, List.forall₂_map_right_iff, List.forall₂_same]
  intro p hp
  exact ⟨rfl, validateExpectedVersion_eq_ok.mp (hexpected p hp), rfl,
    fun b hb => (hadmissible.batches p hp b hb).1,
    fun b hb => (hadmissible.batches p hp b hb).2.derived, fun b hb => hroom p hp b hb⟩

/-- A transaction that is recorded now is answered as fresh. -/
theorem appendTransactionInner_of_commits {stored : StoredTransaction}
    {detail : Option (OutcomeDetailReference × DetailState)} (h : store.Commits st t stored detail) :
    store.appendTransactionInner t st = .ok (stored, false) (committed st t stored detail) := by
  simp only [appendTransactionInner, run_bind_ok, run_lift_ok, run_get_ok,
    validateTransactionItemLimit_eq_ok, ProposalDigest.of_eq_ok]
  refine ⟨_, st, ⟨⟨h.items, rfl⟩, rfl⟩, _, st, ⟨⟨h.actors, rfl⟩, rfl⟩, st, st, ⟨rfl, rfl⟩, ?_⟩
  have houtcomes := h.outcomes
  simp only [h.key, run_bind_ok, run_lift_ok, run_modify_ok, run_pure_ok, rejectIf_eq_ok,
    validateTransaction_eq_ok, newCount_eq_ok, stageAll_eq_ok, run_forM_modify,
    EStateM.Result.ok.injEq]
  refine ⟨(), st, ⟨by omega, rfl⟩, (), st, ⟨⟨h.admissible, h.expected⟩, rfl⟩, _, st,
    ⟨⟨h.count, h.capacity, rfl⟩, rfl⟩, _, st, ⟨⟨h.room, rfl⟩, rfl⟩, (stored, detail), st,
    ⟨h.prepared, rfl⟩, (), _, ⟨trivial, rfl⟩, (), _, rfl, (), _, rfl, (), _, ⟨trivial, rfl⟩, rfl, ?_⟩
  cases detail <;> rfl

/-- A commit that reads its details through the store's own reader answers with them. -/
theorem recoverMarker_committed [Crates.Lawful] {context : BoundedContextName} {bytes : Bytes}
    (hhot : store.hot = memoryDetails)
    (hvalid : ∀ c ∈ t.completion, c.validate = .ok ()) {receipt : TransactionReceipt}
    (hencode : EncodedOutcomeDetails.encode t.completion ⟨store.authority, context, t.operationId⟩
      t.securityScope t.actor = .ok bytes)
    (hslot : st.details.lookup
      (detailReference ⟨store.authority, context, t.operationId⟩ t bytes) = some (.active bytes)) :
    store.recoverMarker st (.ofDetails ⟨store.authority, context, t.operationId⟩ t receipt bytes) =
      .ok ⟨.ofDetails ⟨store.authority, context, t.operationId⟩ t receipt bytes,
        .available ⟨detailReference ⟨store.authority, context, t.operationId⟩ t bytes,
          t.completion⟩⟩ := by
  have hread := EncodedOutcomeDetails.decode_encode hvalid hencode
  simp [recoverMarker, resolveMarker, hslot, hhot, memoryDetails, OutcomeMarker.ofDetails,
    resolveDetails, resolveReads, hread, CompletedOutcome.new, validateDetailBinding,
    Except.mapError, rejectIf]

/-- In every reachable state, a transaction with a context that passes the entry checks is staged,
its receipt is sound and answers it, its marker and its details are prepared, and the details are
read back. If the operation is new and there is room for its outcome, the call commits it and
answers from the record; a completed decision is answered with its details if the store reads them
itself. -/
theorem entry_checks_suffice [Crates.Lawful] [Crates.Compact] (store : InMemoryEventStore)
    (requests : List Request) (t : EventTransaction) (context : BoundedContextName)
    (events count : Nat) (hcontext : t.boundedContext = some context)
    (hcompleted : t.completion.isSome → validateCompletedTransaction t = .ok ())
    (hitems : validateTransactionItemLimit t = .ok events)
    (hvalid : validateTransaction (store.run requests) t = .ok ())
    (hcount : store.newCount (store.run requests) events = .ok count) :
    ∃ staged marker bytes,
      stageAll (store.run requests) t.participants = .ok staged ∧
      (stagedReceipt t staged).validateIntegrity = .ok () ∧
      (stagedReceipt t staged).validateProposal t = .ok () ∧
      OutcomeMarker.prepare store.authority t (stagedReceipt t staged) = .ok (marker, bytes) ∧
      EncodedOutcomeDetails.decode marker.reference bytes =
        .ok ⟨marker.reference, t.completion⟩ ∧
      ((store.run requests).transactions.lookup (some context, t.operationId) = none →
        (store.run requests).transactions.keys.card < store.maximumOutcomes →
        ∃ st', store.appendTransactionInner t (store.run requests) = .ok (.scoped marker, false) st' ∧
          st'.transactions.lookup (some context, t.operationId) = some (.scoped marker) ∧
          st'.details.lookup marker.reference = some (.active bytes) ∧
          (t.completion = none →
            store.appendTransaction t (store.run requests) =
              .ok (.appended (stagedReceipt t staged)) st') ∧
          (t.completion.isSome → store.hot = memoryDetails →
            store.sessionCommitOutcome t (store.run requests) =
              .ok (.appended ⟨marker, .available ⟨marker.reference, t.completion⟩⟩) st')) := by
  set st := store.run requests with hst
  have hinvariant : store.Invariant st := invariant_run store requests
  obtain ⟨hlimit, rfl⟩ := validateTransactionItemLimit_eq_ok.mp hitems
  obtain ⟨hlt, hcapacity, -⟩ := newCount_eq_ok.mp hcount
  have hroom := hinvariant.hasRoom hlt
  have hstages := stages_receiptIn hvalid hroom
  have hchecked : CompletionChecked t := hcompleted
  have hcompletion : ∀ c ∈ t.completion, c.validate = .ok () := fun c hc => (hchecked.valid hc).1
  obtain ⟨bytes, hprepare⟩ := hstages.exists_prepare hchecked hitems store.authority hcontext
  obtain ⟨-, hactors, context', hcontext', hencode, -⟩ := OutcomeMarker.prepare_eq_ok.mp hprepare
  obtain rfl : context = context' := Option.some.inj (hcontext.symm.trans hcontext')
  refine ⟨t.participants.map (Staged.of st), _, bytes, stageAll_eq_ok.mpr ⟨hroom, rfl⟩,
    hstages.validateIntegrity hchecked, hstages.validateProposal hchecked hitems, hprepare,
    EncodedOutcomeDetails.decode_encode hcompletion hencode, fun hkey houtcomes => ?_⟩
  obtain ⟨hadmissible, hexpected⟩ := validateTransaction_eq_ok.mp hvalid
  let marker : OutcomeMarker :=
    .ofDetails ⟨store.authority, context, t.operationId⟩ t (receiptIn st t) bytes
  have hprepared : store.prepareStored t (.hash t) (receiptIn st t) =
      .ok (.scoped marker, some (marker.reference, .active bytes)) := by
    rw [prepareStored, if_pos (by rw [hcontext]; rfl), bind_eq_ok]
    exact ⟨_, hprepare, rfl⟩
  have hcommits : store.Commits st t (.scoped marker) (some (marker.reference, .active bytes)) :=
    ⟨hlimit, hactors, by rw [hcontext]; exact hkey, houtcomes, hadmissible, hexpected, hlt,
      hcapacity, hroom, hprepared⟩
  have hinner := appendTransactionInner_of_commits hcommits
  have hslot : (committed st t (.scoped marker)
      (some (marker.reference, .active bytes))).details.lookup marker.reference =
        some (.active bytes) := Finmap.lookup_insert _
  refine ⟨_, hinner, ?_, hslot, fun hnone => ?_, fun hsome hhot => ?_⟩
  · rw [committed_transactions, hcontext]
    exact Finmap.lookup_insert _
  · simp only [appendTransaction, run_bind_ok, run_lift_ok, run_pure_ok, rejectIf_eq_ok]
    have haccepted : marker.decision ≠ .rejected := by
      show completionDecision t.completion ≠ .rejected
      rw [hnone]
      decide
    exact ⟨(), st, ⟨by simp [hnone], rfl⟩, _, _, hinner, receiptIn st t, _,
      ⟨if_neg haccepted, rfl⟩, rfl, rfl⟩
  · simp only [sessionCommitOutcome, run_bind_ok, run_lift_ok]
    refine ⟨(), st, ⟨hcompleted hsome, rfl⟩, _, _, hinner, ?_⟩
    simp only [run_bind_ok, run_lift_ok, run_get_ok, run_pure_ok]
    exact ⟨_, _, ⟨rfl, rfl⟩, _, _, ⟨recoverMarker_committed hhot hcompletion hencode hslot, rfl⟩,
      rfl, rfl⟩

end InMemoryEventStore

namespace Sample

open Memory InMemoryEventStore

attribute [local instance] Crates.concrete

/-- The first decision to open the account, in an empty store. -/
theorem entry_checks_suffice_opening :
    ∃ outcome st', sessionCommitOutcome (.new authority 10 10) (opening .noStream) .empty =
      .ok (.appended outcome) st' := by
  have := Crates.concrete_lawful
  have := Crates.concrete_compact
  have hvalid : validateTransaction .empty (opening .noStream) = .ok () := by
    refine validateTransaction_eq_ok.mpr ⟨⟨by simp [opening], ?_⟩, ?_⟩
    · simp only [opening, List.forall_mem_singleton, Option.mem_some_iff, forall_eq']
      exact ⟨⟨rfl, rfl, rfl, rfl, rfl⟩, batch_derived, rfl, Finmap.notMem_empty,
        by simp [State.empty]⟩
    · simp only [opening, List.forall_mem_singleton]
      rfl
  obtain ⟨_, marker, _, -, -, -, -, -, hcommit⟩ := entry_checks_suffice (.new authority 10 10) []
    (opening .noStream) context 1 1 rfl (fun _ => by decide +kernel) (by decide +kernel) hvalid
    (by decide +kernel)
  obtain ⟨st', -, -, -, -, hsession⟩ := hcommit rfl (by decide)
  exact ⟨_, st', hsession rfl rfl⟩

end Sample

end Rostfrei
