import Rostfrei.Executor.Executions
import Rostfrei.Executor.Collected

/-!
# Simulation

`CommandExecutor::simulate` lets a handler decide without a commit. Over a store that nobody else
writes, and for an operation that has no outcome, it reports what an execution commits
(`simulate_exact`): its participants with their base versions and events, and its decision. What only
an execution checks can still make it fail, and then it commits nothing.
-/

namespace Rostfrei

open Lib Memory

/-! ## Reports -/

structure SimulatedParticipant where
  streamId : StreamId
  baseVersion : Nat
  events : List NewEvent
  readGuard : Bool
deriving DecidableEq

structure SimulationOutcome (Rejection : Type) where
  decision : CommandDecision Rejection
  participants : List SimulatedParticipant

inductive SimulationError where
  | outcomeRecovery (error : OutcomeRecoveryError)
  | rejectionMapping (message : String)
  | store (error : EventStoreError)
  | codec (error : EventCodecError)
deriving DecidableEq

/-- `From<CommandExecutionError>`. -/
def CommandExecutionError.inSimulation : CommandExecutionError → SimulationError
  | outcomeRecovery e => .outcomeRecovery e
  | rejectionMapping message => .rejectionMapping message
  | store e | rejectedOutcomePersistence e => .store e
  | codec e => .codec e

/-- `simulated_participant`. -/
def simulatedParticipant (c : CollectedParticipant) : SimulatedParticipant :=
  ⟨c.streamId, c.baseVersion, c.events, c.events.isEmpty⟩

namespace CommandExecution

/-- `rejected_simulation_participants`. -/
def rejectedSimulationParticipants (x : CommandExecution) :
    Except CommandExecutionError (List SimulatedParticipant) :=
  x.participants.mapM fun p => do
    let _ ← p.takeFinalization
    return ⟨p.streamId, p.baseVersion, [], true⟩

end CommandExecution

/-- What is reported of a handler that is done. -/
def report {Rejection : Type}
    (decision : Except CommandExecutionError (CommandDecision Rejection)) (x : CommandExecution) :
    Except CommandExecutionError (SimulationOutcome Rejection) := do
  match ← decision with
  | .accepted =>
    let participants ← x.finish
    return ⟨.accepted, participants.map simulatedParticipant⟩
  | .rejected rejection =>
    let participants ← x.rejectedSimulationParticipants
    return ⟨.rejected rejection, participants⟩

section Simulation

variable [Crates] {Rejection : Type}

/-- `CommandExecutor::simulate`. -/
def simulate {m : Type → Type} [Monad m] (history : EventHistory m) (codecs : AggregateCodecs)
    (request : CommandExecutionMetadata) (commandType : String) (handler : Handler Rejection) :
    ExceptT SimulationError m (SimulationOutcome Rejection) := do
  let metadata ← liftM ((request.withDefaultOutcomeEvidence commandType).normalized.mapError
    fun error => SimulationError.store (invalid error.toString))
  let (decision, x) ← ExceptT.lift
    (CommandExecution.handle history codecs metadata handler .new)
  liftM ((report decision x).mapError CommandExecutionError.inSimulation)

/-! ## Alone with the store -/

variable {store : InMemoryEventStore} {st : State} {codecs : AggregateCodecs}
  {metadata : CommandExecutionMetadata}

theorem history_alone (streamId : StreamId) :
    (Session.history streamId).alone store.serve st = (Id.run (st.history streamId), st) :=
  rfl

theorem load_alone (x : CommandExecution) (A : Aggregate) (aggregateId : String) :
    (x.load Session.history codecs metadata A aggregateId).alone store.serve st =
      (Id.run (x.load st.history codecs metadata A aggregateId), st) := by
  cases hprepare : x.prepareLoad metadata A aggregateId with
  | error e =>
    rw [CommandExecution.load, CommandExecution.load, hprepare]
    rfl
  | ok streamId =>
    have hhistory : st.history streamId = (pure (.ok (st.stream streamId)) : Id _) := rfl
    rw [CommandExecution.load, CommandExecution.load, hprepare]
    refine (Program.alone_bind store.serve (Session.history streamId) _ st).trans ?_
    dsimp only
    rw [history_alone, hhistory, pure_bind]
    dsimp only [Id.run_pure]
    cases x.enlist codecs A streamId (st.stream streamId) <;> rfl

/-- The handler reads one state, and leaves it. -/
theorem handle_alone (handler : Handler Rejection) (x : CommandExecution) :
    (CommandExecution.handle Session.history codecs metadata handler x).alone store.serve st =
      (Id.run (CommandExecution.handle st.history codecs metadata handler x), st) := by
  induction handler generalizing x with
  | done decision => rfl
  | call call next ih =>
    cases call with
    | load A aggregateId =>
      show ((x.load Session.history codecs metadata A aggregateId >>= fun r =>
        CommandExecution.handle Session.history codecs metadata (next r.1) r.2)).alone store.serve st = _
      rw [Program.alone_bind, load_alone]
      exact ih _ _
    | raise A loaded event => exact ih () _
    | interrupt participant pushed => exact ih () _
    | replace participant held => exact ih () _
    | drop participant => exact ih () _

/-- A simulation leaves the store. -/
theorem simulate_alone (request : CommandExecutionMetadata) (commandType : String)
    (handler : Handler Rejection) :
    (simulate Session.history codecs request commandType handler).run.alone store.serve st =
      (Id.run (simulate st.history codecs request commandType handler).run, st) := by
  unfold simulate
  cases (request.withDefaultOutcomeEvidence commandType).normalized with
  | error e => rfl
  | ok metadata =>
    refine (Program.aloneP_bind store.serve
      (CommandExecution.handle Session.history codecs metadata handler .new)
      (fun r => liftM ((report r.1 r.2).mapError CommandExecutionError.inSimulation)) st).trans ?_
    rw [handle_alone]
    rfl

/-! ## Outcomes in a store that nobody else writes -/

/-- What only reads. -/
def StoreCall.IsRead : StoreCall → Prop
  | append _ => False
  | load _ | transaction .. | lifecycle _ | details _ => True

theorem alone_of_reads {α : Type} {p : StoreProgram α} (h : p.Within StoreCall.IsRead) :
    (p.alone store.serve st).2 = st :=
  h.alone (fun st call hcall => by cases call with
    | append t => exact hcall.elim
    | _ => rfl) st

theorem resolveMarker_reads (marker : OutcomeMarker) :
    (Session.resolveMarker marker).run.Within StoreCall.IsRead := by
  refine Program.Within.bindE (Program.Within.lift ⟨trivial, fun _ => trivial⟩) fun lifecycle => ?_
  match lifecycle with
  | none => exact trivial
  | some .expired => exact trivial
  | some (.active _) => exact Program.Within.bindE ⟨trivial, fun _ => trivial⟩ fun _ => trivial

theorem lookupOutcome_reads (key : OutcomeKey) :
    (Session.lookupOutcome store key).run.Within StoreCall.IsRead := by
  refine Program.Within.bindE trivial fun _ =>
    Program.Within.bindE (Program.Within.lift ⟨trivial, fun _ => trivial⟩) fun stored => ?_
  match stored with
  | none => exact trivial
  | some (.scoped marker) =>
    exact Program.Within.bindE (Program.Within.adapt (resolveMarker_reads marker)) fun _ => trivial
  | some (.unscoped _ _) => exact trivial

theorem lookupCompleted_reads : (lookupCompleted store metadata).run.Within StoreCall.IsRead := by
  refine Program.Within.bindE trivial fun _ =>
    Program.Within.bindE (Program.Within.adapt (lookupOutcome_reads _)) fun found => ?_
  match found with
  | .missing => exact trivial
  | .completed outcome => exact Program.Within.bindE trivial fun _ => trivial

/-- The outcome of an operation that has no record. -/
theorem lookupOutcome_missing {context : BoundedContextName} {operation : OperationId}
    (hnone : st.transactions.lookup (some context, operation) = none) :
    (Session.lookupOutcome store ⟨store.authority, context, operation⟩).run.alone store.serve st =
      (.ok .missing, st) := by
  have hauthority : store.validateAuthority ⟨store.authority, context, operation⟩ = .ok () :=
    rejectIf_of_not (not_not_intro rfl) _
  have hasked : (Program.perform (StoreCall.transaction context operation)).alone store.serve st =
      (none, st) := Prod.ext hnone rfl
  unfold Session.lookupOutcome
  rw [hauthority]
  refine (Program.aloneP_bind store.serve (Program.perform (StoreCall.transaction context operation))
    _ st).trans ?_
  rw [hasked]
  rfl

theorem lookupOutcome_recorded {context : BoundedContextName} {operation : OperationId}
    {stored : StoredTransaction}
    (hstored : st.transactions.lookup (some context, operation) = some stored) :
    ((Session.lookupOutcome store ⟨store.authority, context, operation⟩).run.alone store.serve
      st).1 ≠ .ok .missing := by
  intro h
  obtain ⟨_, st', hauthority, h⟩ := Program.aloneE_ok (Prod.ext h rfl)
  obtain rfl : st = st' := (Prod.ext_iff.mp hauthority).2
  obtain ⟨found, _, hfound, h⟩ := Program.aloneE_ok h
  have hfound : st.transactions.lookup (some context, operation) = found :=
    Except.ok.inj (Prod.ext_iff.mp hfound).1
  rw [hstored] at hfound
  subst hfound
  rcases stored with marker | _
  · obtain ⟨outcome, _, -, h⟩ := Program.aloneE_ok h
    cases h
  · cases h

/-- An operation without a record has no outcome. -/
theorem lookupCompleted_missing {context : BoundedContextName}
    (hcontext : metadata.requiredBoundedContext = .ok context)
    (hnone : st.transactions.lookup (some context, metadata.operationId) = none) :
    (lookupCompleted store metadata).run.alone store.serve st = (.ok none, st) := by
  have hlookup : (ExceptT.adapt (fun e => CommandExecutionError.store e.inOutcomeRecovery)
      (Session.lookupOutcome store ⟨store.authority, context, metadata.operationId⟩)).run.alone
        store.serve st = (.ok .missing, st) := by
    rw [Program.alone_adapt, lookupOutcome_missing hnone]
    rfl
  unfold lookupCompleted
  rw [hcontext]
  exact Program.aloneE_bind store.serve hlookup

/-- An operation with a record has one, or an error. -/
theorem lookupCompleted_recorded {context : BoundedContextName} {stored : StoredTransaction}
    (hcontext : metadata.requiredBoundedContext = .ok context)
    (hstored : st.transactions.lookup (some context, metadata.operationId) = some stored) :
    ((lookupCompleted store metadata).run.alone store.serve st).1 ≠ .ok none := by
  intro h
  unfold lookupCompleted at h
  rw [hcontext] at h
  obtain ⟨_, st', hlift, h⟩ := Program.aloneE_ok (Prod.ext h rfl)
  obtain ⟨hkey, rfl⟩ : Except.ok context = Except.ok _ ∧ st = st' := Prod.ext_iff.mp hlift
  obtain rfl := Except.ok.inj hkey
  obtain ⟨found, _, hfound, h⟩ := Program.aloneE_ok h
  rw [Program.alone_adapt] at hfound
  obtain ⟨hresult, -⟩ := Prod.ext_iff.mp hfound
  cases found with
  | missing => exact lookupOutcome_recorded hstored (mapError_eq_ok.mp hresult)
  | completed outcome =>
    obtain ⟨_, _, -, h⟩ := Program.aloneE_ok h
    cases h

/-- The store takes a transaction of a command. -/
def Takes (store : InMemoryEventStore) (st : State) (t : EventTransaction) (st' : State) : Prop :=
  validateCompletedTransaction t = .ok () ∧
    ∃ stored, store.appendTransactionInner t st = .ok (stored, false) st'

/-- A commit fails and leaves the store, or appends the transaction. -/
theorem commitOutcome_alone {t : EventTransaction} {r : Except EventStoreError CompletedCommit}
    {st' : State} (h : (Session.commitOutcome t).run.alone store.serve st = (r, st')) :
    ((∃ e, r = .error e) ∧ st' = st ∧ ∀ st', ¬ Takes store st t st') ∨
      validateCompletedTransaction t = .ok () ∧
        ∃ stored, store.appendTransactionInner t st = .ok stored st' := by
  rcases Program.aloneE_inv h with ⟨e, hvalid, rfl⟩ | ⟨_, st₁, hvalid, h⟩
  · obtain ⟨hinvalid, rfl⟩ : validateCompletedTransaction t = .error e ∧ st = st' :=
      Prod.ext_iff.mp hvalid
    refine .inl ⟨⟨e, rfl⟩, rfl, fun st' htakes => ?_⟩
    have hvalid' := htakes.1
    rw [hinvalid] at hvalid'
    cases hvalid'
  obtain ⟨hshape, rfl⟩ : validateCompletedTransaction t = .ok () ∧ st = st₁ := Prod.ext_iff.mp hvalid
  rcases Program.aloneE_inv h with ⟨e, hcall, rfl⟩ | ⟨committed, st₁, hcall, h⟩
  · have hcall : store.serve st (.append t) = (.error e, st') := hcall
    simp only [InMemoryEventStore.serve] at hcall
    split at hcall
    · cases hcall
    · next happend =>
      obtain ⟨-, rfl⟩ := Prod.ext_iff.mp hcall
      refine .inl ⟨⟨e, rfl⟩, InMemoryEventStore.appendTransactionInner_error happend, ?_⟩
      rintro st' ⟨-, stored, hstored⟩
      rw [happend] at hstored
      cases hstored
  · have hcall : store.serve st (.append t) = (.ok committed, st₁) := hcall
    simp only [InMemoryEventStore.serve] at hcall
    split at hcall
    · next stored st₂ happend =>
      obtain ⟨-, rfl⟩ := Prod.ext_iff.mp hcall
      have hrest : st' = st₂ := by
        rcases committed with ⟨marker | _, replay⟩
        · have hreads : ∀ {a : Except EventStoreError CompletedOutcome} {st₃ : State},
              (ExceptT.adapt (·.inOutcomeRecovery) (Session.resolveMarker marker)).run.alone
                store.serve st₂ = (a, st₃) → st₃ = st₂ := fun hmarker =>
            (Prod.ext_iff.mp hmarker).2.symm.trans
              (alone_of_reads (Program.Within.adapt (resolveMarker_reads marker)))
          rcases Program.aloneE_inv h with ⟨e, hmarker, -⟩ | ⟨outcome, st₃, hmarker, h⟩
          · exact hreads hmarker
          · exact (Prod.ext_iff.mp h).2.symm.trans (hreads hmarker)
        · exact (Prod.ext_iff.mp h).2.symm
      exact .inr ⟨hshape, stored, hrest ▸ happend⟩
    · cases hcall

/-- What is collected is committed, or the store is left. -/
theorem appendTransaction_alone {participants : List CollectedParticipant}
    {rejection : Option EncodedRejection} {r : Except CommandExecutionError PersistenceAttempt}
    {st' : State}
    (h : (appendTransaction metadata participants rejection).run.alone store.serve st = (r, st')) :
    (((∃ e, r = .error e) ∨ ∃ e, r = .ok (.conflict e)) ∧ st' = st ∧ ∀ t,
        prepareTransaction metadata participants rejection = .ok t → ∀ st', ¬ Takes store st t st') ∨
      ∃ t stored, prepareTransaction metadata participants rejection = .ok t ∧
        validateCompletedTransaction t = .ok () ∧
          store.appendTransactionInner t st = .ok stored st' := by
  rcases Program.aloneE_inv h with ⟨e, hprepare, rfl⟩ | ⟨t, st₁, hprepare, h⟩
  · obtain ⟨herror, rfl⟩ : (prepareTransaction metadata participants rejection).mapError
      CommandExecutionError.store = .error e ∧ st = st' := Prod.ext_iff.mp hprepare
    refine .inl ⟨.inl ⟨e, rfl⟩, rfl, fun t ht => ?_⟩
    rw [ht] at herror
    cases herror
  obtain ⟨ht, rfl⟩ : (prepareTransaction metadata participants rejection).mapError
    CommandExecutionError.store = .ok t ∧ st = st₁ := Prod.ext_iff.mp hprepare
  rcases hcommit : (Session.commitOutcome t).run.alone store.serve st with ⟨answer, st₁⟩
  have hrest := (Program.aloneP_bind store.serve (Session.commitOutcome t).run _ st).symm.trans h
  rw [hcommit] at hrest
  have ht := mapError_eq_ok.mp ht
  rcases commitOutcome_alone hcommit with ⟨⟨e, rfl⟩, rfl, hrefused⟩ | ⟨hvalid, stored, happend⟩
  · have hnone : ∀ t', prepareTransaction metadata participants rejection = .ok t' →
        ∀ st', ¬ Takes store st₁ t' st' := by
      intro t' ht'
      rw [ht] at ht'
      exact Except.ok.inj ht' ▸ hrefused
    left
    dsimp only at hrest
    split at hrest
    · obtain ⟨rfl, rfl⟩ := Prod.ext_iff.mp hrest
      exact ⟨.inr ⟨e, rfl⟩, rfl, hnone⟩
    · split at hrest
      · obtain ⟨rfl, rfl⟩ := Prod.ext_iff.mp hrest
        exact ⟨.inl ⟨_, rfl⟩, rfl, hnone⟩
      · split at hrest <;>
        obtain ⟨rfl, rfl⟩ := Prod.ext_iff.mp hrest <;>
        exact ⟨.inl ⟨_, rfl⟩, rfl, hnone⟩
  · have hsame : st' = st₁ := by
      cases answer with
      | ok outcome => exact (Prod.ext_iff.mp hrest).2.symm
      | error e =>
        dsimp only at hrest
        split at hrest
        · exact (Prod.ext_iff.mp hrest).2.symm
        · split at hrest
          · exact (Prod.ext_iff.mp hrest).2.symm
          · split at hrest <;> exact (Prod.ext_iff.mp hrest).2.symm
    exact .inr ⟨t, stored, ht, hvalid, hsame ▸ happend⟩

/-- What a handler decides in one state. -/
def decided (st : State) (codecs : AggregateCodecs) (metadata : CommandExecutionMetadata)
    (handler : Handler Rejection) :
    Except CommandExecutionError (CommandDecision Rejection) × CommandExecution :=
  Id.run (CommandExecution.handle st.history codecs metadata handler .new)

/-- The transaction that is committed, with what was collected for it. -/
def CommitsFrom (store : InMemoryEventStore) (st : State) (metadata : CommandExecutionMetadata)
    (codec : RejectionCodec Rejection)
    (decided : Except CommandExecutionError (CommandDecision Rejection) × CommandExecution)
    (st' : State) : Prop :=
  ∃ participants rejection t, settle codec decided.1 decided.2 = .ok (participants, rejection) ∧
    prepareTransaction metadata participants rejection = .ok t ∧ Takes store st t st'

/-- An operation that has no record gets its own. -/
theorem recorded_of_append {context : BoundedContextName} {participants : List CollectedParticipant}
    {rejection : Option EncodedRejection} {t : EventTransaction} {stored : StoredTransaction × Bool}
    {st' : State} (hcontext : metadata.requiredBoundedContext = .ok context)
    (hnone : st.transactions.lookup (some context, metadata.operationId) = none)
    (hprepare : prepareTransaction metadata participants rejection = .ok t)
    (happend : store.appendTransactionInner t st = .ok stored st') :
    stored.2 = false ∧
      st'.transactions.lookup (some context, metadata.operationId) = some stored.1 := by
  obtain ⟨context', ps, hcontext', rfl, -⟩ := prepareTransaction_ok hprepare
  rw [CommandExecutionMetadata.requiredBoundedContext, okOr_eq_ok, hcontext', Option.some.injEq]
    at hcontext
  subst hcontext
  obtain ⟨-, -, hstored, -⟩ | ⟨hreplay, detail, -, rfl⟩ :=
    InMemoryEventStore.appendTransactionInner_ok happend
  · rw [hnone] at hstored
    cases hstored
  · exact ⟨hreplay, by rw [InMemoryEventStore.committed_transactions, Finmap.lookup_insert]⟩

/-- A run of the loop with one handler: the store is left, or what the handler decides is committed. -/
theorem executeLoop_alone {context : BoundedContextName} {executor : CommandExecutor}
    {codec : RejectionCodec Rejection} {handler : Handler Rejection}
    {attempts : List (Handler Rejection)} (hattempts : ∀ attempt ∈ attempts, attempt = handler)
    (hcontext : metadata.requiredBoundedContext = .ok context)
    (hnone : st.transactions.lookup (some context, metadata.operationId) = none)
    {evaluations : Nat} {r : Except CommandExecutionError (Option CompletedCommit)} {st' : State}
    (h : (executeLoop store executor metadata codec attempts evaluations).run.alone store.serve st =
      (r, st')) :
    ((∀ commit, r ≠ .ok (some commit)) ∧ st' = st ∧ (attempts ≠ [] →
        ∀ st', ¬ CommitsFrom store st metadata codec (decided st executor.codecs metadata handler) st')) ∨
      CommitsFrom store st metadata codec (decided st executor.codecs metadata handler) st' := by
  induction attempts generalizing evaluations with
  | nil =>
    obtain ⟨rfl, rfl⟩ := Prod.ext_iff.mp h
    exact .inl ⟨fun commit hr => (by cases hr), rfl, fun hne => absurd rfl hne⟩
  | cons attempt attempts ih =>
    obtain rfl := hattempts attempt List.mem_cons_self
    have hlookup : (lookupCompleted store metadata).run.alone store.serve st = (.ok none, st) :=
      lookupCompleted_missing hcontext hnone
    rw [executeLoop] at h
    rcases Program.aloneE_inv h with ⟨e, hfirst, rfl⟩ | ⟨winner, st₁, hfirst, h⟩
    · rw [hlookup] at hfirst
      cases hfirst
    rw [hlookup] at hfirst
    obtain ⟨hwinner, rfl⟩ := Prod.ext_iff.mp hfirst
    obtain rfl := Except.ok.inj hwinner
    have h := (Program.aloneP_bind store.serve (CommandExecution.handle Session.history
      executor.codecs metadata attempt .new) _ st).symm.trans h
    rw [handle_alone] at h
    rcases Program.aloneE_inv h with ⟨e, hsettle, rfl⟩ | ⟨⟨participants, rejection⟩, st₁, hsettle, h⟩
    · obtain ⟨herror, rfl⟩ : settle codec (decided st executor.codecs metadata attempt).1
        (decided st executor.codecs metadata attempt).2 = .error e ∧ st = st' := Prod.ext_iff.mp hsettle
      refine .inl ⟨fun commit hr => (by cases hr), rfl, fun _ st' hst' => ?_⟩
      obtain ⟨_, _, _, hcollected, _⟩ := hst'
      rw [herror] at hcollected
      cases hcollected
    obtain ⟨hcollected, rfl⟩ : settle codec (decided st executor.codecs metadata attempt).1
      (decided st executor.codecs metadata attempt).2 = .ok (participants, rejection) ∧ st = st₁ :=
        Prod.ext_iff.mp hsettle
    have hcommits : ∀ {t : EventTransaction} {stored : StoredTransaction × Bool} {st₁ : State},
        prepareTransaction metadata participants rejection = .ok t →
        validateCompletedTransaction t = .ok () → store.appendTransactionInner t st = .ok stored st₁ →
        CommitsFrom store st metadata codec (decided st executor.codecs metadata attempt) st₁ ∧
          st₁.transactions.lookup (some context, metadata.operationId) = some stored.1 := by
      intro t stored st₁ ht hvalid happend
      obtain ⟨hreplay, hrecord⟩ := recorded_of_append hcontext hnone ht happend
      exact ⟨⟨participants, rejection, t, hcollected, ht, hvalid, stored.1, hreplay ▸ happend⟩, hrecord⟩
    have hrefuses : (∀ t, prepareTransaction metadata participants rejection = .ok t →
        ∀ st', ¬ Takes store st t st') → ∀ st', ¬ CommitsFrom store st metadata codec
          (decided st executor.codecs metadata attempt) st' := by
      rintro hrefused st' ⟨participants', rejection', t, hcollected', ht, htakes⟩
      rw [hcollected] at hcollected'
      obtain ⟨rfl, rfl⟩ := Prod.ext_iff.mp (Except.ok.inj hcollected')
      exact hrefused t ht st' htakes
    rcases Program.aloneE_inv h with ⟨e, happend, rfl⟩ | ⟨done, st₁, happend, h⟩
    · rcases appendTransaction_alone happend with ⟨-, rfl, hrefused⟩ | ⟨t, stored, ht, hvalid, hinner⟩
      · exact .inl ⟨fun commit hr => (by cases hr), rfl, fun _ => hrefuses hrefused⟩
      · exact .inr (hcommits ht hvalid hinner).1
    rcases appendTransaction_alone happend with
      ⟨hconflict, rfl, hrefused⟩ | ⟨t, stored, ht, hvalid, hinner⟩
    · -- nothing is committed, and the operation still has no outcome
      obtain ⟨e, rfl⟩ : ∃ e, done = .conflict e := by
        rcases hconflict with ⟨e, he⟩ | ⟨e, he⟩
        · cases he
        · exact ⟨e, Except.ok.inj he⟩
      rcases Program.aloneE_inv h with ⟨e', hagain, rfl⟩ | ⟨winner, st₂, hagain, h⟩
      · rw [hlookup] at hagain
        cases hagain
      rw [hlookup] at hagain
      obtain ⟨hwinner, rfl⟩ := Prod.ext_iff.mp hagain
      obtain rfl := Except.ok.inj hwinner
      dsimp only at h
      have hrest : ∀ attempt' ∈ attempts, attempt' = attempt := fun attempt' hmem =>
        hattempts attempt' (List.mem_cons_of_mem _ hmem)
      split at h
      · obtain ⟨rfl, rfl⟩ := Prod.ext_iff.mp h
        exact .inl ⟨fun commit hr => (by cases hr), rfl, fun _ => hrefuses hrefused⟩
      · split at h
        · obtain ⟨rfl, rfl⟩ := Prod.ext_iff.mp h
          exact .inl ⟨fun commit hr => (by cases hr), rfl, fun _ => hrefuses hrefused⟩
        all_goals
          exact (ih hrest h).imp_left fun hsame =>
            ⟨hsame.1, hsame.2.1, fun _ => hrefuses hrefused⟩
    · -- the transaction is committed, and the rest of the run only reads
      obtain ⟨hcommitted, hrecord⟩ := hcommits ht hvalid hinner
      have hend : st₁ = st' → CommitsFrom store st metadata codec
          (decided st executor.codecs metadata attempt) st' := fun heq => heq ▸ hcommitted
      right
      cases done with
      | completed commit =>
        rcases Program.aloneE_inv h with ⟨e, hlift, rfl⟩ | ⟨_, st₂, hlift, h⟩
        · exact hend (Prod.ext_iff.mp hlift).2
        obtain rfl : st₁ = st₂ := (Prod.ext_iff.mp hlift).2
        rcases Program.aloneE_inv h with ⟨e, hlift, rfl⟩ | ⟨_, st₂, hlift, h⟩
        · exact hend (Prod.ext_iff.mp hlift).2
        obtain rfl : st₁ = st₂ := (Prod.ext_iff.mp hlift).2
        exact hend (Prod.ext_iff.mp h).2
      | conflict e =>
        have hreads : ((lookupCompleted store metadata).run.alone store.serve st₁).2 = st₁ :=
          alone_of_reads lookupCompleted_reads
        rcases Program.aloneE_inv h with ⟨e', hagain, rfl⟩ | ⟨winner, st₂, hagain, h⟩
        · rw [hagain] at hreads
          exact hend hreads.symm
        rw [hagain] at hreads
        obtain rfl : st₂ = st₁ := hreads
        cases winner with
        | none =>
          exact absurd (congrArg Prod.fst hagain) (lookupCompleted_recorded hcontext hrecord)
        | some outcome => exact hend (Prod.ext_iff.mp h).2

end Simulation

/-! ## From a report to a transaction -/

namespace SimulationOutcome

variable {Rejection : Type}

/-- The participants of a report, as they are collected for a commit. -/
def collected (outcome : SimulationOutcome Rejection) : List CollectedParticipant :=
  outcome.participants.map fun s => ⟨s.streamId, s.baseVersion, s.events⟩

/-- The form of a reported rejection that is committed. -/
def encodedRejection (codec : RejectionCodec Rejection) (outcome : SimulationOutcome Rejection) :
    Except CommandExecutionError (Option EncodedRejection) :=
  match outcome.decision with
  | .accepted => .ok none
  | .rejected rejection => do
    let encoded ← (codec.encode rejection).mapError .codec
    encoded.validate.mapError .codec
    let _ ← (codec.decode encoded).mapError .codec
    return some encoded

/-- The transaction for a report. -/
def proposal [Crates] (outcome : SimulationOutcome Rejection) (codec : RejectionCodec Rejection)
    (metadata : CommandExecutionMetadata) : Except CommandExecutionError EventTransaction := do
  let rejection ← outcome.encodedRejection codec
  (prepareTransaction metadata outcome.collected rejection).mapError .store

end SimulationOutcome

theorem mapM_map_ok {ε α β γ : Type} (f : α → Except ε β) (g : β → γ) (l : List α) :
    (l.mapM fun a => (f a).map g) = (l.mapM f).map (List.map g) := by
  induction l with
  | nil => rfl
  | cons a l ih =>
    rw [List.mapM_cons, List.mapM_cons, ih]
    cases f a with
    | error e => rfl
    | ok b => cases l.mapM f <;> rfl

theorem CommandExecution.rejectedSimulationParticipants_eq (x : CommandExecution) :
    x.rejectedSimulationParticipants = x.finishRejected.map (List.map simulatedParticipant) := by
  rw [finishRejected, ← mapM_map_ok, rejectedSimulationParticipants]
  refine congrArg (fun f => List.mapM f x.participants) (funext fun p => ?_)
  unfold EnlistedParticipant.discard
  cases p.takeFinalization <;> rfl

theorem map_simulatedParticipant (participants : List CollectedParticipant) :
    ((participants.map simulatedParticipant).map fun s =>
      (⟨s.streamId, s.baseVersion, s.events⟩ : CollectedParticipant)) = participants := by
  rw [List.map_map]
  exact List.map_id _

/-- A report and what is collected for a commit are of one journal. -/
theorem settle_eq {Rejection : Type} (codec : RejectionCodec Rejection)
    (decision : Except CommandExecutionError (CommandDecision Rejection)) (x : CommandExecution) :
    settle codec decision x = (do
      let outcome ← report decision x
      let rejection ← outcome.encodedRejection codec
      return (outcome.collected, rejection)) := by
  unfold settle report
  cases decision with
  | error e => rfl
  | ok decided =>
    cases decided with
    | accepted =>
      show (x.finish >>= fun participants => _) = ((x.finish >>= fun participants => _) >>= fun _ => _)
      cases x.finish with
      | error e => rfl
      | ok participants =>
        show _ = Except.ok (((participants.map simulatedParticipant).map _), none)
        rw [map_simulatedParticipant]
        rfl
    | rejected rejection =>
      show (x.finishRejected >>= fun participants => _) =
        ((x.rejectedSimulationParticipants >>= fun participants => _) >>= fun _ => _)
      rw [CommandExecution.rejectedSimulationParticipants_eq]
      cases x.finishRejected with
      | error e => rfl
      | ok participants =>
        show _ = ((do
          let encoded ← (codec.encode rejection).mapError .codec
          encoded.validate.mapError .codec
          let _ ← (codec.decode encoded).mapError .codec
          return some encoded : Except CommandExecutionError (Option EncodedRejection)) >>= fun r =>
            Except.ok ((participants.map simulatedParticipant).map _, r))
        rw [map_simulatedParticipant]
        simp only [bind_assoc, pure_bind]
        rfl

/-! ## Reports and commits -/

/-- A transaction commits what a report says. -/
structure Reports {Rejection : Type} (metadata : CommandExecutionMetadata)
    (codec : RejectionCodec Rejection) (outcome : SimulationOutcome Rejection) (t : EventTransaction) :
    Prop where
  participants : List.Forall₂ (fun s p => p.streamId = s.streamId ∧
    p.expectedVersion = expectedVersion s.baseVersion ∧ p.batch.elim [] (·.events) = s.events ∧
      (s.readGuard = true ↔ p.batch = none)) outcome.participants t.participants
  decision : ∃ rejection, t.completion = some (.new metadata.outcomeEvidence rejection) ∧
    match outcome.decision with
    | .accepted => rejection = none
    | .rejected r => ∃ encoded, codec.encode r = .ok encoded ∧ rejection = some encoded
  operation : t.operationId = metadata.operationId

/-- The guards of a report are its participants without events. -/
theorem readGuard_of_report {Rejection : Type}
    {decision : Except CommandExecutionError (CommandDecision Rejection)} {x : CommandExecution}
    {outcome : SimulationOutcome Rejection} (h : report decision x = .ok outcome) :
    ∀ s ∈ outcome.participants, s.readGuard = s.events.isEmpty := by
  have hsimulated : ∀ participants : List CollectedParticipant,
      ∀ s ∈ participants.map simulatedParticipant, s.readGuard = s.events.isEmpty := by
    intro participants s hs
    obtain ⟨c, -, rfl⟩ := List.mem_map.mp hs
    rfl
  simp only [report, bind_eq_ok] at h
  obtain ⟨decided, -, h⟩ := h
  cases decided with
  | accepted =>
    obtain ⟨participants, -, h⟩ := bind_eq_ok.mp h
    obtain rfl := pure_eq_ok.mp h
    exact hsimulated participants
  | rejected rejection =>
    rw [CommandExecution.rejectedSimulationParticipants_eq] at h
    obtain ⟨participants, hparticipants, h⟩ := bind_eq_ok.mp h
    obtain rfl := pure_eq_ok.mp h
    cases hfinish : x.finishRejected with
    | error e =>
      rw [hfinish] at hparticipants
      cases hparticipants
    | ok collected =>
      rw [hfinish] at hparticipants
      obtain rfl := Except.ok.inj hparticipants
      exact hsimulated collected

theorem events_of_prepare [Crates] {metadata : CommandExecutionMetadata} {streamId : StreamId}
    {events : List NewEvent} {batch : Option EventBatch}
    (h : prepareBatchForStream metadata streamId events = .ok batch) :
    batch.elim [] (·.events) = events ∧ (events.isEmpty = true ↔ batch = none) := by
  unfold prepareBatchForStream at h
  split at h
  · next hnil =>
    obtain rfl := Except.ok.inj h
    exact ⟨hnil.symm, by simp [hnil]⟩
  · next hne =>
    obtain ⟨b, hb, rfl⟩ := by simpa only [bind_eq_ok, pure_eq_ok] using h
    refine ⟨(EventBatch.new_eq_ok (mapError_eq_ok.mp hb)).2.2.2, ?_⟩
    simp [hne]

theorem reports_of_proposal [Crates] {Rejection : Type} {metadata : CommandExecutionMetadata}
    {codec : RejectionCodec Rejection} {outcome : SimulationOutcome Rejection} {t : EventTransaction}
    (hguards : ∀ s ∈ outcome.participants, s.readGuard = s.events.isEmpty)
    (h : outcome.proposal codec metadata = .ok t) : Reports metadata codec outcome t := by
  obtain ⟨rejection, hrejection, h⟩ := bind_eq_ok.mp h
  have hprepare := mapError_eq_ok.mp h
  obtain ⟨context, ps, -, rfl, -⟩ := prepareTransaction_ok hprepare
  refine ⟨?_, ⟨rejection, rfl, ?_⟩, rfl⟩
  · have hps := participants_of_prepare hprepare
    rw [SimulationOutcome.collected, List.forall₂_map_left_iff] at hps
    refine (List.forall₂_and_left _ _ |>.mpr ⟨hguards, hps⟩).imp fun s p ⟨hguard, hp⟩ => ?_
    obtain ⟨hstream, hversion, hbatch⟩ := hp
    obtain ⟨hevents, hempty⟩ := events_of_prepare hbatch
    exact ⟨hstream, hversion, hevents, by rw [hguard, hempty]⟩
  · unfold SimulationOutcome.encodedRejection at hrejection
    split at hrejection
    · exact (Except.ok.inj hrejection).symm
    · obtain ⟨encoded, hencoded, hrejection⟩ := bind_eq_ok.mp hrejection
      obtain ⟨_, -, hrejection⟩ := bind_eq_ok.mp hrejection
      obtain ⟨_, -, hrejection⟩ := bind_eq_ok.mp hrejection
      exact ⟨encoded, mapError_eq_ok.mp hencoded, (Except.ok.inj hrejection).symm⟩

section Simulation

variable [Crates] {store : InMemoryEventStore} {st : State}

theorem normalized_of_metadata {e : Execution} {metadata : CommandExecutionMetadata}
    (h : e.metadata = .ok metadata) :
    (e.request.withDefaultOutcomeEvidence e.commandType).normalized = .ok metadata := by
  obtain ⟨m, hm, h⟩ := bind_eq_ok.mp h
  obtain ⟨_, -, h⟩ := bind_eq_ok.mp h
  obtain rfl := Except.ok.inj h
  exact mapError_eq_ok.mp hm

/-- What a simulation reports in one state. -/
theorem simulate_eq {Rejection : Type} {codecs : AggregateCodecs} {request : CommandExecutionMetadata}
    {commandType : String} {metadata : CommandExecutionMetadata} (handler : Handler Rejection)
    (h : (request.withDefaultOutcomeEvidence commandType).normalized = .ok metadata) :
    Id.run (simulate st.history codecs request commandType handler).run =
      (report (decided st codecs metadata handler).1
        (decided st codecs metadata handler).2).mapError CommandExecutionError.inSimulation := by
  unfold simulate
  rw [h]
  rfl

theorem commitsFrom_iff {Rejection : Type} {metadata : CommandExecutionMetadata}
    {codec : RejectionCodec Rejection}
    {decided : Except CommandExecutionError (CommandDecision Rejection) × CommandExecution}
    {st' : State} : CommitsFrom store st metadata codec decided st' ↔
      ∃ outcome t, report decided.1 decided.2 = .ok outcome ∧
        outcome.proposal codec metadata = .ok t ∧ Takes store st t st' := by
  unfold CommitsFrom
  rw [settle_eq]
  constructor
  · rintro ⟨participants, rejection, t, hsettle, hprepare, htakes⟩
    obtain ⟨outcome, hreport, hsettle⟩ := bind_eq_ok.mp hsettle
    obtain ⟨rejection', hrejection, hsettle⟩ := bind_eq_ok.mp hsettle
    obtain ⟨rfl, rfl⟩ := Prod.ext_iff.mp (Except.ok.inj hsettle)
    exact ⟨outcome, t, hreport, bind_eq_ok.mpr ⟨_, hrejection, mapError_eq_ok.mpr hprepare⟩, htakes⟩
  · rintro ⟨outcome, t, hreport, hproposal, htakes⟩
    obtain ⟨rejection, hrejection, hprepare⟩ := bind_eq_ok.mp hproposal
    exact ⟨outcome.collected, rejection, t,
      bind_eq_ok.mpr ⟨outcome, hreport, bind_eq_ok.mpr ⟨rejection, hrejection, rfl⟩⟩,
      mapError_eq_ok.mp hprepare, htakes⟩

/-- A handler is simulated and executed in one state, in which its operation has no outcome and which
nobody else writes. The simulation leaves the store. What the execution commits is what the simulation
reports; it commits nothing if the simulation fails, if its evidence is invalid, if the rejection
or the batches cannot be made, or if the store does not take the transaction, and only then. -/
theorem simulate_exact (store : InMemoryEventStore) (st : State) (e : Execution)
    (handler : Handler e.Rejection) (hne : e.attempts ≠ [])
    (hattempts : ∀ attempt ∈ e.attempts, attempt = handler)
    (hnone : ∀ context, e.request.boundedContext = some context →
      st.transactions.lookup (some context, e.request.operationId) = none) :
    let simulated := (simulate Session.history e.executor.codecs e.request e.commandType
      handler).run.alone store.serve st
    let executed := (e.program store).run.alone store.serve st
    simulated.2 = st ∧
      (((∀ commit, executed.1 ≠ .ok (some commit)) ∧ executed.2 = st ∧
        ∀ metadata outcome t st', e.metadata = .ok metadata → simulated.1 = .ok outcome →
          outcome.proposal e.codec metadata = .ok t → ¬ Takes store st t st') ∨
      ∃ metadata outcome t, e.metadata = .ok metadata ∧ simulated.1 = .ok outcome ∧
        outcome.proposal e.codec metadata = .ok t ∧ Reports metadata e.codec outcome t ∧
          Takes store st t executed.2) := by
  intro simulated executed
  have hsimulated : simulated = (Id.run (simulate st.history e.executor.codecs e.request e.commandType
      handler).run, st) := simulate_alone ..
  refine ⟨by rw [hsimulated], ?_⟩
  cases hmetadata : e.metadata with
  | error error =>
    have hexecuted : executed = (.error error, st) := by
      show (liftM e.metadata >>= _ : ExceptT CommandExecutionError StoreProgram _).run.alone
        store.serve st = _
      rw [hmetadata]
      rfl
    rw [hexecuted]
    exact .inl ⟨fun commit hr => (by cases hr), rfl, fun _ _ _ _ hok => (by cases hok)⟩
  | ok metadata =>
    have hexecuted : executed = (executeLoop store e.executor metadata e.codec e.attempts 0).run.alone
        store.serve st := by
      show (liftM e.metadata >>= _ : ExceptT CommandExecutionError StoreProgram _).run.alone
        store.serve st = _
      rw [hmetadata]
      rfl
    have hreport : ∀ outcome, simulated.1 = .ok outcome ↔
        report (decided st e.executor.codecs metadata handler).1
          (decided st e.executor.codecs metadata handler).2 = .ok outcome := by
      intro outcome
      rw [hsimulated, simulate_eq handler (normalized_of_metadata hmetadata), mapError_eq_ok]
    obtain ⟨hsame, hoperation⟩ := metadata_identity hmetadata
    rw [hexecuted]
    cases hcontext : metadata.requiredBoundedContext with
    | error error =>
      -- there is no context, and no transaction can be made without one
      left
      have hlookup : (executeLoop store e.executor metadata e.codec e.attempts 0).run.alone
          store.serve st = (.error (.store error), st) := by
        obtain ⟨attempt, attempts, hcons⟩ := List.exists_cons_of_ne_nil hne
        rw [hcons, executeLoop]
        refine Program.aloneE_error store.serve ?_
        unfold lookupCompleted
        rw [hcontext]
        rfl
      rw [hlookup]
      refine ⟨fun commit hr => (by cases hr), rfl, fun metadata' outcome t st' hok _ hproposal => ?_⟩
      obtain rfl := Except.ok.inj hok
      obtain ⟨rejection, -, hprepare⟩ := bind_eq_ok.mp hproposal
      obtain ⟨context, _, hsome, -⟩ := prepareTransaction_ok (mapError_eq_ok.mp hprepare)
      rw [CommandExecutionMetadata.requiredBoundedContext, hsome] at hcontext
      cases hcontext
    | ok context =>
      have hsome : metadata.boundedContext = some context := okOr_eq_ok.mp hcontext
      have hmissing : st.transactions.lookup (some context, metadata.operationId) = none := by
        rw [hoperation]
        exact hnone context (hsame ▸ hsome)
      rcases executeLoop_alone hattempts hcontext hmissing (Prod.ext rfl rfl) with
        ⟨hresult, hst, hrefuses⟩ | hcommits
      · refine .inl ⟨hresult, hst, fun metadata' outcome t st' hok hsim hproposal htakes => ?_⟩
        obtain rfl := Except.ok.inj hok
        exact hrefuses hne st' (commitsFrom_iff.mpr ⟨outcome, t, (hreport outcome).mp hsim, hproposal,
          htakes⟩)
      · obtain ⟨outcome, t, hout, hproposal, htakes⟩ := commitsFrom_iff.mp hcommits
        exact .inr ⟨metadata, outcome, t, rfl, (hreport outcome).mpr hout, hproposal,
          reports_of_proposal (readGuard_of_report hout) hproposal, htakes⟩

end Simulation

/-! ## A rejection without a codec -/

namespace Sample

attribute [local instance] Crates.concrete

/-- `UnconfiguredRejectionCodec`. -/
def unconfiguredCodec : RejectionCodec Unit where
  encode _ := .error ⟨.encodingFailed,
    "configure an explicit durable rejection codec with execute_with_rejection_codec"⟩
  decode _ := .error ⟨.unsupportedSchemaVersion, "no rejection replay codec configured"⟩

/-- A rejection that is reported, and that no execution can commit. -/
def unrecordable : Execution := { execution context (.rejected ()) with codec := unconfiguredCodec }

/-- The simulation of a command reports a decision that its execution does not commit. -/
theorem simulate_reports_more :
    (∃ outcome, ((simulate Session.history unrecordable.executor.codecs unrecordable.request
      unrecordable.commandType (.done (.ok (.rejected ())))).run.alone memory.serve .empty).1 =
        .ok (outcome : SimulationOutcome Unit)) ∧
    (∃ e, ((unrecordable.program memory).run.alone memory.serve .empty).1 = .error e) ∧
    ((unrecordable.program memory).run.alone memory.serve .empty).2.transactions.lookup
      (some context, operation) = none := by
  have hsimulated : ((simulate Session.history unrecordable.executor.codecs unrecordable.request
      unrecordable.commandType (.done (.ok (.rejected ())) : Handler Unit)).run.alone memory.serve
        .empty).1.isOk = true := by decide +kernel
  have hexecuted : ((unrecordable.program memory).run.alone memory.serve .empty).1.isOk = false := by
    decide +kernel
  exact ⟨exists_of_isOk hsimulated, exists_of_not_isOk hexecuted, by decide +kernel⟩

/-- The account is opened as its simulation says. -/
theorem simulate_exact_opening : ∃ metadata outcome t,
    ((simulate Session.history starting.executor.codecs starting.request starting.commandType
      opens).run.alone memory.serve .empty).1 = .ok outcome ∧
    Reports metadata starting.codec outcome t ∧
      Takes memory .empty t ((starting.program memory).run.alone memory.serve .empty).2 := by
  have hcommitted : ((starting.program memory).run.alone memory.serve .empty).1.toOption.join.isSome =
      true := by decide +kernel
  rcases (simulate_exact memory .empty starting opens (by simp [starting])
    (fun _ hmem => List.mem_singleton.mp hmem) (fun _ _ => rfl)).2 with
    ⟨hnone, -⟩ | ⟨metadata, outcome, t, -, hsimulated, -, hreports, htakes⟩
  · cases hfinal : ((starting.program memory).run.alone memory.serve .empty).1 with
    | error e =>
      rw [hfinal] at hcommitted
      cases hcommitted
    | ok commit? =>
      rw [hfinal] at hcommitted
      obtain ⟨commit, rfl⟩ := Option.isSome_iff_exists.mp hcommitted
      exact absurd hfinal (hnone commit)
  · exact ⟨metadata, outcome, t, hsimulated, hreports, htakes⟩

end Sample

end Rostfrei
