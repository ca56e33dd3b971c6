import Rostfrei.Executor.Safety

/-!
# Pools of executions

Any number of executions and retries of commands over one in-memory store. `executions_serializable`
says that whatever their interleaving, the store is what a serial run of decisions leaves, and every
execution that ends with a result ends with the decision of its operation.
-/

namespace Rostfrei

open Lib Memory Program

section Pools

variable [Crates] [Crates.Lawful] {store : InMemoryEventStore}

/-- Issued commands start at any time; nothing else uses the store. -/
def executionRules (hhot : store.hot = memoryDetails) (issued : Execution → Prop) :
    Pool.Rules (executions store issued) (Except CommandExecutionError (Option CompletedCommit))
      Execution where
  start _ e p := issued e ∧ p = (e.program store).run
  env _ _ := False
  post e calls result s :=
    match result with
    | .ok result => Concludes store issued e calls result s
    | .error _ => Unchanged calls
  start_safe := by
    rintro s e p - ⟨hissued, rfl⟩
    refine Safe.mono (program_safe hhot hissued) fun calls result s' hI hr => ?_
    cases result with
    | ok => exact hr.here hI
    | error => exact hr.here hI
  env_keeps := fun _ _ _ h => h.elim

/-- The executions of a pool are decided one after another. -/
structure Serializable (store : InMemoryEventStore) (issued : Execution → Prop)
    (pool : Pool StoreCall StoreCall.Answer (Except CommandExecutionError (Option CompletedCommit))
      State Execution) (log : List Decision) : Prop where
  /-- Each decision is what a handler of an issued command decides in the state that the decisions
  before it left, and it is committed in that state. -/
  run : SerialRun store issued .empty log pool.shared
  /-- An operation of a context is decided at most once. -/
  once : (log.map Decision.key).Nodup
  /-- The outcomes that the store holds are those of the decisions. -/
  outcomes : ∀ context op outcome,
    store.lookupOutcome pool.shared ⟨store.authority, context, op⟩ = .ok (.completed outcome) ↔
      ∃ d ∈ log, d.key = (context, op) ∧ outcome = d.outcome store
  /-- The events that the store holds are those of the decisions. -/
  streams : ∀ streamId, pool.shared.stream streamId = log.flatMap (·.events streamId)
  /-- Every result is the decision of its operation. -/
  results : ∀ e calls commit, ⟨e, calls, .done (.ok (some commit))⟩ ∈ pool.processes →
    ∃ d ∈ log, e.request.boundedContext = some d.context ∧
      e.request.operationId = d.transaction.operationId ∧ commit.outcome = d.outcome store
  /-- A fresh result is a decision of the execution itself, made by one of its calls. -/
  fresh : ∀ e calls outcome, ⟨e, calls, .done (.ok (some (.appended outcome)))⟩ ∈ pool.processes →
    ∃ d : Decision, d.execution = e ∧ d.Valid store issued ∧ outcome = d.outcome store ∧
      MakesDecision store d calls
  /-- No other execution that is done has changed anything. -/
  others : ∀ e calls result, ⟨e, calls, .done result⟩ ∈ pool.processes →
    (∀ outcome, result ≠ .ok (some (.appended outcome))) → Unchanged calls

/-- For any interleaving of any number of executions. -/
theorem executions_serializable (hhot : store.hot = memoryDetails) (issued : Execution → Prop)
    {pool : Pool StoreCall StoreCall.Answer (Except CommandExecutionError (Option CompletedCommit))
      State Execution}
    (h : Pool.Reachable (executionRules hhot issued) .empty pool) :
    ∃ log, Serializable store issued pool log := by
  have hempty : (executions store issued).inv .empty := ⟨[], rfl⟩
  have hsound := Pool.Reachable.sound hempty h
  obtain ⟨log, hrun⟩ := hsound.inv
  refine ⟨log, hrun, hrun.nodup, ?_, ?_, ?_, ?_, ?_⟩
  · intro context op outcome
    constructor
    · intro hlookup
      obtain ⟨stored, hrecord⟩ : ∃ stored,
          pool.shared.transactions.lookup (some context, op) = some stored := by
        rcases hrecord : pool.shared.transactions.lookup (some context, op) with _ | stored
        · simp [InMemoryEventStore.lookupOutcome, InMemoryEventStore.validateAuthority, hrecord,
            rejectIf] at hlookup
        · exact ⟨stored, rfl⟩
      obtain ⟨d, hd, hkey, -⟩ := hrun.of_record hrecord
      obtain ⟨rfl, rfl⟩ := Prod.mk.inj hkey
      rw [(hrun.known hd).lookup hhot] at hlookup
      exact ⟨d, hd, rfl, (OutcomeLookup.completed.inj (Except.ok.inj hlookup)).symm⟩
    · rintro ⟨d, hd, hkey, rfl⟩
      obtain ⟨rfl, rfl⟩ := Prod.mk.inj hkey
      exact (hrun.known hd).lookup hhot
  · intro streamId
    simpa [State.empty, State.stream] using hrun.stream streamId
  · intro e calls commit hp
    obtain ⟨context, hcontext, hcommit⟩ := hsound.result hp
    obtain ⟨d, hd, hkey, ho⟩ : Answers store issued context e.request.operationId commit.outcome
        pool.shared := by
      cases commit with
      | appended outcome =>
        obtain ⟨d, -, hd, hkey, ho, -⟩ := hcommit
        exact ⟨d, hd, hkey, ho⟩
      | exactReplay outcome => exact hcommit.2
    obtain ⟨d', hd', hkey', ho'⟩ := hrun.of_known hhot hd
    obtain ⟨hctx, hop⟩ := Prod.mk.inj (hkey'.trans hkey)
    exact ⟨d', hd', by rw [hctx, hcontext], hop.symm, by rw [ho, ho']⟩
  · intro e calls outcome hp
    obtain ⟨context, -, d, he, hd, -, ho, hmakes⟩ := hsound.result hp
    exact ⟨d, he, hd.valid, ho, hmakes⟩
  · intro e calls result hp hother
    have hresult := hsound.result hp
    cases result with
    | error error => exact hresult
    | ok result =>
      cases result with
      | none => exact hresult
      | some commit =>
        obtain ⟨context, -, hcommit⟩ := hresult
        cases commit with
        | appended outcome => exact absurd rfl (hother outcome)
        | exactReplay outcome => exact hcommit.1

end Pools

/-! ## One operation in two contexts -/

namespace Sample

attribute [local instance] Crates.concrete

local instance : Crates.Lawful := Crates.concrete_lawful

def unitCodec : RejectionCodec Unit where
  encode _ := .ok ⟨"unit", 1, []⟩
  decode _ := .ok ()

/-- A command that decides without looking at any aggregate. -/
def execution (context : BoundedContextName) (decision : CommandDecision Unit) : Execution where
  Rejection := Unit
  executor := ⟨⟨fun _ => none⟩, boundedConflictRetries 3⟩
  request := ⟨none, none, none, some context, operation, fingerprint, none, none⟩
  commandType := "Decide"
  codec := unitCodec
  attempts := [.done (.ok decision)]

def shipping : BoundedContextName := ⟨"shipping", by decide +kernel⟩

def acceptance : Execution := execution context .accepted
def refusal : Execution := execution shipping (.rejected ())

def memory : InMemoryEventStore := .new authority 10 10

/-- Each of the two commands has looked for an outcome and committed. -/
def accepted := Pool.advance memory.serve 2 (acceptance.program memory).run .empty
def refused := Pool.advance memory.serve 2 (refusal.program memory).run accepted.2.2

def decidedPool : Pool StoreCall StoreCall.Answer
    (Except CommandExecutionError (Option CompletedCommit)) State Execution :=
  ⟨refused.2.2,
    [⟨acceptance, accepted.1, accepted.2.1⟩, ⟨refusal, refused.1, refused.2.1⟩]⟩

theorem accepted_recorded :
    (decidedPool.shared.transactions.lookup (some context, operation)).isSome = true := by
  decide +kernel

theorem refused_recorded :
    (decidedPool.shared.transactions.lookup (some shipping, operation)).isSome = true := by
  decide +kernel

theorem decidedPool_reachable (hhot : memory.hot = memoryDetails) :
    Pool.Reachable (executionRules hhot fun _ => True) .empty decidedPool := by
  have hserve : ∀ s call, (executions memory fun _ => True).exec s call (memory.serve s call).1
      (memory.serve s call).2 := fun _ _ => rfl
  have hstart : ∀ s procs e,
      Pool.Step (executionRules hhot fun _ => True) ⟨s, procs⟩
        ⟨s, procs ++ [⟨e, [], (e.program memory).run⟩]⟩ :=
    fun _ _ _ => .start ⟨trivial, rfl⟩
  have hrun : ∀ e others s, Relation.ReflTransGen (Pool.Step (executionRules hhot fun _ => True))
      ⟨s, others ++ [⟨e, [], (e.program memory).run⟩]⟩
      ⟨(Pool.advance memory.serve 2 (e.program memory).run s).2.2,
        others ++ [⟨e, (Pool.advance memory.serve 2 (e.program memory).run s).1,
          (Pool.advance memory.serve 2 (e.program memory).run s).2.1⟩]⟩ :=
    fun e others s => Pool.run_advance hserve e others [] 2 _ _
  exact .head (hstart .empty [] acceptance) (.trans (hrun acceptance [] .empty)
    (.head (hstart accepted.2.2 [⟨acceptance, accepted.1, accepted.2.1⟩] refusal)
      (hrun refusal [⟨acceptance, accepted.1, accepted.2.1⟩] accepted.2.2)))

/-- An operation identity that is used in two contexts is decided twice. -/
theorem operation_decided_in_two_contexts :
    ∃ pool, Pool.Reachable (executionRules (rfl : memory.hot = memoryDetails) fun _ => True) .empty
      pool ∧ ∃ first second : CompletedOutcome, first ≠ second ∧
        memory.lookupOutcome pool.shared ⟨authority, context, operation⟩ =
          .ok (.completed first) ∧
        memory.lookupOutcome pool.shared ⟨authority, shipping, operation⟩ =
          .ok (.completed second) := by
  have hempty : (executions memory fun _ => True).inv .empty := ⟨[], rfl⟩
  obtain ⟨log, hrun⟩ := (Pool.Reachable.sound hempty (decidedPool_reachable rfl)).inv
  obtain ⟨stored₁, h₁⟩ := Option.isSome_iff_exists.mp accepted_recorded
  obtain ⟨stored₂, h₂⟩ := Option.isSome_iff_exists.mp refused_recorded
  obtain ⟨d₁, hd₁, hkey₁, -⟩ := hrun.of_record h₁
  obtain ⟨d₂, hd₂, hkey₂, -⟩ := hrun.of_record h₂
  obtain ⟨hcontext₁, hop₁⟩ := Prod.mk.inj hkey₁
  obtain ⟨hcontext₂, hop₂⟩ := Prod.mk.inj hkey₂
  have hlookup₁ := (hrun.known hd₁).lookup rfl
  have hlookup₂ := (hrun.known hd₂).lookup rfl
  rw [hcontext₁, hop₁] at hlookup₁
  rw [hcontext₂, hop₂] at hlookup₂
  refine ⟨decidedPool, decidedPool_reachable rfl, _, _, fun heq => ?_, hlookup₁, hlookup₂⟩
  -- the key of a marker names its context
  have hkey : (d₁.marker memory).reference.key = (d₂.marker memory).reference.key := by
    have hmarker : d₁.marker memory = d₂.marker memory := congrArg CompletedOutcome.marker heq
    rw [hmarker]
  rw [(hrun.known hd₁).valid.recorded.key, (hrun.known hd₂).valid.recorded.key, hcontext₁,
    hcontext₂] at hkey
  have hcontexts : context = shipping := congrArg OutcomeKey.context hkey
  exact absurd hcontexts (by decide)

/-- The two executions are decided one after another. -/
theorem executions_serializable_decided :
    ∃ log, Serializable memory (fun _ => True) decidedPool log ∧ log ≠ [] := by
  obtain ⟨log, hlog⟩ := executions_serializable rfl (fun _ => True) (decidedPool_reachable rfl)
  refine ⟨log, hlog, fun hnil => ?_⟩
  obtain ⟨stored, hrecord⟩ := Option.isSome_iff_exists.mp accepted_recorded
  obtain ⟨d, hd, -⟩ := hlog.run.of_record hrecord
  rw [hnil] at hd
  cases hd

end Sample

end Rostfrei
