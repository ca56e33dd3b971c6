import Rostfrei.Tracer.Accounted
import Rostfrei.Tracer.Submission

/-!
# Retained operations

The table of operations agrees with its queue and stays within its maximum, and each of its
operations has a correlation of its mode in the hub (`Backs`). The second part is what a reset could
break: it takes the operations that are not of `Dispatch` out of the table before it takes out their
correlations, and the scenario gate keeps such operations away in between.
-/

namespace Rostfrei.Tracer

open Lib Messaging

/-! ## Correlations of the table -/

namespace Correlations

variable {s s' : Correlations} {label : HubStep} {correlationId other : String}
  {mode : OperationMode}

/-- The hub has a correlation of the mode. -/
def Backs (s : Correlations) (correlationId : String) (mode : OperationMode) : Prop :=
  ∃ i record, s.hub.table.get? correlationId = some i ∧ s.hub.arena.get? i = some record ∧
    record.mode = mode

/-- A correlation that stays in the table. -/
theorem Touches.backs (h : s.Touches s'.hub.arena)
    (htable : s'.hub.table.get? correlationId = s.hub.table.get? correlationId)
    (hbacks : s.Backs correlationId mode) : s'.Backs correlationId mode := by
  obtain ⟨i, record, hkey, hget, hmode⟩ := hbacks
  refine ⟨i, ?_⟩
  rw [htable]
  generalize s'.hub.arena = arena at h
  cases h with
  | same => exact ⟨record, hkey, hget, hmode⟩
  | alloc other => exact ⟨record, hkey, Arena.get?_alloc hget, hmode⟩
  | @set j old new hold hsame =>
    by_cases hij : j = i
    · subst hij
      obtain rfl := Option.some.inj (hold.symm.trans hget)
      exact ⟨new, hkey, Arena.get?_set_self hget, hsame.trans hmode⟩
    · exact ⟨record, hkey, (Arena.get?_set_of_ne hij).trans hget, hmode⟩
  | free j hshared =>
    have hij : j ≠ i := by
      rintro rfl
      exact hshared (.inr (.inr (OrderedTable.mem_values.mpr ⟨correlationId, hkey⟩)))
    exact ⟨record, hkey, (Arena.get?_free_of_ne hij).trans hget, hmode⟩

variable [Crates]

/-- The steps of other callers leave the table as it is. -/
theorem table_of_isShared (hstep : s.apply label = some s') (hshared : label.isShared = true) :
    s'.hub.table = s.hub.table := by
  cases label with
  | register | removeIfInactive | retainDispatchCorrelations => cases hshared
  | insertMessage i message =>
    obtain ⟨record, -, rfl⟩ := Option.map_eq_some_iff.mp hstep
    simp only [CorrelationHub.insertMessage, CorrelationHub.insertInto]
    split
    · rfl
    · exact CorrelationHub.table_setRawEvidenceBudget
  | insertCommandOutcome i outcome =>
    obtain ⟨record, -, rfl⟩ := Option.map_eq_some_iff.mp hstep
    simp only [CorrelationHub.insertCommandOutcome, CorrelationHub.insertInto]
    split
    · rfl
    · exact CorrelationHub.table_setRawEvidenceBudget
  | retainObservationFailure i failure =>
    obtain ⟨record, -, rfl⟩ := Option.map_eq_some_iff.mp hstep
    split <;> rfl
  | append i kind =>
    obtain ⟨record, -, rfl⟩ := Option.map_eq_some_iff.mp hstep
    rfl
  | subscribe | subscribeEvidence =>
    obtain ⟨record, -, rfl⟩ := Option.map_eq_some_iff.mp hstep
    split <;> rfl
  | unsubscribe i =>
    rw [apply] at hstep
    split at hstep
    · obtain ⟨record, -, rfl⟩ := Option.map_eq_some_iff.mp hstep
      rfl
    · cases hstep
  | close i =>
    rw [apply] at hstep
    split at hstep
    · obtain ⟨record, -, rfl⟩ := Option.map_eq_some_iff.mp hstep
      exact CorrelationHub.table_setRawEvidenceBudget
    · cases hstep
  | drop i =>
    rw [apply] at hstep
    split at hstep
    · cases hstep
    · obtain ⟨record, -, rfl⟩ := Option.map_eq_some_iff.mp hstep
      exact CorrelationHub.table_setRawEvidenceBudget

/-- A subscription from the start is a step of the hub. -/
theorem apply_of_lease (h : s.lease correlationId = .ok s') :
    ∃ i, s.apply (.subscribe i 0) = some s' := by
  obtain ⟨i, -, h⟩ := bind_eq_ok.mp h
  obtain ⟨record, hget, h⟩ := bind_eq_ok.mp h
  obtain ⟨record', hsubscribe, h⟩ := bind_eq_ok.mp h
  rw [okOr_eq_ok] at hget
  refine ⟨i, ?_⟩
  rw [apply, subscribeWith, hget, Option.map_some, hsubscribe, ← pure_eq_ok.mp h]

theorem backs_lease (h : s.lease correlationId = .ok s') (hbacks : s.Backs other mode) :
    s'.Backs other mode := by
  obtain ⟨i, hstep⟩ := apply_of_lease h
  exact (touches hstep).backs (by rw [table_of_isShared hstep rfl]) hbacks

theorem backs_register {hub : CorrelationHub} {operationId context command : String}
    {schemaVersion : UInt32}
    (h : s.hub.registerCommand correlationId mode operationId context command schemaVersion =
      .ok hub) :
    s.hub.table.get? correlationId = none ∧ Backs { s with hub := hub } correlationId mode ∧
      ∀ other mode', s.Backs other mode' → Backs { s with hub := hub } other mode' := by
  rw [CorrelationHub.registerCommand, bind_unit_eq_ok, bind_unit_eq_ok, bind_unit_eq_ok,
    rejectIf_eq_ok] at h
  obtain ⟨-, hkey, -, h⟩ := h
  obtain ⟨record, hnew, hhub⟩ := bind_eq_ok.mp h
  obtain rfl := pure_eq_ok.mp hhub
  obtain ⟨event, -, hrecord⟩ := bind_eq_ok.mp hnew
  obtain rfl := pure_eq_ok.mp hrecord
  rw [Option.not_isSome_iff_eq_none] at hkey
  refine ⟨hkey, ⟨_, _, OrderedTable.get?_push_self, Arena.get?_alloc_next, rfl⟩, ?_⟩
  rintro other mode' ⟨i, record, hother, hget, hmode⟩
  have hne : other ≠ correlationId := by
    rintro rfl
    rw [hkey] at hother
    cases hother
  exact ⟨i, record, (OrderedTable.get?_push_of_ne hne).trans hother, Arena.get?_alloc hget, hmode⟩

omit [Crates] in
theorem table_removeIfInactive (hne : other ≠ correlationId) :
    (s.hub.removeIfInactive correlationId).2.table.get? other = s.hub.table.get? other := by
  rw [CorrelationHub.removeIfInactive]
  split
  · rfl
  · split
    · rfl
    · split
      · rfl
      · rw [CorrelationHub.closeLocked, CorrelationHub.setRecord,
          CorrelationHub.table_setRawEvidenceBudget]
        exact OrderedTable.get?_remove_of_ne hne

theorem backs_removeIfInactive (hne : other ≠ correlationId) (hbacks : s.Backs other mode) :
    Backs { s with hub := (s.hub.removeIfInactive correlationId).2 } other mode := by
  have hstep : s.apply (.removeIfInactive correlationId) =
    some { s with hub := (s.hub.removeIfInactive correlationId).2 } := rfl
  exact (touches hstep).backs (table_removeIfInactive hne) hbacks

theorem backs_retainDispatch (hstep : s.apply .retainDispatchCorrelations = some s')
    (hbacks : s.Backs other .dispatch) : s'.Backs other .dispatch := by
  refine (touches hstep).backs ?_ hbacks
  obtain rfl := Option.some.inj hstep
  obtain ⟨i, record, hkey, hget, hmode⟩ := hbacks
  rw [hkey]
  exact OrderedTable.get?_retain.mpr ⟨hkey, by simp [CorrelationHub.isDispatch, hget, hmode]⟩

end Correlations

/-! ## Records of operations -/

namespace OperationRecord

variable {record : OperationRecord} {mutation : OperationMutation}

/-- A record that says that it has ended has ended. -/
def Ended (record : OperationRecord) : Prop :=
  record.terminal = true → record.state.snapshot.status.isTerminal = true

theorem mode_mutate : (record.mutate mutation).mode = record.mode := by
  cases mutation <;>
    simp only [mutate, start, append, commandPublished, complete, fail, indeterminate, finish,
      markCorrelationRecorded] <;> split <;> rfl

theorem ended_finish (h : record.Ended) {events : List OperationEventKind}
    {last : OperationEventKind} {update : OperationSnapshot → OperationSnapshot}
    (hupdate : ∀ snapshot, (update snapshot).status.isTerminal = true) :
    (record.finish events last update).Ended := by
  rw [finish]
  split
  · exact h
  · exact fun _ => hupdate _

theorem ended_mutate (h : record.Ended) : (record.mutate mutation).Ended := by
  cases mutation with
  | start =>
    simp only [mutate, start, append]
    split
    · exact h
    · next hopen => exact fun hterminal => absurd (h hterminal) hopen
  | commandPublished commandMessageId duplicate =>
    simp only [mutate, commandPublished]
    split
    · exact h
    · next hopen => exact fun hterminal => absurd (.inl (h hterminal)) hopen
  | complete result events => exact ended_finish h fun _ => rfl
  | fail code message => exact ended_finish h fun _ => rfl
  | indeterminate code message commandMessageId duplicate => exact ended_finish h fun _ => rfl
  | markCorrelationRecorded => exact h

end OperationRecord

/-! ## The invariant -/

namespace TracerState

variable {config : TracerConfig} {s s' : TracerState} {submitting : Submitting}
  {operationId : String} {i : Nat} {correlations : Correlations}

@[simp] theorem operations_setPermits (mode : OperationMode) (permits : Nat) :
    (s.setPermits mode permits).operations = s.operations := by
  rw [setPermits]
  split <;> rfl

@[simp] theorem resetting_setPermits (mode : OperationMode) (permits : Nat) :
    (s.setPermits mode permits).resetting = s.resetting := by
  rw [setPermits]
  split <;> rfl

@[simp] theorem operations_abandon (mode : OperationMode) :
    (s.abandon mode).operations = s.operations := operations_setPermits _ _

/-- What the table knows of the submission that holds its lock. -/
def Holds (config : TracerConfig) (operations : OrderedTable String Nat) (operationId : String) :
    Stage → Prop
  | .evicting _ => operations.get? operationId = none
  | .registering =>
    operations.get? operationId = none ∧ operations.length < config.maximumOperations
  | .pinning i => operations.get? operationId = some i

structure Invariant (config : TracerConfig) (s : TracerState) : Prop where
  correlations : s.correlations.Invariant
  consistent : s.operations.Consistent
  length : s.operations.length ≤ config.maximumOperations
  backed : ∀ operationId i, s.operations.get? operationId = some i →
    ∃ record, s.records.get? i = some record ∧ s.correlations.Backs operationId record.mode
  ended : ∀ i record, s.records.get? i = some record → record.Ended
  identity : ∀ submitting, s.submitting = some submitting →
    submitting.operation.correlationId = submitting.operation.operationId
  holds : ∀ submitting, s.submitting = some submitting →
    Holds config s.operations submitting.operation.operationId submitting.stage
  gate : s.resetting.isSome = true → ∀ submitting, s.submitting = some submitting →
    submitting.operation.mode = .dispatch
  reset : s.resetting = some .correlations → ∀ operationId i record,
    s.operations.get? operationId = some i → s.records.get? i = some record →
    record.mode = .dispatch

namespace Invariant

theorem new (config : TracerConfig) : (TracerState.new config).Invariant config where
  correlations := ⟨.new _, .new _⟩
  consistent := OrderedTable.consistent_empty
  length := Nat.zero_le _
  backed _ _ h := by cases h
  ended _ _ h := by cases h
  identity _ h := by cases h
  holds _ h := by cases h
  gate h := by cases h
  reset h := by cases h

/-- Permits are not part of it. -/
theorem setPermits (h : s.Invariant config) (mode : OperationMode) (permits : Nat) :
    (s.setPermits mode permits).Invariant config := by
  rw [TracerState.setPermits]
  split <;> exact { h with }

/-- The lock is given back. -/
theorem unlock (h : s.Invariant config) : Invariant config { s with submitting := none } :=
  { h with
    identity := fun _ hsubmitting => by cases hsubmitting
    holds := fun _ hsubmitting => by cases hsubmitting
    gate := fun _ _ hsubmitting => by cases hsubmitting }

theorem abandon (h : s.Invariant config) (mode : OperationMode) :
    (s.abandon mode).Invariant config := h.unlock.setPermits _ _

theorem spawn (h : s.Invariant config) (record : Nat) (mode : OperationMode) :
    (s.spawn record mode).Invariant config := { h.unlock with }

/-- A step of the hub that keeps what the table needs. -/
theorem setCorrelations (h : s.Invariant config) (hcorrelations : correlations.Invariant)
    (hbacks : ∀ operationId mode, (s.operations.get? operationId).isSome →
      s.correlations.Backs operationId mode → correlations.Backs operationId mode) :
    Invariant config { s with correlations := correlations } :=
  { h with
    correlations := hcorrelations
    backed := fun operationId i hkey => by
      obtain ⟨record, hget, hrecord⟩ := h.backed operationId i hkey
      exact ⟨record, hget, hbacks operationId record.mode (by rw [hkey]; rfl) hrecord⟩ }

/-- An operation leaves the table. -/
theorem remove (h : s.Invariant config) (hsubmitting : s.submitting = none) (operationId : String) :
    Invariant config { s with operations := s.operations.remove operationId } :=
  have hkeys : ∀ other i, (s.operations.remove operationId).get? other = some i →
      s.operations.get? other = some i := fun other i hkey => by
    by_cases hother : other = operationId
    · rw [hother, OrderedTable.get?_remove_self] at hkey
      cases hkey
    · rwa [OrderedTable.get?_remove_of_ne hother] at hkey
  { h with
    consistent := h.consistent.remove
    length := OrderedTable.length_remove_le.trans h.length
    backed := fun other i hkey => h.backed other i (hkeys other i hkey)
    holds := fun submitting hlock => by
      rw [hsubmitting] at hlock
      cases hlock
    reset := fun hresetting other i record hkey hget =>
      h.reset hresetting other i record (hkeys other i hkey) hget }

/-- The submission that holds the lock goes on. -/
theorem advance (h : s.Invariant config) (hlock : s.submitting = some submitting) {stage : Stage}
    (hholds : Holds config s.operations submitting.operation.operationId stage) :
    Invariant config { s with submitting := some { submitting with stage := stage } } :=
  { h with
    identity := fun _ hsome => Option.some.inj hsome ▸ h.identity submitting hlock
    holds := fun _ hsome => Option.some.inj hsome ▸ hholds
    gate := fun hresetting _ hsome => Option.some.inj hsome ▸ h.gate hresetting submitting hlock }

theorem rotate (h : s.Invariant config) (hlock : s.submitting = some submitting) {remaining n : Nat}
    (hstage : submitting.stage = .evicting remaining) : Invariant config { s with
      operations := s.operations.rotate
      submitting := some { submitting with stage := .evicting n } } :=
  have hholds : s.operations.get? submitting.operation.operationId = none := by
    have := h.holds submitting hlock
    rwa [hstage] at this
  { @advance _ _ _ h hlock (.evicting n) hholds with
    consistent := h.consistent.rotate
    holds := fun _ hsome => Option.some.inj hsome ▸ hholds }

end Invariant

end TracerState

theorem CorrelationHub.removeIfInactive_false {hub hub' : CorrelationHub} {correlationId : String}
    (h : hub.removeIfInactive correlationId = (false, hub')) : hub' = hub := by
  rw [removeIfInactive] at h
  split at h
  · cases h
  · split at h
    · cases h
    · split at h
      · exact (Prod.mk.inj h).2.symm
      · cases h

/-- An inactive correlation has no subscribers. -/
theorem CorrelationHub.removeIfInactive_true {hub hub' : CorrelationHub} {correlationId : String}
    (h : hub.removeIfInactive correlationId = (true, hub')) :
    hub.hasActiveSubscribers correlationId = false := by
  rw [removeIfInactive] at h
  rw [hasActiveSubscribers]
  split at h
  · next hkey => rw [hkey, Option.bind_none, Option.any_none]
  · next i hkey =>
    rw [hkey, Option.bind_some]
    split at h
    · next hget => rw [hget, Option.any_none]
    · next record hget =>
      rw [hget, Option.any_some, decide_eq_false_iff_not]
      split at h
      · cases h
      · assumption

namespace TracerState

variable {config : TracerConfig} {s s' : TracerState} {submitting : Submitting}
  {operationId : String} {i : Nat} {correlations : Correlations}

/-- What a turn of `evict_terminal` does. Only an operation that has ended, whose result was
recorded and whose correlation is inactive is taken out. -/
inductive Evicts (s : TracerState) (submitting : Submitting) : TracerState → Prop where
  | refused : Evicts s submitting (s.abandon submitting.operation.mode)
  | rotated (remaining : Nat) : Evicts s submitting { s with
      operations := s.operations.rotate
      submitting := some { submitting with stage := .evicting remaining } }
  | removed {operationId : String} {i : Nat} {record : OperationRecord} {hub : CorrelationHub}
      (hkey : s.operations.get? operationId = some i) (hget : s.records.get? i = some record)
      (hevictable : record.isEvictable = true)
      (hremoved : s.correlations.hub.removeIfInactive operationId = (true, hub)) :
      Evicts s submitting { s with
        operations := s.operations.remove operationId
        correlations := { s.correlations with hub := hub }
        submitting := some { submitting with stage := .registering } }

theorem evicts (hconsistent : s.operations.Consistent) (submitting : Submitting) (remaining : Nat) :
    s.Evicts submitting (s.evict submitting remaining).2 := by
  rcases remaining with _ | remaining
  · exact .refused
  rcases horder : s.operations.insertionOrder with _ | ⟨operationId, order⟩
  · simp only [evict, horder]
    exact .refused
  · simp only [evict, horder]
    split
    · next hevictable =>
      obtain ⟨⟨removed, hub⟩, hremoved⟩ :
        ∃ r, s.correlations.hub.removeIfInactive operationId = r := ⟨_, rfl⟩
      rw [hremoved]
      cases removed with
      | true =>
        obtain ⟨i, hkey, hi⟩ := Option.any_eq_true _ _ |>.mp hevictable
        obtain ⟨record, hget, hrecord⟩ := Option.any_eq_true _ _ |>.mp hi
        simp only [if_true]
        rw [OrderedTable.remove_head hconsistent horder]
        exact .removed hkey hget hrecord hremoved
      | false =>
        obtain rfl := CorrelationHub.removeIfInactive_false hremoved
        exact .rotated remaining
    · exact .rotated remaining

namespace Invariant

/-- The lock is taken, or kept, for another stage. -/
theorem setSubmitting (h : s.Invariant config)
    (hidentity : submitting.operation.correlationId = submitting.operation.operationId)
    (hholds : Holds config s.operations submitting.operation.operationId submitting.stage)
    (hgate : s.resetting.isSome = true → submitting.operation.mode = .dispatch) :
    Invariant config { s with submitting := some submitting } :=
  { h with
    identity := fun _ hsome => Option.some.inj hsome ▸ hidentity
    holds := fun _ hsome => Option.some.inj hsome ▸ hholds
    gate := fun hresetting _ hsome => Option.some.inj hsome ▸ hgate hresetting }

/-- A record without a place in the table. -/
theorem allocRecord (h : s.Invariant config) {record : OperationRecord} (hended : record.Ended) :
    Invariant config { s with records := s.records.alloc record } :=
  { h with
    backed := fun operationId i hkey => by
      obtain ⟨record, hget, hrecord⟩ := h.backed operationId i hkey
      exact ⟨record, Arena.get?_alloc hget, hrecord⟩
    ended := fun i other hother => by
      by_cases hnext : i = s.records.next
      · subst hnext
        rw [Arena.get?_alloc_next, Option.some.injEq] at hother
        exact hother ▸ hended
      · rw [Arena.get?_alloc_of_ne hnext] at hother
        exact h.ended i other hother
    reset := fun hresetting operationId i other hkey hother => by
      obtain ⟨record, hget, -⟩ := h.backed operationId i hkey
      rw [Arena.get?_alloc hget] at hother
      exact Option.some.inj hother ▸ h.reset hresetting operationId i record hkey hget }

theorem setRecord (h : s.Invariant config) {record record' : OperationRecord}
    (hget : s.records.get? i = some record) (hmode : record'.mode = record.mode)
    (hended : record'.Ended) : Invariant config { s with records := s.records.set i record' } :=
  have hrecords : ∀ j other, (s.records.set i record').get? j = some other →
      ∃ before, s.records.get? j = some before ∧ other.mode = before.mode ∧ other.Ended := by
    intro j other hother
    by_cases hij : i = j
    · subst hij
      rw [Arena.get?_set_self hget, Option.some.injEq] at hother
      exact ⟨record, hget, hother ▸ hmode, hother ▸ hended⟩
    · rw [Arena.get?_set_of_ne hij] at hother
      exact ⟨other, hother, rfl, h.ended j other hother⟩
  { h with
    backed := fun operationId j hkey => by
      obtain ⟨before, hbefore, hbacks⟩ := h.backed operationId j hkey
      by_cases hij : i = j
      · subst hij
        obtain rfl := Option.some.inj (hget.symm.trans hbefore)
        exact ⟨record', Arena.get?_set_self hget, hmode ▸ hbacks⟩
      · exact ⟨before, (Arena.get?_set_of_ne hij).trans hbefore, hbacks⟩
    ended := fun j other hother => by
      obtain ⟨_, -, -, hended⟩ := hrecords j other hother
      exact hended
    reset := fun hresetting operationId j other hkey hother => by
      obtain ⟨before, hbefore, hsame, -⟩ := hrecords j other hother
      rw [hsame]
      exact h.reset hresetting operationId j before hkey hbefore }

variable [Crates]

theorem evict (h : s.Invariant config) (hlock : s.submitting = some submitting) {remaining : Nat}
    (hstage : submitting.stage = .evicting remaining) (hevicts : s.Evicts submitting s') :
    s'.Invariant config := by
  have hholds : s.operations.get? submitting.operation.operationId = none := by
    have := h.holds submitting hlock
    rwa [hstage] at this
  cases hevicts with
  | refused => exact h.abandon _
  | rotated n => exact h.rotate hlock hstage
  | @removed operationId i record hub hkey hget hevictable hremoved =>
    have hbase : Invariant config { s with
        submitting := none
        operations := s.operations.remove operationId } := h.unlock.remove rfl operationId
    have hhub : (s.correlations.hub.removeIfInactive operationId).2 = hub := by rw [hremoved]
    have hcorrelations := @setCorrelations _ _ { s.correlations with hub := hub } hbase
      (hhub ▸ h.correlations.removeIfInactive operationId) fun other mode hother hbacks => by
        refine hhub ▸ Correlations.backs_removeIfInactive ?_ hbacks
        rintro rfl
        rw [OrderedTable.get?_remove_self] at hother
        cases hother
    refine hcorrelations.setSubmitting (h.identity submitting hlock) ⟨?_, ?_⟩
      fun hresetting => h.gate hresetting submitting hlock
    · by_cases hother : submitting.operation.operationId = operationId
      · rw [hother]
        exact OrderedTable.get?_remove_self
      · exact (OrderedTable.get?_remove_of_ne hother).trans hholds
    · have := @OrderedTable.length_remove _ _ s.operations operationId _ (by rw [hkey]; rfl)
      have hlength := h.length
      exact Nat.lt_of_lt_of_le (Nat.lt_of_succ_le this.le) hlength

theorem register (h : s.Invariant config) (hlock : s.submitting = some submitting)
    (hstage : submitting.stage = .registering) : (s.register submitting).2.Invariant config := by
  obtain ⟨hkey, hroom⟩ : s.operations.get? submitting.operation.operationId = none ∧
      s.operations.length < config.maximumOperations := by
    have := h.holds submitting hlock
    rwa [hstage] at this
  have hfresh : (OperationRecord.new submitting.operation).Ended := fun hterminal => by
    cases hterminal
  rw [TracerState.register]
  dsimp only
  split
  · rw [OrderedTable.remove_push h.consistent hkey]
    exact (h.allocRecord hfresh).abandon _
  · next hub hregister =>
    have hbacks := Correlations.backs_register hregister
    have hlocked := h.identity submitting hlock
    have hbase : Invariant config { s with
        submitting := none
        operations := s.operations.push submitting.operation.operationId s.records.next
        records := s.records.alloc (.new submitting.operation)
        correlations := { s.correlations with hub := hub } } :=
      { (h.allocRecord hfresh).unlock with
        correlations := h.correlations.register hregister
        consistent := h.consistent.push hkey
        length := by
          rw [OrderedTable.length_push hkey]
          exact hroom
        backed := fun other i hother => by
          by_cases hsame : other = submitting.operation.operationId
          · subst hsame
            rw [OrderedTable.get?_push_self, Option.some.injEq] at hother
            exact ⟨_, hother ▸ Arena.get?_alloc_next, hlocked ▸ hbacks.2.1⟩
          · rw [OrderedTable.get?_push_of_ne hsame] at hother
            obtain ⟨record, hget, hrecord⟩ := h.backed other i hother
            exact ⟨record, Arena.get?_alloc hget, hbacks.2.2 other record.mode hrecord⟩
        holds := fun _ hsome => by cases hsome
        reset := fun hresetting other i record hother hget => by
          by_cases hsame : other = submitting.operation.operationId
          · subst hsame
            rw [OrderedTable.get?_push_self, Option.some.injEq] at hother
            rw [← hother, Arena.get?_alloc_next, Option.some.injEq] at hget
            rw [← hget]
            exact h.gate (by rw [hresetting]; rfl) submitting hlock
          · rw [OrderedTable.get?_push_of_ne hsame] at hother
            exact (h.allocRecord hfresh).reset hresetting other i record hother hget }
    split
    · exact hbase.setSubmitting hlocked OrderedTable.get?_push_self
        fun hresetting => h.gate hresetting submitting hlock
    · exact hbase.spawn _ _

theorem pin (h : s.Invariant config) (hlock : s.submitting = some submitting) :
    (s.pin submitting i).2.Invariant config := by
  have hlocked := h.identity submitting hlock
  rw [TracerState.pin]
  dsimp only
  split
  · next correlations hlease =>
    obtain ⟨j, hstep⟩ := Correlations.apply_of_lease hlease
    exact (h.setCorrelations (h.correlations.step hstep)
      fun _ _ _ hbacks => Correlations.backs_lease hlease hbacks).spawn _ _
  · rw [hlocked]
    refine (setCorrelations (h.unlock.remove rfl _) (h.correlations.removeIfInactive _)
      fun other mode hother hbacks => Correlations.backs_removeIfInactive ?_ hbacks).setPermits _ _
    rintro rfl
    rw [OrderedTable.get?_remove_self] at hother
    cases hother

end Invariant

/-! ## Submissions -/

/-- What the lookup of a submission does. -/
inductive LooksUp (config : TracerConfig) (s : TracerState) (operation : NewOperation)
    (pinCorrelation : Bool) : SubmissionOutcome → TracerState → Prop where
  | conflict {i : Nat} {existing : OperationRecord}
      (hkey : s.operations.get? operation.operationId = some i)
      (hget : s.records.get? i = some existing)
      (hfingerprint : existing.state.fingerprint ≠ operation.fingerprint) :
      LooksUp config s operation pinCorrelation (.refused .identityConflict) s
  | returned {i : Nat} {existing : OperationRecord}
      (hkey : s.operations.get? operation.operationId = some i)
      (hget : s.records.get? i = some existing)
      (hfingerprint : existing.state.fingerprint = operation.fingerprint) {s' : TracerState}
      (hcorrelations : s' = s ∨ ∃ correlations,
        s.correlations.lease operation.correlationId = .ok correlations ∧
        s' = { s with correlations := correlations }) :
      LooksUp config s operation pinCorrelation (.returned existing.state.snapshot) s'
  | notLeased {i : Nat} {existing : OperationRecord} {error : CorrelationError}
      (hkey : s.operations.get? operation.operationId = some i)
      (hget : s.records.get? i = some existing)
      (hfingerprint : existing.state.fingerprint = operation.fingerprint)
      (hpin : pinCorrelation = true)
      (hlease : s.correlations.lease operation.correlationId = .error error) :
      LooksUp config s operation pinCorrelation (.refused (.invalidOperationId error.toString)) s
  | refused (hkey : s.operations.get? operation.operationId = none) (error : SubmissionError) :
      LooksUp config s operation pinCorrelation (.refused error) s
  | goesOn (hkey : s.operations.get? operation.operationId = none) (permits : Nat) (stage : Stage)
      (hholds : Holds config s.operations operation.operationId stage) :
      LooksUp config s operation pinCorrelation .goesOn
        { s.setPermits operation.mode permits with
          submitting := some ⟨operation, pinCorrelation, stage⟩ }

variable {operation : NewOperation} {pinCorrelation : Bool} {outcome : SubmissionOutcome}
  {r : CommandSubmission}

theorem looksUp (h : s.lookup config operation pinCorrelation = some (outcome, s')) :
    s.LooksUp config operation pinCorrelation outcome s' := by
  rw [lookup] at h
  split at h
  · next i hkey =>
    obtain ⟨existing, hget, h⟩ := Option.map_eq_some_iff.mp h
    split at h
    · next hne =>
      obtain ⟨rfl, rfl⟩ := Prod.mk.inj h
      exact .conflict hkey hget hne
    · next hsame =>
      rw [ne_eq, not_not] at hsame
      split at h
      · next hpin =>
        split at h
        · next correlations hlease =>
          obtain ⟨rfl, rfl⟩ := Prod.mk.inj h
          exact .returned hkey hget hsame (.inr ⟨correlations, hlease, rfl⟩)
        · next error hlease =>
          obtain ⟨rfl, rfl⟩ := Prod.mk.inj h
          exact .notLeased hkey hget hsame hpin hlease
      · obtain ⟨rfl, rfl⟩ := Prod.mk.inj h
        exact .returned hkey hget hsame (.inl rfl)
  · next hkey =>
    dsimp only at h
    split at h
    · obtain ⟨rfl, rfl⟩ := Prod.mk.inj (Option.some.inj h)
      exact .refused hkey _
    · split at h
      · obtain ⟨rfl, rfl⟩ := Prod.mk.inj (Option.some.inj h)
        exact .refused hkey _
      · obtain ⟨rfl, rfl⟩ := Prod.mk.inj (Option.some.inj h)
        refine .goesOn hkey _ _ ?_
        split
        · exact hkey
        · next hfull => exact ⟨hkey, by simpa using hfull⟩

variable [Crates]

theorem identify_eq_ok {healthy : Bool} {generation : Nat} {key : String}
    (h : r.identify healthy generation key = .ok operation) :
    operation.correlationId = operation.operationId ∧ operation.mode = r.mode ∧
      ∃ operationId, operationIdFromKey r.mode (if r.mode = .test then generation else 0) r.context
        r.command key = .ok operationId ∧ operationId.value = operation.operationId := by
  rw [CommandSubmission.identify, bind_unit_eq_ok] at h
  obtain ⟨key', hvalid, h⟩ := bind_eq_ok.mp h.2
  obtain ⟨operationId, hid, h⟩ := bind_eq_ok.mp h
  rw [bind_unit_eq_ok] at h
  obtain rfl := pure_eq_ok.mp h.2
  obtain ⟨_, -, hkey⟩ := bind_eq_ok.mp hvalid
  rw [bind_unit_eq_ok, pure_eq_ok] at hkey
  obtain rfl := hkey.2
  exact ⟨rfl, rfl, operationId, hid, rfl⟩

/-- A submission is refused before the lookup, or it comes to it. -/
theorem submit_cases (h : s.submit config r = some (outcome, s')) :
    (∃ error, outcome = .refused error ∧ s' = s ∧ (r.check config = .error error ∨
      ∃ key, r.check config = .ok key ∧
        r.identify s.testScenarioHealthy s.testGeneration key = .error error)) ∨
    ∃ key operation, r.check config = .ok key ∧
      r.identify s.testScenarioHealthy s.testGeneration key = .ok operation ∧
      s.submitting = none ∧ (s.resetting.isSome = true → r.mode = .dispatch) ∧
      s.LooksUp config operation r.pinCorrelation outcome s' := by
  rw [submit] at h
  split at h
  · next error herror =>
    obtain ⟨rfl, rfl⟩ := Prod.mk.inj (Option.some.inj h)
    exact .inl ⟨error, rfl, rfl, .inl herror⟩
  · next key hcheck =>
    split at h
    · cases h
    · next hgate =>
      split at h
      · next error herror =>
        obtain ⟨rfl, rfl⟩ := Prod.mk.inj (Option.some.inj h)
        exact .inl ⟨error, rfl, rfl, .inr ⟨key, hcheck, herror⟩⟩
      · next operation hoperation =>
        split at h
        · cases h
        · next hlock =>
          refine .inr ⟨key, operation, hcheck, hoperation, ?_, fun hresetting => ?_, looksUp h⟩
          · rwa [Option.not_isSome_iff_eq_none] at hlock
          · by_contra hmode
            exact hgate ⟨hmode, hresetting⟩

theorem Invariant.submit (h : s.Invariant config) (hsubmit : s.submit config r = some (outcome, s')) :
    s'.Invariant config := by
  obtain ⟨_, -, rfl, -⟩ | ⟨key, operation, -, hidentify, -, hgate, hlooksUp⟩ :=
    submit_cases hsubmit
  · exact h
  obtain ⟨hid, hmode, -⟩ := identify_eq_ok hidentify
  cases hlooksUp with
  | conflict | notLeased | refused => exact h
  | returned _ _ _ hcorrelations =>
    obtain rfl | ⟨correlations, hlease, rfl⟩ := hcorrelations
    · exact h
    · obtain ⟨j, hstep⟩ := Correlations.apply_of_lease hlease
      exact h.setCorrelations (h.correlations.step hstep)
        fun _ _ _ hbacks => Correlations.backs_lease hlease hbacks
  | goesOn hkey permits stage hholds =>
    refine (h.setPermits operation.mode permits).setSubmitting hid ?_ fun hreset => ?_
    · rw [operations_setPermits]
      exact hholds
    · rw [resetting_setPermits] at hreset
      exact hmode.trans (hgate hreset)

/-! ## Steps -/

variable {label : TracerStep}

omit [Crates] in
theorem Invariant.resetOperations (h : s.Invariant config) (hlock : s.submitting = none) :
    Invariant config { s with
      operations := s.operations.retain fun i => (s.records.get? i).any (·.mode = .dispatch)
      resetting := some .correlations } :=
  { h with
    consistent := h.consistent.retain
    length := OrderedTable.length_retain_le.trans h.length
    backed := fun operationId i hkey => h.backed operationId i (OrderedTable.get?_retain.mp hkey).1
    holds := fun _ hsome => by
      rw [hlock] at hsome
      cases hsome
    gate := fun _ _ hsome => by
      rw [hlock] at hsome
      cases hsome
    reset := fun _ operationId i record hkey hget => by
      simpa [hget] using (OrderedTable.get?_retain.mp hkey).2 }

theorem Invariant.resetCorrelations (h : s.Invariant config)
    (hresetting : s.resetting = some .correlations)
    (hstep : s.correlations.apply .retainDispatchCorrelations = some correlations) :
    Invariant config { s with correlations := correlations, resetting := some .backing } :=
  { h with
    correlations := h.correlations.step hstep
    backed := fun operationId i hkey => by
      obtain ⟨record, hget, hbacks⟩ := h.backed operationId i hkey
      have hmode := h.reset hresetting operationId i record hkey hget
      rw [hmode] at hbacks
      exact ⟨record, hget, hmode ▸ Correlations.backs_retainDispatch hstep hbacks⟩
    gate := fun _ => h.gate (by rw [hresetting]; rfl)
    reset := fun hother => by cases hother }

theorem Invariant.step (h : s.Invariant config) (hstep : s.apply config label = some s') :
    s'.Invariant config := by
  cases label with
  | submit r =>
    obtain ⟨⟨outcome, _⟩, hsubmit, rfl⟩ := Option.map_eq_some_iff.mp hstep
    exact h.submit hsubmit
  | evict =>
    rw [apply] at hstep
    split at hstep
    · next submitting hlock =>
      split at hstep
      · next remaining hstage =>
        obtain rfl := Option.some.inj hstep
        exact h.evict hlock hstage (evicts h.consistent submitting remaining)
      · cases hstep
    · cases hstep
  | register =>
    rw [apply] at hstep
    split at hstep
    · next submitting hlock =>
      split at hstep
      · next hstage =>
        obtain rfl := Option.some.inj hstep
        exact h.register hlock hstage
      · cases hstep
    · cases hstep
  | pin =>
    rw [apply] at hstep
    split at hstep
    · next submitting hlock =>
      split at hstep
      · obtain rfl := Option.some.inj hstep
        exact h.pin hlock
      · cases hstep
    · cases hstep
  | mutate i mutation =>
    obtain ⟨record, hget, rfl⟩ := Option.map_eq_some_iff.mp hstep
    exact h.setRecord hget OperationRecord.mode_mutate
      (OperationRecord.ended_mutate (h.ended i record hget))
  | finish i =>
    obtain ⟨execution, -, rfl⟩ := Option.map_eq_some_iff.mp hstep
    have hbase : Invariant config { s with executions := s.executions.eraseIdx i } := { h with }
    exact hbase.setPermits _ _
  | correlation step =>
    rw [apply] at hstep
    split at hstep
    · next hshared =>
      obtain ⟨correlations, hcorrelations, rfl⟩ := Option.map_eq_some_iff.mp hstep
      refine h.setCorrelations (h.correlations.step hcorrelations) fun _ _ _ hbacks => ?_
      have htable := Correlations.table_of_isShared hcorrelations hshared
      exact (Correlations.touches hcorrelations).backs (by rw [htable]) hbacks
    · cases hstep
  | beginReset =>
    rw [apply] at hstep
    split at hstep
    · cases hstep
    · next hgate =>
      obtain rfl := Option.some.inj hstep
      simp only [not_or, Option.any_eq_true, not_exists, not_and, Bool.not_eq_true] at hgate
      refine { h with
        gate := fun _ submitting hsome => ?_
        reset := fun hother => by cases hother }
      simpa using hgate.2.1 submitting hsome
  | resetOperations =>
    rw [apply] at hstep
    split at hstep
    · next hreset =>
      obtain rfl := Option.some.inj hstep
      exact h.resetOperations hreset.2
    · cases hstep
  | resetCorrelations =>
    rw [apply] at hstep
    split at hstep
    · next hresetting =>
      obtain ⟨correlations, hcorrelations, rfl⟩ := Option.map_eq_some_iff.mp hstep
      exact h.resetCorrelations hresetting hcorrelations
    · cases hstep
  | endReset succeeded =>
    rw [apply] at hstep
    split at hstep
    · obtain rfl := Option.some.inj hstep
      exact { h with
        gate := fun hother => by cases hother
        reset := fun hother => by cases hother }
    · cases hstep

omit [Crates] in
theorem operations_submit (h : s.LooksUp config operation pinCorrelation outcome s') :
    s'.operations = s.operations := by
  cases h with
  | conflict | notLeased | refused => rfl
  | returned _ _ _ hcorrelations => obtain rfl | ⟨_, -, rfl⟩ := hcorrelations <;> rfl
  | goesOn => exact operations_setPermits _ _

/-! ## What follows -/

/-- The ways out of the table: eviction, a reset, or the rollback of a submission whose execution has
not been started. -/
inductive Removes (s : TracerState) (operationId : String) : TracerStep → Prop where
  | evict {i : Nat} {record : OperationRecord}
      (hkey : s.operations.get? operationId = some i) (hget : s.records.get? i = some record)
      (hterminal : record.state.snapshot.status.isTerminal = true)
      (hrecorded : record.correlationRecorded = true)
      (hinactive : s.correlations.hub.hasActiveSubscribers operationId = false) :
      Removes s operationId .evict
  | reset {i : Nat} {record : OperationRecord}
      (hkey : s.operations.get? operationId = some i) (hget : s.records.get? i = some record)
      (hmode : record.mode ≠ .dispatch) : Removes s operationId .resetOperations
  | rollback {submitting : Submitting} (hlock : s.submitting = some submitting)
      (hid : submitting.operation.operationId = operationId) : Removes s operationId .pin

theorem Invariant.removes (h : s.Invariant config) (hstep : s.apply config label = some s')
    (hkey : s.operations.get? operationId = some i)
    (hgone : s'.operations.get? operationId = none) : s.Removes operationId label := by
  have hkept (hsame : s'.operations = s.operations) : s.Removes operationId label := by
    rw [hsame, hkey] at hgone
    cases hgone
  cases label with
  | submit r =>
    obtain ⟨⟨outcome, _⟩, hsubmit, rfl⟩ := Option.map_eq_some_iff.mp hstep
    obtain ⟨_, -, rfl, -⟩ | ⟨_, _, -, -, -, -, hlooksUp⟩ := submit_cases hsubmit
    · exact hkept rfl
    · exact hkept (operations_submit hlooksUp)
  | evict =>
    rw [apply] at hstep
    split at hstep
    · next submitting hlock =>
      split at hstep
      · next remaining hstage =>
        have hevicts := evicts h.consistent submitting remaining
        rw [Option.some.inj hstep] at hevicts
        cases hevicts with
        | refused => exact hkept (operations_abandon _)
        | rotated =>
          rw [show s.operations.rotate.get? operationId = s.operations.get? operationId from rfl,
            hkey] at hgone
          cases hgone
        | @removed other j record hub hother hget hevictable hremoved =>
          obtain rfl : operationId = other := by
            by_contra hne
            rw [OrderedTable.get?_remove_of_ne hne, hkey] at hgone
            cases hgone
          rw [OperationRecord.isEvictable, Bool.and_eq_true] at hevictable
          exact .evict hother hget (h.ended j record hget hevictable.1) hevictable.2
            (CorrelationHub.removeIfInactive_true hremoved)
      · cases hstep
    · cases hstep
  | register =>
    rw [apply] at hstep
    split at hstep
    · next submitting hlock =>
      split at hstep
      · next hstage =>
        have hholds := h.holds submitting hlock
        rw [hstage] at hholds
        obtain rfl := Option.some.inj hstep
        rw [TracerState.register] at hgone
        dsimp only at hgone
        have hother : operationId ≠ submitting.operation.operationId := by
          rintro rfl
          rw [hholds.1] at hkey
          cases hkey
        split at hgone
        · rw [OrderedTable.remove_push h.consistent hholds.1] at hgone
          rw [operations_abandon, hkey] at hgone
          cases hgone
        · split at hgone
          · rw [OrderedTable.get?_push_of_ne hother, hkey] at hgone
            cases hgone
          · rw [TracerState.spawn, OrderedTable.get?_push_of_ne hother, hkey] at hgone
            cases hgone
      · cases hstep
    · cases hstep
  | pin =>
    rw [apply] at hstep
    split at hstep
    · next submitting hlock =>
      split at hstep
      · obtain rfl := Option.some.inj hstep
        refine .rollback hlock ?_
        by_contra hne
        rw [TracerState.pin] at hgone
        dsimp only at hgone
        split at hgone
        · rw [TracerState.spawn, hkey] at hgone
          cases hgone
        · rw [operations_abandon,
            OrderedTable.get?_remove_of_ne (Ne.symm hne), hkey] at hgone
          cases hgone
      · cases hstep
    · cases hstep
  | mutate j mutation =>
    obtain ⟨record, -, rfl⟩ := Option.map_eq_some_iff.mp hstep
    exact hkept rfl
  | finish j =>
    obtain ⟨execution, -, rfl⟩ := Option.map_eq_some_iff.mp hstep
    exact hkept (operations_setPermits _ _)
  | correlation step =>
    rw [apply] at hstep
    split at hstep
    · obtain ⟨correlations, -, rfl⟩ := Option.map_eq_some_iff.mp hstep
      exact hkept rfl
    · cases hstep
  | beginReset =>
    rw [apply] at hstep
    split at hstep
    · cases hstep
    · obtain rfl := Option.some.inj hstep
      exact hkept rfl
  | resetOperations =>
    rw [apply] at hstep
    split at hstep
    · obtain rfl := Option.some.inj hstep
      obtain ⟨record, hget, -⟩ := h.backed operationId i hkey
      refine .reset hkey hget fun hmode => ?_
      have hstays : (s.operations.retain fun i => (s.records.get? i).any (·.mode = .dispatch)).get?
          operationId = some i := OrderedTable.get?_retain.mpr ⟨hkey, by simp [hget, hmode]⟩
      rw [hstays] at hgone
      cases hgone
    · cases hstep
  | resetCorrelations =>
    rw [apply] at hstep
    split at hstep
    · obtain ⟨correlations, -, rfl⟩ := Option.map_eq_some_iff.mp hstep
      exact hkept rfl
    · cases hstep
  | endReset succeeded =>
    rw [apply] at hstep
    split at hstep
    · obtain rfl := Option.some.inj hstep
      exact hkept rfl
    · cases hstep

theorem invariant (config : TracerConfig) : (machine config).Invariant (Invariant config) where
  start _ h := h ▸ .new config
  step _ _ _ h hstep := h.step hstep

/-- How a submission of a retained operation ends. -/
inductive Answers (config : TracerConfig) (s : TracerState) (r : CommandSubmission)
    (existing : OperationRecord) : SubmissionOutcome → Prop where
  /-- Before the lookup. -/
  | refused {error : SubmissionError} (h : r.check config = .error error ∨
      ∃ key, r.check config = .ok key ∧
        r.identify s.testScenarioHealthy s.testGeneration key = .error error) :
      Answers config s r existing (.refused error)
  | conflict {key : String} {operation : NewOperation} (hcheck : r.check config = .ok key)
      (hidentify : r.identify s.testScenarioHealthy s.testGeneration key = .ok operation)
      (hfingerprint : existing.state.fingerprint ≠ operation.fingerprint) :
      Answers config s r existing (.refused .identityConflict)
  | returned {key : String} {operation : NewOperation} (hcheck : r.check config = .ok key)
      (hidentify : r.identify s.testScenarioHealthy s.testGeneration key = .ok operation)
      (hfingerprint : existing.state.fingerprint = operation.fingerprint) :
      Answers config s r existing (.returned existing.state.snapshot)
  /-- A pinned submission, whose correlation no longer has its start. -/
  | notLeased {error : CorrelationError} (hpin : r.pinCorrelation = true) :
      Answers config s r existing (.refused (.invalidOperationId error.toString))

/-- The operation identity that a submission with this key has. -/
def HasOperationId (s : TracerState) (r : CommandSubmission) (operationId : String) : Prop :=
  ∃ key id, r.idempotencyKey = some key ∧
    operationIdFromKey r.mode (if r.mode = .test then s.testGeneration else 0) r.context r.command
      key = .ok id ∧ id.value = operationId

omit [Crates] in
theorem check_eq_ok {key : String} (h : r.check config = .ok key) : r.idempotencyKey = some key := by
  rw [CommandSubmission.check] at h
  cases hmode : r.mode <;>
    simp only [hmode, bind_eq_ok, okOr_eq_ok, pure_eq_ok, reduceCtorEq, false_and,
      exists_false] at h
  · obtain ⟨_, -, _, -, key', hkey, _, -, rfl⟩ := h
    exact hkey
  · obtain ⟨_, -, key', hkey, _, -, rfl⟩ := h
    exact hkey

theorem hasOperationId_of_identify {key : String} (hcheck : r.check config = .ok key)
    (hidentify : r.identify s.testScenarioHealthy s.testGeneration key = .ok operation)
    (h : s.HasOperationId r operationId) : operation.operationId = operationId := by
  obtain ⟨key', id, hkey, hid, rfl⟩ := h
  obtain ⟨-, -, id', hid', hvalue⟩ := identify_eq_ok hidentify
  obtain rfl := Option.some.inj (hkey.symm.trans (check_eq_ok hcheck))
  obtain rfl := Except.ok.inj (hid.symm.trans hid')
  exact hvalue.symm

/-- What the table promises in a state, and of the steps from it. -/
structure Sound (config : TracerConfig) (s : TracerState) : Prop where
  nodup : s.operations.insertionOrder.Nodup
  order : ∀ operationId, operationId ∈ s.operations.insertionOrder ↔
    (s.operations.get? operationId).isSome
  count : s.operations.insertionOrder.length ≤ config.maximumOperations
  backed : ∀ operationId i, s.operations.get? operationId = some i →
    ∃ record, s.records.get? i = some record ∧ s.correlations.Backs operationId record.mode
  removed : ∀ label s' operationId i, s.apply config label = some s' →
    s.operations.get? operationId = some i → s'.operations.get? operationId = none →
    s.Removes operationId label
  resubmitted : ∀ r operationId i outcome s', s.HasOperationId r operationId →
    s.operations.get? operationId = some i → s.submit config r = some (outcome, s') →
    s'.executions = s.executions ∧ s'.operations = s.operations ∧ s'.submitting = s.submitting ∧
      ∃ existing, s.records.get? i = some existing ∧ Answers config s r existing outcome

theorem Invariant.resubmitted (h : s.Invariant config) (hid : s.HasOperationId r operationId)
    (hkey : s.operations.get? operationId = some i)
    (hsubmit : s.submit config r = some (outcome, s')) :
    s'.executions = s.executions ∧ s'.operations = s.operations ∧ s'.submitting = s.submitting ∧
      ∃ existing, s.records.get? i = some existing ∧ Answers config s r existing outcome := by
  obtain ⟨existing, hget, -⟩ := h.backed operationId i hkey
  obtain ⟨error, rfl, rfl, herror⟩ | ⟨key, operation, hcheck, hidentify, -, -, hlooksUp⟩ :=
    submit_cases hsubmit
  · exact ⟨rfl, rfl, rfl, existing, hget, .refused herror⟩
  obtain rfl := hasOperationId_of_identify hcheck hidentify hid
  have hexisting {j : Nat} {record : OperationRecord}
      (hother : s.operations.get? operation.operationId = some j)
      (hrecord : s.records.get? j = some record) : record = existing := by
    obtain rfl := Option.some.inj (hother.symm.trans hkey)
    exact Option.some.inj (hrecord.symm.trans hget)
  cases hlooksUp with
  | conflict hother hrecord hfingerprint =>
    obtain rfl := hexisting hother hrecord
    exact ⟨rfl, rfl, rfl, _, hget, .conflict hcheck hidentify hfingerprint⟩
  | returned hother hrecord hfingerprint hcorrelations =>
    obtain rfl := hexisting hother hrecord
    obtain rfl | ⟨correlations, -, rfl⟩ := hcorrelations
    · exact ⟨rfl, rfl, rfl, _, hget, .returned hcheck hidentify hfingerprint⟩
    · exact ⟨rfl, rfl, rfl, _, hget, .returned hcheck hidentify hfingerprint⟩
  | notLeased _ _ _ hpin => exact ⟨rfl, rfl, rfl, existing, hget, .notLeased hpin⟩
  | refused hnone =>
    rw [hkey] at hnone
    cases hnone
  | goesOn hnone =>
    rw [hkey] at hnone
    cases hnone

theorem Invariant.sound (h : s.Invariant config) : s.Sound config where
  nodup := h.consistent.nodup
  order _ := h.consistent.mem
  count := h.consistent.length_eq.trans_le h.length
  backed := h.backed
  removed _ _ _ _ hstep hkey hgone := h.removes hstep hkey hgone
  resubmitted _ _ _ _ _ hid hkey hsubmit := h.resubmitted hid hkey hsubmit

end TracerState

section Orders

attribute [local instance] Crates.concrete

def orderConfig : TracerConfig := ⟨true, true, false, [("sales", "place", 1)], 150000, 8⟩

def orderSubmission (pinCorrelation : Bool) : CommandSubmission :=
  ⟨.test, "sales", "place", 1, .null, some "order-1", pinCorrelation, 1024⟩

/-- An operation, and two more events of its correlation, for which the first is dropped. -/
def orderSteps : List TracerStep :=
  [.submit (orderSubmission false), .register,
    .correlation (.append 0 (.commandResult "order-1" .accepted none)),
    .correlation (.append 0 (.commandResult "order-1" .accepted none))]

/-- The correlation has lost its start. -/
def isNotLeased : SubmissionOutcome → Bool
  | .refused (.invalidOperationId message) => message = (CorrelationError.expiredCursor 2).toString
  | _ => false

/-- The same request again, pinned. -/
theorem orderSteps_resubmitted :
    ((orderSteps.foldlM (TracerState.apply orderConfig) (.new orderConfig)).any fun s =>
      (operationIdFromKey .test s.testGeneration "sales" "place" "order-1").toOption.any (fun id =>
        (s.operations.get? id.value).isSome) &&
      (s.submit orderConfig (orderSubmission true)).any fun result => isNotLeased result.1) =
    true := by
  decide +kernel

end Orders

end Rostfrei.Tracer
