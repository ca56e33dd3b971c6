import Rostfrei.Lib.Arena
import Rostfrei.Lib.OrderedTable
import Rostfrei.Tracer.Evidence

/-!
# The correlation hub

`CorrelationHub` of `correlation.rs`. A record is shared by the table, by its subscriptions and by
the calls that have looked it up; here it is in an arena, and they have its number.

`HubStep` is a critical section of any call, so a run is an interleaving of calls. Looking a record
up changes nothing: the steps on a record take its number, which may be one that the table no longer
has. `close` locks the record for the whole of `close_locked`, so it is one step, and so is
`remove_if_inactive`.
-/

namespace Rostfrei.Tracer

open Lib Messaging

/-- `validate_correlation_id`. -/
def validateCorrelationId (value : String) : Except CorrelationError Unit :=
  rejectIf (value = "" ∨ strLen value > 256 ∨ value.toList.any isControl)
    (.invalidId "correlation ID must contain 1-256 non-control characters")

/-- Records of the two modes are in the same budget. -/
def OperationMode.SharesBudget (mode other : OperationMode) : Prop :=
  mode = .dispatch ↔ other = .dispatch
deriving Decidable

structure CorrelationHub where
  table : OrderedTable String Nat
  maximumCorrelations : Nat
  maximumBytesPerCorrelation : Nat
  controlRawEvidenceBudget : RawEvidenceBudget
  dispatchRawEvidenceBudget : RawEvidenceBudget
  /-- The records behind the `Arc`s. -/
  arena : Arena CorrelationRecord

namespace CorrelationHub

/-- `CorrelationHub::new`. -/
def new (maximumCorrelations : Nat) : CorrelationHub where
  table := .empty
  maximumCorrelations := max maximumCorrelations 1
  maximumBytesPerCorrelation := correlationByteBudget (max maximumCorrelations 1)
  controlRawEvidenceBudget := ⟨maximumRawEvidenceBytesPerCapability, 0⟩
  dispatchRawEvidenceBudget := ⟨maximumRawEvidenceBytesPerCapability, 0⟩
  arena := .empty

/-- The budget of a record of the mode. -/
def rawEvidenceBudget (hub : CorrelationHub) : OperationMode → RawEvidenceBudget
  | .simulate | .test => hub.controlRawEvidenceBudget
  | .dispatch => hub.dispatchRawEvidenceBudget

def setRawEvidenceBudget (hub : CorrelationHub) (mode : OperationMode)
    (budget : RawEvidenceBudget) : CorrelationHub :=
  match mode with
  | .simulate | .test => { hub with controlRawEvidenceBudget := budget }
  | .dispatch => { hub with dispatchRawEvidenceBudget := budget }

def setRecord (hub : CorrelationHub) (i : Nat) (record : CorrelationRecord) : CorrelationHub :=
  { hub with arena := hub.arena.set i record }

/-- `record`. -/
def record (hub : CorrelationHub) (correlationId : String) : Except CorrelationError Nat := do
  validateCorrelationId correlationId
  okOr .notFound (hub.table.get? correlationId)

/-- `has_active_subscribers`. -/
def hasActiveSubscribers (hub : CorrelationHub) (correlationId : String) : Bool :=
  ((hub.table.get? correlationId).bind hub.arena.get?).any fun record => record.subscribers > 0

/-- `close_locked`. -/
def closeLocked (hub : CorrelationHub) (i : Nat) (record : CorrelationRecord) : CorrelationHub :=
  let budget := hub.rawEvidenceBudget record.mode
  (hub.setRawEvidenceBudget record.mode (budget.release record.evidence.retainedBytes)).setRecord i
    record.close

/-- The last `Arc` of a record is gone: `clear_evidence` in `drop`. -/
def dropRecord (hub : CorrelationHub) (i : Nat) (record : CorrelationRecord) : CorrelationHub :=
  let budget := hub.rawEvidenceBudget record.mode
  { hub.setRawEvidenceBudget record.mode (budget.release record.evidence.retainedBytes) with
    arena := hub.arena.free i }

/-- `remove_if_inactive`. -/
def removeIfInactive (hub : CorrelationHub) (correlationId : String) : Bool × CorrelationHub :=
  match hub.table.get? correlationId with
  | none => (true, hub)
  | some i =>
    match hub.arena.get? i with
    | none => (true, hub)
    | some record =>
      if record.subscribers > 0 then (false, hub)
      else (true, { hub with table := hub.table.remove correlationId }.closeLocked i record)

/-- A record of `Dispatch`. -/
def isDispatch (hub : CorrelationHub) (i : Nat) : Bool :=
  (hub.arena.get? i).any fun record => record.mode = .dispatch

/-- The locked section of `retain_dispatch_correlations`: the records that it will close, and the
hub. -/
def retainDispatchCorrelations (hub : CorrelationHub) : List Nat × CorrelationHub :=
  let removed := (hub.table.records.entries.map (·.2)).filter fun i => !hub.isDispatch i
  (removed, { hub with table := hub.table.retain hub.isDispatch })

variable [Crates]

/-- `register_command`. -/
def registerCommand (hub : CorrelationHub) (correlationId : String) (mode : OperationMode)
    (operationId context command : String) (schemaVersion : UInt32) :
    Except CorrelationError CorrelationHub := do
  validateCorrelationId correlationId
  rejectIf (hub.table.get? correlationId).isSome (.invalidId "correlation is already registered")
  rejectIf (hub.table.length ≥ hub.maximumCorrelations) .capacityExhausted
  let record ← CorrelationRecord.new correlationId mode defaultMaximumEventsPerCorrelation
    hub.maximumBytesPerCorrelation
    (.command operationId none none none context command schemaVersion)
  return { hub with
    table := hub.table.push correlationId hub.arena.next
    arena := hub.arena.alloc record }

/-- The locked section of `insert_message` and of `insert_command_outcome`. -/
def insertInto (hub : CorrelationHub) (i : Nat) (record : CorrelationRecord)
    (insertion : CorrelationEvidenceState → RawEvidenceBudget →
      Except CorrelationError MessageSeriesInsertOutcome ×
        CorrelationEvidenceState × RawEvidenceBudget) :
    Except CorrelationError MessageSeriesInsertOutcome × CorrelationHub :=
  if record.closed then (.error .notFound, hub)
  else
    let (result, evidence, budget) :=
      insertion record.evidence (hub.rawEvidenceBudget record.mode)
    (result, (hub.setRawEvidenceBudget record.mode budget).setRecord i
      { record with evidence := evidence })

/-- `insert_message`. -/
def insertMessage (hub : CorrelationHub) (i : Nat) (record : CorrelationRecord)
    (message : ObservedMessageNode) :
    Except CorrelationError MessageSeriesInsertOutcome × CorrelationHub :=
  hub.insertInto i record fun evidence budget => evidence.insertMessageEvidence budget message

/-- `insert_command_outcome`. -/
def insertCommandOutcome (hub : CorrelationHub) (i : Nat) (record : CorrelationRecord)
    (outcome : ObservedCommandOutcome) :
    Except CorrelationError MessageSeriesInsertOutcome × CorrelationHub :=
  hub.insertInto i record fun evidence budget =>
    evidence.insertCommandOutcomeEvidence budget outcome

end CorrelationHub

namespace CorrelationRecord

/-- `retain_observation_failure`. -/
def retainObservationFailure (record : CorrelationRecord)
    (failure : CorrelationObservationFailure) : Except CorrelationError CorrelationRecord := do
  rejectIf record.closed .notFound
  let failure :=
    match record.evidence.failure with
    | some retained => { retained with count := saturatingAdd retained.count 1 }
    | none => failure
  return { record with evidence := { record.evidence with
    failure := some failure
    revision := saturatingAdd record.evidence.revision 1 } }

/-- `subscribe_evidence`. -/
def subscribeEvidence (record : CorrelationRecord) : Except CorrelationError CorrelationRecord := do
  rejectIf record.closed .notFound
  return { record with subscribers := record.subscribers + 1 }

/-- A subscription of the record is dropped. -/
def unsubscribe (record : CorrelationRecord) : CorrelationRecord :=
  { record with subscribers := record.subscribers - 1 }

end CorrelationRecord

/-! ## The system -/

/-- The hub, the records of the subscriptions that there are, and the records that
`retain_dispatch_correlations` has removed and has not closed yet. -/
structure Correlations where
  hub : CorrelationHub
  subscriptions : List Nat
  closing : List Nat

inductive HubStep where
  | register (correlationId : String) (mode : OperationMode) (operationId context command : String)
      (schemaVersion : UInt32)
  | insertMessage (record : Nat) (message : ObservedMessageNode)
  | insertCommandOutcome (record : Nat) (outcome : ObservedCommandOutcome)
  | retainObservationFailure (record : Nat) (failure : CorrelationObservationFailure)
  | append (record : Nat) (kind : CorrelationEventKind)
  | subscribe (record after : Nat)
  | subscribeEvidence (record : Nat)
  | unsubscribe (record : Nat)
  | removeIfInactive (correlationId : String)
  | retainDispatchCorrelations
  /-- One of the records that `retain_dispatch_correlations` has removed. -/
  | close (record : Nat)
  /-- A record that nothing refers to any more. -/
  | drop (record : Nat)

namespace Correlations

def new (maximumCorrelations : Nat) : Correlations := ⟨.new maximumCorrelations, [], []⟩

/-- A subscription has the record, or the table, or the call that is about to close it. -/
def Shared (s : Correlations) (i : Nat) : Prop :=
  i ∈ s.subscriptions ∨ i ∈ s.closing ∨ i ∈ s.hub.table.records.entries.map (·.2)
deriving Decidable

/-- The section of a call on a record that gives a result and a record, and that adds one
subscription. -/
def subscribeWith (s : Correlations) (i : Nat)
    (subscribe : CorrelationRecord → Except CorrelationError CorrelationRecord) :
    Option Correlations :=
  (s.hub.arena.get? i).map fun record =>
    match subscribe record with
    | .ok record => { s with hub := s.hub.setRecord i record, subscriptions := i :: s.subscriptions }
    | .error _ => s

variable [Crates]

def apply (s : Correlations) : HubStep → Option Correlations
  | .register correlationId mode operationId context command schemaVersion =>
    match s.hub.registerCommand correlationId mode operationId context command schemaVersion with
    | .ok hub => some { s with hub := hub }
    | .error _ => some s
  | .insertMessage i message => (s.hub.arena.get? i).map fun record =>
      { s with hub := (s.hub.insertMessage i record message).2 }
  | .insertCommandOutcome i outcome => (s.hub.arena.get? i).map fun record =>
      { s with hub := (s.hub.insertCommandOutcome i record outcome).2 }
  | .retainObservationFailure i failure => (s.hub.arena.get? i).map fun record =>
      match record.retainObservationFailure failure with
      | .ok record => { s with hub := s.hub.setRecord i record }
      | .error _ => s
  | .append i kind => (s.hub.arena.get? i).map fun record =>
      { s with hub := s.hub.setRecord i (record.append kind).2 }
  | .subscribe i after => s.subscribeWith i fun record => record.subscribe after
  | .subscribeEvidence i => s.subscribeWith i fun record => record.subscribeEvidence
  | .unsubscribe i =>
    if i ∈ s.subscriptions then
      (s.hub.arena.get? i).map fun record =>
        { s with
          hub := s.hub.setRecord i record.unsubscribe, subscriptions := s.subscriptions.erase i }
    else none
  | .removeIfInactive correlationId =>
    some { s with hub := (s.hub.removeIfInactive correlationId).2 }
  | .retainDispatchCorrelations =>
    let (removed, hub) := s.hub.retainDispatchCorrelations
    some { s with hub := hub, closing := removed ++ s.closing }
  | .close i =>
    if i ∈ s.closing then
      (s.hub.arena.get? i).map fun record =>
        { s with hub := s.hub.closeLocked i record, closing := s.closing.erase i }
    else none
  | .drop i =>
    if s.Shared i then none
    else (s.hub.arena.get? i).map fun record => { s with hub := s.hub.dropRecord i record }

def machine (maximumCorrelations : Nat) : Machine Correlations HubStep where
  start s := s = new maximumCorrelations
  step s label s' := s.apply label = some s'

end Correlations

end Rostfrei.Tracer
