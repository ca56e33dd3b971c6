import Rostfrei.Messaging.Response
import Rostfrei.Tracer.Definition

/-!
# Observed message series

The observations of `message_series.rs` of `rostfrei-tracer`: messages and the outcomes of commands,
each with the number of its observation. An outcome arrives on its own and names its command.

`insertMessage` and `insertCommandOutcome` build a series; no two outcomes of a series are of one
command or have one response identity.
-/

namespace Rostfrei.Tracer

open Lib Messaging

/-! ## Numbers -/

/-- `u64::MAX`, which is also `usize::MAX`. -/
def counterMax : Nat := 2 ^ 64 - 1

/-- `saturating_add`. -/
def saturatingAdd (a b : Nat) : Nat := min (a + b) counterMax

/-! ## Observations -/

structure TestAggregate where
  aggregateType : String
  id : String
deriving DecidableEq, Repr

inductive ObservedMessageNode where
  | command (messageId correlationId : String) (causationId : Option String)
      (observationOrder : Nat) (name : String) (schemaVersion : UInt32) (context : String)
      (payload : Option Json)
  | domainEvent (messageId correlationId : String) (causationId : Option String)
      (observationOrder : Nat) (name : String) (schemaVersion : UInt32)
      (aggregate : Option TestAggregate) (payload : Option Json)
  | integrationEvent (messageId correlationId : String) (causationId : Option String)
      (observationOrder : Nat) (name : String) (schemaVersion : UInt32) (payload : Option Json)
deriving DecidableEq

namespace ObservedMessageNode

def messageId : ObservedMessageNode → String
  | command id .. | domainEvent id .. | integrationEvent id .. => id

def correlationId : ObservedMessageNode → String
  | command _ id .. | domainEvent _ id .. | integrationEvent _ id .. => id

def causationId : ObservedMessageNode → Option String
  | command _ _ id .. | domainEvent _ _ id .. | integrationEvent _ _ id .. => id

def observationOrder : ObservedMessageNode → Nat
  | command _ _ _ order .. | domainEvent _ _ _ order .. | integrationEvent _ _ _ order .. => order

def kind : ObservedMessageNode → MessageKind
  | command .. => .command
  | domainEvent .. => .domainEvent
  | integrationEvent .. => .integrationEvent

def name : ObservedMessageNode → String
  | command _ _ _ _ name .. | domainEvent _ _ _ _ name .. | integrationEvent _ _ _ _ name .. => name

def schemaVersion : ObservedMessageNode → UInt32
  | command _ _ _ _ _ version .. | domainEvent _ _ _ _ _ version ..
  | integrationEvent _ _ _ _ _ version _ => version

def context : ObservedMessageNode → Option String
  | command _ _ _ _ _ _ context _ => some context
  | domainEvent .. | integrationEvent .. => none

def aggregate : ObservedMessageNode → Option TestAggregate
  | domainEvent _ _ _ _ _ _ aggregate _ => aggregate
  | command .. | integrationEvent .. => none

def payload : ObservedMessageNode → Option Json
  | command _ _ _ _ _ _ _ payload | domainEvent _ _ _ _ _ _ _ payload
  | integrationEvent _ _ _ _ _ _ payload => payload

/-- `set_observation_order`. -/
def setObservationOrder (order : Nat) : ObservedMessageNode → ObservedMessageNode
  | command id correlation causation _ name version context payload =>
    command id correlation causation order name version context payload
  | domainEvent id correlation causation _ name version aggregate payload =>
    domainEvent id correlation causation order name version aggregate payload
  | integrationEvent id correlation causation _ name version payload =>
    integrationEvent id correlation causation order name version payload

/-- `same_observation`. -/
def sameObservation (left right : ObservedMessageNode) : Bool :=
  left.setObservationOrder 0 = right.setObservationOrder 0

/-- The `serde` form. -/
def toJson (node : ObservedMessageNode) : Json :=
  .obj (Json.sparse
    [("kind", some (.str node.kind.name)),
      ("messageId", some (.str node.messageId)),
      ("correlationId", some (.str node.correlationId)),
      ("causationId", node.causationId.map .str),
      ("observationOrder", some (.num node.observationOrder)),
      ("name", some (.str node.name)),
      ("schemaVersion", some (.num node.schemaVersion.toNat)),
      ("context", node.context.map .str),
      ("aggregate", node.aggregate.map fun a =>
        .obj [("type", .str a.aggregateType), ("id", .str a.id)]),
      ("payload", node.payload)])

end ObservedMessageNode

instance : MessageSeriesNode ObservedMessageNode where
  Correlation := String
  decEqCorrelation := inferInstance
  messageId := ObservedMessageNode.messageId
  correlationId := ObservedMessageNode.correlationId
  causationId := ObservedMessageNode.causationId

structure ObservedCommandOutcome where
  responseMessageId : String
  commandMessageId : String
  correlationId : String
  observationOrder : Nat
  outcome : CommandResponseOutcome
deriving DecidableEq

namespace ObservedCommandOutcome

def setObservationOrder (order : Nat) (o : ObservedCommandOutcome) : ObservedCommandOutcome :=
  { o with observationOrder := order }

/-- `same_observation`. -/
def sameObservation (left right : ObservedCommandOutcome) : Bool :=
  left.responseMessageId = right.responseMessageId ∧
    left.commandMessageId = right.commandMessageId ∧ left.correlationId = right.correlationId ∧
    left.outcome = right.outcome

end ObservedCommandOutcome

/-! ## Validation -/

inductive ObservedMessageSeriesError where
  | invalidMessage (field : String)
  | invalidOutcome (field : String)
  | messageSeries (error : ContractError)
  | outcomeIdentityConflict
  | duplicateSerializedMessage
  | duplicateSerializedOutcome
  | tooManyMessages
  | tooManyOutcomes
  | invalidObservationOrder
  | observationOrderOverflow
deriving DecidableEq, Repr

/-- `is_valid_observed_identifier`. -/
def isValidObservedIdentifier (value : String) : Bool :=
  value ≠ "" ∧ strLen value ≤ maxIdentifierBytes ∧ value.toList.all isAsciiGraphic

/-- `validate_observed_message`. -/
def validateObservedMessage (message : ObservedMessageNode) :
    Except ObservedMessageSeriesError Unit := do
  rejectIf (¬ isValidObservedIdentifier message.messageId) (.invalidMessage "messageId")
  rejectIf (¬ isValidObservedIdentifier message.correlationId) (.invalidMessage "correlationId")
  rejectIf (message.causationId.any fun id => !isValidObservedIdentifier id)
    (.invalidMessage "causationId")
  rejectIf (isBlank message.name) (.invalidMessage "name")
  rejectIf (message.schemaVersion = 0) (.invalidMessage "schemaVersion")
  rejectIf (message.context.any isBlank) (.invalidMessage "name")
  rejectIf (message.aggregate.any fun a => isBlank a.aggregateType) (.invalidMessage "aggregate.type")
  rejectIf (message.aggregate.any fun a => isBlank a.id) (.invalidMessage "aggregate.id")

namespace ObservedMessageNode

variable (message : ObservedMessageNode) (order : Nat)

@[simp] theorem observationOrder_setObservationOrder :
    (message.setObservationOrder order).observationOrder = order := by
  cases message <;> rfl

@[simp] theorem name_setObservationOrder :
    (message.setObservationOrder order).name = message.name := by
  cases message <;> rfl

theorem validate_setObservationOrder :
    validateObservedMessage (message.setObservationOrder order) =
      validateObservedMessage message := by
  cases message <;> rfl

theorem sameObservation_setObservationOrder :
    (message.setObservationOrder order).sameObservation message = true := by
  cases message <;> simp [sameObservation, setObservationOrder]

theorem setObservationOrder_self :
    message.setObservationOrder message.observationOrder = message := by
  cases message <;> rfl

end ObservedMessageNode

/-- `validate_observed_outcome`. -/
def validateObservedOutcome (outcome : ObservedCommandOutcome) :
    Except ObservedMessageSeriesError Unit := do
  rejectIf (¬ isValidObservedIdentifier outcome.responseMessageId)
    (.invalidOutcome "responseMessageId")
  rejectIf (¬ isValidObservedIdentifier outcome.commandMessageId)
    (.invalidOutcome "commandMessageId")
  rejectIf (¬ isValidObservedIdentifier outcome.correlationId) (.invalidOutcome "correlationId")

/-! ## Series -/

structure ObservedMessageSeries where
  messages : MessageSeries ObservedMessageNode
  commandOutcomes : List ObservedCommandOutcome
  nextObservationOrder : Nat
  commands_nodup : (commandOutcomes.map (·.commandMessageId)).Nodup
  responses_nodup : (commandOutcomes.map (·.responseMessageId)).Nodup

inductive ObservedMessageSeriesOutcomeIssue where
  | missingCommand (outcome : ObservedCommandOutcome)
  | notACommand (outcome : ObservedCommandOutcome) (message : ObservedMessageNode)
  | crossCorrelation (outcome : ObservedCommandOutcome) (message : ObservedMessageNode)

namespace ObservedMessageSeries

/-- `ObservedMessageSeries::new`. -/
def empty : ObservedMessageSeries := ⟨.empty, [], 0, by simp, by simp⟩

/-- `insert_message`. -/
def insertMessage (s : ObservedMessageSeries) (message : ObservedMessageNode) :
    Except ObservedMessageSeriesError (MessageSeriesInsertOutcome × ObservedMessageSeries) := do
  validateObservedMessage message
  match s.messages.get message.messageId with
  | some existing =>
    if existing.sameObservation message then return (.duplicate, s)
    else
      let (outcome, messages) ← (s.messages.insert message).mapError .messageSeries
      return (outcome, { s with messages := messages })
  | none =>
    let (outcome, messages) ← (s.messages.insert
      (message.setObservationOrder s.nextObservationOrder)).mapError .messageSeries
    let next ← okOr ObservedMessageSeriesError.observationOrderOverflow
      (checkedAdd s.nextObservationOrder 1)
    return (outcome, { s with messages := messages, nextObservationOrder := next })

/-- The new outcome of `insert_command_outcome`, of a command and a response without one. -/
def pushOutcome (s : ObservedMessageSeries) (outcome : ObservedCommandOutcome) (next : Nat)
    (hcommand : ∀ o ∈ s.commandOutcomes, o.commandMessageId ≠ outcome.commandMessageId)
    (hresponse : ∀ o ∈ s.commandOutcomes, o.responseMessageId ≠ outcome.responseMessageId) :
    ObservedMessageSeries :=
  { s with
    commandOutcomes := s.commandOutcomes ++ [outcome.setObservationOrder s.nextObservationOrder]
    nextObservationOrder := next
    commands_nodup := by
      rw [List.map_append, List.nodup_append]
      refine ⟨s.commands_nodup, by simp, fun a ha b hb => ?_⟩
      obtain ⟨o, ho, rfl⟩ := List.mem_map.mp ha
      obtain rfl : b = outcome.commandMessageId := by
        simpa [ObservedCommandOutcome.setObservationOrder] using hb
      exact hcommand o ho
    responses_nodup := by
      rw [List.map_append, List.nodup_append]
      refine ⟨s.responses_nodup, by simp, fun a ha b hb => ?_⟩
      obtain ⟨o, ho, rfl⟩ := List.mem_map.mp ha
      obtain rfl : b = outcome.responseMessageId := by
        simpa [ObservedCommandOutcome.setObservationOrder] using hb
      exact hresponse o ho }

/-- `insert_command_outcome`. -/
def insertCommandOutcome (s : ObservedMessageSeries) (outcome : ObservedCommandOutcome) :
    Except ObservedMessageSeriesError (MessageSeriesInsertOutcome × ObservedMessageSeries) := do
  validateObservedOutcome outcome
  match s.commandOutcomes.find? (·.commandMessageId = outcome.commandMessageId) with
  | some existing =>
    if existing.sameObservation outcome then return (.duplicate, s)
    else throw .outcomeIdentityConflict
  | none =>
    -- the code has found no outcome of the command, so the first condition holds
    if h : (∀ o ∈ s.commandOutcomes, o.commandMessageId ≠ outcome.commandMessageId) ∧
        ∀ o ∈ s.commandOutcomes, o.responseMessageId ≠ outcome.responseMessageId then
      rejectIf (s.commandOutcomes.length = maxMessageSeriesNodes) .tooManyOutcomes
      let next ← okOr ObservedMessageSeriesError.observationOrderOverflow
        (checkedAdd s.nextObservationOrder 1)
      return (.inserted, s.pushOutcome outcome next h.1 h.2)
    else throw .outcomeIdentityConflict

/-- `command_outcome`. -/
def commandOutcome (s : ObservedMessageSeries) (commandMessageId : String) :
    Option ObservedCommandOutcome :=
  s.commandOutcomes.find? (·.commandMessageId = commandMessageId)

/-- What is wrong with an outcome. -/
def outcomeIssue (s : ObservedMessageSeries) (outcome : ObservedCommandOutcome) :
    Option ObservedMessageSeriesOutcomeIssue :=
  match s.messages.get outcome.commandMessageId with
  | none => some (.missingCommand outcome)
  | some message =>
    if message.kind ≠ .command then some (.notACommand outcome message)
    else if message.correlationId ≠ outcome.correlationId then
      some (.crossCorrelation outcome message)
    else none

/-- `outcome_issues`. -/
def outcomeIssues (s : ObservedMessageSeries) : List ObservedMessageSeriesOutcomeIssue :=
  s.commandOutcomes.filterMap s.outcomeIssue

/-! ## What an insertion does -/

variable {s s' : ObservedMessageSeries} {message : ObservedMessageNode}
  {outcome : MessageSeriesInsertOutcome}

/-- The message is there already, or it is added with the next number. -/
inductive InsertsMessage (s : ObservedMessageSeries) (message : ObservedMessageNode) :
    MessageSeriesInsertOutcome → ObservedMessageSeries → Prop where
  | duplicate {existing : ObservedMessageNode}
      (hget : s.messages.get message.messageId = some existing)
      (hsame : existing.sameObservation message = true) : InsertsMessage s message .duplicate s
  | inserted {s' : ObservedMessageSeries} (hget : s.messages.get message.messageId = none)
      (hroom : s.messages.nodes.length < maxMessageSeriesNodes)
      (hnodes : s'.messages.nodes =
        s.messages.nodes ++ [message.setObservationOrder s.nextObservationOrder])
      (houtcomes : s'.commandOutcomes = s.commandOutcomes)
      (hnext : s'.nextObservationOrder = s.nextObservationOrder + 1)
      (hbound : s.nextObservationOrder + 1 < 2 ^ 64) : InsertsMessage s message .inserted s'

@[simp] theorem messageId_setObservationOrder (order : Nat) :
    (message.setObservationOrder order).messageId = message.messageId := by
  cases message <;> rfl

theorem insertMessage_eq_ok (h : s.insertMessage message = .ok (outcome, s')) :
    validateObservedMessage message = .ok () ∧ InsertsMessage s message outcome s' := by
  rw [insertMessage, bind_unit_eq_ok] at h
  obtain ⟨hvalid, h⟩ := h
  refine ⟨hvalid, ?_⟩
  rcases hget : s.messages.get message.messageId with _ | existing
  · simp only [hget, bind_eq_ok, mapError_eq_ok, okOr_eq_ok, pure_eq_ok, Prod.mk.injEq] at h
    obtain ⟨⟨result, messages⟩, hinsert, next, hnext, rfl, rfl⟩ := h
    have hget' : s.messages.get
        (messageId (message.setObservationOrder s.nextObservationOrder)) = none := by
      rw [← hget]
      exact congrArg s.messages.get (messageId_setObservationOrder _)
    obtain ⟨hroom, rfl, hnodes⟩ := MessageSeries.insert_new hget' hinsert
    rw [checkedAdd_eq_some] at hnext
    exact .inserted hget (lt_of_le_of_ne s.messages.nodes_le hroom) hnodes rfl hnext.2.symm (hnext.2 ▸ hnext.1)
  · simp only [hget] at h
    split at h
    · next hsame =>
      simp only [pure_eq_ok, Prod.mk.injEq] at h
      obtain ⟨rfl, rfl⟩ := h
      exact .duplicate hget hsame
    · next hdiffer =>
      simp only [bind_eq_ok, mapError_eq_ok] at h
      obtain ⟨_, hinsert, -⟩ := h
      obtain rfl := MessageSeries.insert_existing hget hinsert
      simp [ObservedMessageNode.sameObservation] at hdiffer

/-- A valid message with a new identity is inserted where there is room. -/
theorem insertMessage_new (hvalid : validateObservedMessage message = .ok ())
    (hget : s.messages.get message.messageId = none)
    (hroom : s.messages.nodes.length ≠ maxMessageSeriesNodes)
    (hbound : s.nextObservationOrder + 1 < 2 ^ 64) :
    ∃ s', s.insertMessage message = .ok (.inserted, s') := by
  have hget' : s.messages.get
      (messageId (message.setObservationOrder s.nextObservationOrder)) = none := by
    rw [← hget]
    exact congrArg s.messages.get (messageId_setObservationOrder _)
  obtain ⟨messages, hmessages⟩ := MessageSeries.insert_new_ok hget' hroom
  have hnext : checkedAdd s.nextObservationOrder 1 = some (s.nextObservationOrder + 1) :=
    checkedAdd_eq_some.mpr ⟨hbound, rfl⟩
  refine ⟨{ s with messages := messages, nextObservationOrder := s.nextObservationOrder + 1 }, ?_⟩
  rw [insertMessage, hvalid]
  simp only [ok_bind, hget, hmessages, Except.mapError, okOr, hnext]
  rfl

/-- The outcome of the command is there already, or it is added with the next number. -/
inductive InsertsOutcome (s : ObservedMessageSeries) (o : ObservedCommandOutcome) :
    MessageSeriesInsertOutcome → ObservedMessageSeries → Prop where
  | duplicate : InsertsOutcome s o .duplicate s
  | inserted {s' : ObservedMessageSeries}
      (hroom : s.commandOutcomes.length < maxMessageSeriesNodes)
      (hmessages : s'.messages = s.messages)
      (houtcomes : s'.commandOutcomes =
        s.commandOutcomes ++ [o.setObservationOrder s.nextObservationOrder])
      (hnext : s'.nextObservationOrder = s.nextObservationOrder + 1)
      (hbound : s.nextObservationOrder + 1 < 2 ^ 64) : InsertsOutcome s o .inserted s'

theorem insertCommandOutcome_eq_ok {o : ObservedCommandOutcome}
    (h : s.insertCommandOutcome o = .ok (outcome, s'))
    (hlength : s.commandOutcomes.length ≤ maxMessageSeriesNodes) :
    validateObservedOutcome o = .ok () ∧ InsertsOutcome s o outcome s' := by
  rw [insertCommandOutcome, bind_unit_eq_ok] at h
  obtain ⟨hvalid, h⟩ := h
  refine ⟨hvalid, ?_⟩
  split at h
  · split at h
    · simp only [pure_eq_ok, Prod.mk.injEq] at h
      obtain ⟨rfl, rfl⟩ := h
      exact .duplicate
    · simp at h
  · split at h
    · simp only [rejectIf_eq_ok, bind_eq_ok, okOr_eq_ok, pure_eq_ok, Prod.mk.injEq] at h
      obtain ⟨_, hroom, next, hnext, rfl, rfl⟩ := h
      rw [checkedAdd_eq_some] at hnext
      exact .inserted (lt_of_le_of_ne hlength hroom) rfl rfl hnext.2.symm (hnext.2 ▸ hnext.1)
    · simp at h

/-- A valid outcome with a new command and a new response is inserted where there is room. -/
theorem insertCommandOutcome_new {o : ObservedCommandOutcome}
    (hvalid : validateObservedOutcome o = .ok ())
    (hcommand : ∀ existing ∈ s.commandOutcomes, existing.commandMessageId ≠ o.commandMessageId)
    (hresponse : ∀ existing ∈ s.commandOutcomes, existing.responseMessageId ≠ o.responseMessageId)
    (hroom : s.commandOutcomes.length ≠ maxMessageSeriesNodes)
    (hbound : s.nextObservationOrder + 1 < 2 ^ 64) :
    ∃ s', s.insertCommandOutcome o = .ok (.inserted, s') := by
  have hfind : s.commandOutcomes.find? (·.commandMessageId = o.commandMessageId) = none := by
    simpa [List.find?_eq_none] using hcommand
  have hnext : checkedAdd s.nextObservationOrder 1 = some (s.nextObservationOrder + 1) :=
    checkedAdd_eq_some.mpr ⟨hbound, rfl⟩
  refine ⟨s.pushOutcome o (s.nextObservationOrder + 1) hcommand hresponse, ?_⟩
  rw [insertCommandOutcome, hvalid]
  simp only [ok_bind, hfind, dif_pos (And.intro hcommand hresponse), rejectIf, if_neg hroom, okOr,
    hnext]
  rfl

end ObservedMessageSeries

end Rostfrei.Tracer
