import Rostfrei.Lib.JsonRead
import Rostfrei.Tracer.Ordered

/-!
# The `serde` form of a series

A series is written as its messages and its outcomes; its counter is not written.
`ObservedMessageSeries::deserialize` checks the two lists on its own terms: identities that differ,
numbers that are all there, and numbers that increase in each list.

The decoder of `CommandResponseOutcome` is an argument.
-/

namespace Rostfrei.Tracer

open Lib Messaging

/-! ## Fields -/

/-- `deserialize_observed_identifier`. -/
def deserializeObservedIdentifier (j : Json) : Option String :=
  j.str?.filter isValidObservedIdentifier

/-- `deserialize_nonempty_observed_name`, and `deserialize_nonempty` of `behavioral.rs`. -/
def deserializeNonemptyObservedName (j : Json) : Option String := j.str?.filter (!isBlank ·)

/-- `deserialize_positive_observed_schema_version`. -/
def deserializePositiveObservedSchemaVersion (j : Json) : Option UInt32 := j.uint32?.filter (· ≠ 0)

def MessageKind.deserialize (j : Json) : Option MessageKind :=
  j.str?.bind fun name => [command, domainEvent, integrationEvent].find? (·.name = name)

def TestAggregate.toJson (a : TestAggregate) : Json :=
  .obj [("type", .str a.aggregateType), ("id", .str a.id)]

def TestAggregate.deserialize (j : Json) : Option TestAggregate := do
  let fields ← j.record? ["type", "id"]
  let aggregateType ← Json.required fields "type" deserializeNonemptyObservedName
  let id ← Json.required fields "id" deserializeNonemptyObservedName
  return ⟨aggregateType, id⟩

/-! ## Observations -/

/-- The fields that a message of a kind may have. -/
def knownFields : MessageKind → List String
  | .command => ["kind", "messageId", "correlationId", "causationId", "observationOrder", "name",
    "schemaVersion", "context", "payload"]
  | .domainEvent => ["kind", "messageId", "correlationId", "causationId", "observationOrder",
    "name", "schemaVersion", "aggregate", "payload"]
  | .integrationEvent => ["kind", "messageId", "correlationId", "causationId", "observationOrder",
    "name", "schemaVersion", "payload"]

/-- The kind is a field of the object itself (`tag = "kind"`). -/
def ObservedMessageNode.deserialize (j : Json) : Option ObservedMessageNode := do
  let fields ← j.object?
  let kind ← Json.required fields "kind" MessageKind.deserialize
  let fields ← j.struct? (knownFields kind)
  let messageId ← Json.required fields "messageId" deserializeObservedIdentifier
  let correlationId ← Json.required fields "correlationId" deserializeObservedIdentifier
  let causationId ← Json.optional fields "causationId" deserializeObservedIdentifier
  let order ← Json.required fields "observationOrder" (Json.uint? (2 ^ 64))
  let name ← Json.required fields "name" deserializeNonemptyObservedName
  let version ← Json.required fields "schemaVersion" deserializePositiveObservedSchemaVersion
  let payload ← Json.present fields "payload" some
  match kind with
  | .command =>
    let context ← Json.required fields "context" Json.str?
    return .command messageId correlationId causationId order name version context payload
  | .domainEvent =>
    let aggregate ← Json.optional fields "aggregate" TestAggregate.deserialize
    return .domainEvent messageId correlationId causationId order name version aggregate payload
  | .integrationEvent =>
    return .integrationEvent messageId correlationId causationId order name version payload

namespace ObservedCommandOutcome

/-- The `serde` form, around that of the outcome. -/
def toJsonWith (o : ObservedCommandOutcome) (outcome : Json) : Json :=
  .obj [("responseMessageId", .str o.responseMessageId),
    ("commandMessageId", .str o.commandMessageId), ("correlationId", .str o.correlationId),
    ("observationOrder", .num o.observationOrder), ("outcome", outcome)]

def deserialize (decodeOutcome : Json → Option CommandResponseOutcome) (j : Json) :
    Option ObservedCommandOutcome := do
  let fields ← j.record? ["responseMessageId", "commandMessageId", "correlationId",
    "observationOrder", "outcome"]
  let responseMessageId ← Json.required fields "responseMessageId" deserializeObservedIdentifier
  let commandMessageId ← Json.required fields "commandMessageId" deserializeObservedIdentifier
  let correlationId ← Json.required fields "correlationId" deserializeObservedIdentifier
  let order ← Json.required fields "observationOrder" (Json.uint? (2 ^ 64))
  let outcome ← Json.required fields "outcome" decodeOutcome
  return ⟨responseMessageId, commandMessageId, correlationId, order, outcome⟩

end ObservedCommandOutcome

/-! ## Series -/

/-- Why a document is refused: its form, or the series that it is read as. -/
inductive SeriesDecodeError where
  | malformed
  | series (error : ObservedMessageSeriesError)
deriving DecidableEq, Repr

/-- `orders_increase`. -/
def ordersIncrease (orders : List Nat) : Bool :=
  (orders.foldl (fun (state : Bool × Option Nat) order =>
    (state.1 && !state.2.any (· ≥ order), some order)) (true, none)).1

/-- Outcomes of which no two share their command or their response. -/
abbrev DistinctOutcomes := { outcomes : List ObservedCommandOutcome //
  (outcomes.map (·.commandMessageId)).Nodup ∧ (outcomes.map (·.responseMessageId)).Nodup }

/-- One turn over the messages of `try_from_serialized_parts`. -/
def checkSerializedMessage (ids : List String) (message : ObservedMessageNode) :
    Except ObservedMessageSeriesError (List String) := do
  validateObservedMessage message
  rejectIf (message.messageId ∈ ids) .duplicateSerializedMessage
  return message.messageId :: ids

/-- One turn over the outcomes. -/
def pushSerializedOutcome (outcomes : DistinctOutcomes) (outcome : ObservedCommandOutcome) :
    Except ObservedMessageSeriesError DistinctOutcomes := do
  validateObservedOutcome outcome
  match h : outcomes.1.find? fun existing =>
      existing.commandMessageId = outcome.commandMessageId ||
        existing.responseMessageId = outcome.responseMessageId with
  | some existing =>
    if existing.sameObservation outcome then throw .duplicateSerializedOutcome
    else throw .outcomeIdentityConflict
  | none => return ⟨outcomes.1 ++ [outcome], by
      have hnew : ∀ o ∈ outcomes.1, o.commandMessageId ≠ outcome.commandMessageId ∧
          o.responseMessageId ≠ outcome.responseMessageId := by
        simpa [List.find?_eq_none] using h
      simp only [List.map_append, List.map_singleton, List.nodup_append, List.nodup_singleton,
        List.mem_singleton, List.mem_map, true_and]
      refine ⟨⟨outcomes.2.1, ?_⟩, outcomes.2.2, ?_⟩
      · rintro _ ⟨o, ho, rfl⟩ _ rfl
        exact (hnew o ho).1
      · rintro _ ⟨o, ho, rfl⟩ _ rfl
        exact (hnew o ho).2⟩

namespace ObservedMessageSeries

/-- `try_from_serialized_parts`. -/
def tryFromSerializedParts (messages : List ObservedMessageNode)
    (commandOutcomes : List ObservedCommandOutcome) :
    Except ObservedMessageSeriesError ObservedMessageSeries := do
  let _ ← messages.foldlM checkSerializedMessage []
  let messages ← (MessageSeries.tryFromNodes messages).mapError .messageSeries
  let outcomes ← commandOutcomes.foldlM pushSerializedOutcome ⟨[], by simp⟩
  let total ← okOr ObservedMessageSeriesError.observationOrderOverflow
    (checkedAdd messages.nodes.length outcomes.1.length)
  let orders := messages.nodes.map (·.observationOrder) ++ outcomes.1.map (·.observationOrder)
  rejectIf (orders.dedup.length ≠ total ∨ ∃ order ∈ orders, order ≥ total) .invalidObservationOrder
  rejectIf (¬ ordersIncrease (messages.nodes.map (·.observationOrder)) ∨
    ¬ ordersIncrease (outcomes.1.map (·.observationOrder))) .invalidObservationOrder
  return ⟨messages, outcomes.1, total, outcomes.2.1, outcomes.2.2⟩

/-- The document of a series, with the documents of its outcomes. -/
def toJsonWith (s : ObservedMessageSeries) (outcomes : List Json) : Json :=
  .obj [("messages", .arr (s.messages.nodes.map ObservedMessageNode.toJson)),
    ("commandOutcomes", .arr (List.zipWith ObservedCommandOutcome.toJsonWith s.commandOutcomes
      outcomes))]

/-- The `serde` form. -/
def toJson (s : ObservedMessageSeries) : Json :=
  s.toJsonWith (s.commandOutcomes.map fun o => o.outcome.toJson)

/-- `ObservedMessageSeriesWire`: the two lists of a document. -/
def wire (decodeOutcome : Json → Option CommandResponseOutcome) (j : Json) :
    Option (List ObservedMessageNode × List ObservedCommandOutcome) := do
  let fields ← j.record? ["messages", "commandOutcomes"]
  let messages ← Json.required fields "messages" (Json.array? ObservedMessageNode.deserialize)
  let outcomes ← Json.required fields "commandOutcomes"
    (Json.array? (ObservedCommandOutcome.deserialize decodeOutcome))
  return (messages, outcomes)

/-- `ObservedMessageSeries::deserialize`. -/
def deserialize (decodeOutcome : Json → Option CommandResponseOutcome) (j : Json) :
    Except SeriesDecodeError ObservedMessageSeries := do
  let (messages, outcomes) ← okOr SeriesDecodeError.malformed (wire decodeOutcome j)
  rejectIf (messages.length > maxMessageSeriesNodes) (.series .tooManyMessages)
  rejectIf (outcomes.length > maxMessageSeriesNodes) (.series .tooManyOutcomes)
  (tryFromSerializedParts messages outcomes).mapError .series

end ObservedMessageSeries

end Rostfrei.Tracer
