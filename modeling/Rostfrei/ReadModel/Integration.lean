import Rostfrei.Messaging.Envelope
import Rostfrei.ReadModel.Runtime

/-!
# Integration events of a read model

`integration.rs`: a handler for one type of integration event, its `bind`, and what it does with a
delivery. Each handler reads the version of an event by its order:

* broker order: the sequence of the broker, which counts for all broker-ordered handlers;
* consecutive: a business version, which must be the next one of its source;
* latest: a business version, which may leave versions out.

A version that is not above the recorded position changes nothing, by the common loop.
-/

namespace Rostfrei.ReadModel

open Lib Messaging

/-- The order of an event type, with the business version of an event. -/
inductive Ordering (E : Type) where
  | broker
  | consecutive (position : E → UInt64)
  | latest (position : E → UInt64)

structure IntegrationEventOrder (E : Type) where
  source : String
  ordering : Ordering E

/-- `is_broker_ordered`. -/
def IntegrationEventOrder.isBrokerOrdered {E : Type} (order : IntegrationEventOrder E) : Bool :=
  match order.ordering with
  | .broker => true
  | _ => false

/-- What an application registers for one type of integration event. -/
structure IntegrationInput (M : Type) where
  Event : Type
  /-- The `serde` forms of the event type. -/
  encode : Event → Json
  decode : Json → Option Event
  eventName : String
  schemaVersion : UInt32
  /-- The context that publishes the event. -/
  context : BoundedContext
  order : IntegrationEventOrder Event
  key : Event → String
  change : M → Event → Except ReadModelProcessingError M

structure IntegrationHandler (M : Type) where
  Event : Type
  encode : Event → Json
  decode : Json → Option Event
  schemaVersion : UInt32
  address : IntegrationEventAddress
  source : SourceName
  ordering : Ordering Event
  key : Event → String
  change : M → Event → Except ReadModelProcessingError M

/-- A delivered message. -/
structure MessageDelivery where
  address : IntegrationEventAddress
  messageId : MessageId
  sourceSequence : UInt64
  payload : Bytes

variable {M : Type} [Crates]

/-- The position key of the broker that feeds the models of an application. -/
def brokerSource (application : ApplicationName) : SourceName :=
  toVec (.arr [.str "integration-broker", .str application.value])

/-- The position key of a business source of a context. -/
def businessSource (context : BoundedContextName) (source : String) : SourceName :=
  toVec (.arr [.str "integration", .str context.value, .str source])

/-- `IntegrationHandler::bind`, for a model of `context`. The retry delay and the quarantine reasons
are constants, which their constructors accept. -/
def bind (context : BoundedContext) (input : IntegrationInput M) :
    Except ReadModelProcessingError (IntegrationHandler M) :=
  match input.context.integrationEventAddress input.eventName with
  | .error e => .error (.configuration e.toString)
  | .ok address => .ok {
      Event := input.Event
      encode := input.encode
      decode := input.decode
      schemaVersion := input.schemaVersion
      address := address
      source :=
        if input.order.isBrokerOrdered then brokerSource context.application
        else businessSource input.context.name input.order.source
      ordering := input.order.ordering
      key := input.key
      change := input.change }

namespace IntegrationHandler

/-- What is read from a delivery before the store is: the key, the event and its version. -/
def prepare (h : IntegrationHandler M) (delivery : MessageDelivery) :
    Except ReadModelProcessingError (ReadModelKey × h.Event × Nat) := do
  let envelope ← okOr (ReadModelProcessingError.invalidEvent "malformed integration envelope")
    ((fromSlice delivery.payload).bind (IntegrationEventEnvelope.ofJson? h.encode h.decode))
  rejectIf
    (delivery.address ≠ h.address ∨ envelope.schemaVersion.get ≠ h.schemaVersion ∨
      envelope.messageId ≠ delivery.messageId)
    (.invalidEvent "integration address, schema or identity mismatch")
  let event := envelope.payload
  let key ← (CheckedString.new (h.key event)).mapError fun (e : ReadModelError) =>
    ReadModelProcessingError.invalidEvent e.toString
  let version :=
    match h.ordering with
    | .broker => delivery.sourceSequence
    | .consecutive position => position event
    | .latest position => position event
  return (key, event, version.toNat)

omit [Crates] in
/-- The order asks for the next version. -/
def isConsecutive (h : IntegrationHandler M) : Bool :=
  match h.ordering with
  | .consecutive _ => true
  | _ => false

omit [Crates] in
/-- `IntegrationMutation::apply`. -/
def mutation (h : IntegrationHandler M) (event : h.Event) (version : Nat) (model : M)
    (applied : Nat) : Delivery M M := do
  if h.isConsecutive ∧ checkedAdd applied 1 ≠ some version then
    throw (.sourceGap (saturatingAdd applied 1) version)
  liftM (h.change model event)

/-- `IntegrationHandler::process`. -/
def process [Inhabited M] (session : Session M) (h : IntegrationHandler M)
    (delivery : MessageDelivery) : Delivery M Unit := do
  let (key, event, version) ← liftM (h.prepare delivery)
  mutate session key h.source version (h.mutation event version)

end IntegrationHandler

inductive DeliveryDisposition where
  | acknowledge
  | retryAfter (milliseconds : Nat)
  | quarantine (reason : String)
deriving DecidableEq, Repr

omit [Crates] in
/-- `handle`: what becomes of the message. -/
def disposition : Except ReadModelProcessingError Unit → DeliveryDisposition
  | .ok () => .acknowledge
  | .error error =>
    if error.isRetryable then .retryAfter 100
    else
      match error with
      | .invalidEvent _ => .quarantine "invalid read-model integration event"
      | _ => .quarantine
        "read model not materialized; repair the cause, then replay or refresh its source"

end Rostfrei.ReadModel
