import Rostfrei.Executor.Handling
import Rostfrei.Messaging.Envelope

/-!
# Commands on the bus

`encode_dynamic`, `EncodedCommand::from_delivery` and `validate_command` of `command_bus.rs`.

* `encodeDynamic` turns a request into a message: the command and its payload in an envelope, written
  with sorted keys. The message id is a digest of the address, the operation, the fingerprint, the
  correlation and the causation; the fingerprint is a digest of what is to be executed.
* `fromDelivery` rebuilds the encoded command from a delivered message.
* `validateCommand` recomputes both digests from the message, and derives the metadata of the
  execution.
-/

namespace Rostfrei.Runtime

open Lib Messaging

/-! ## Errors -/

inductive CommandBusErrorKind where
  | authorization
  | completedDetailsExpired
  | completedDetailsUnavailable
  | completedDetailsBlocked
  | encoding
  | payloadTooLarge
  | invalidMessage
  | timeout
  | rejected
  | unavailable
  | invalidConfiguration
  | invalidResponse
  | executionFailed
deriving DecidableEq, Repr

/-- An error of the bus, without authorization or execution failure. -/
structure CommandBusError where
  kind : CommandBusErrorKind
  message : String
deriving DecidableEq, Repr

/-- `CommandBusError::encoding`. -/
def CommandBusError.encoding (message : String) : CommandBusError := ⟨.encoding, message⟩

inductive CommandProcessorErrorKind where
  | authorization
  | identityConflict
  | completedDetailsExpired
  | completedDetailsUnavailable
  | completedDetailsBlocked
  | invalidMessage
  | unavailable
  | invalidConfiguration
  | executionFailed
deriving DecidableEq, Repr

structure CommandProcessorError where
  kind : CommandProcessorErrorKind
  message : String
deriving DecidableEq, Repr

/-- `CommandProcessorError::invalid_message`. -/
def CommandProcessorError.invalidMessage (message : String) : CommandProcessorError :=
  ⟨.invalidMessage, message⟩

/-! ## Canonical text -/

section Canonical

variable [Crates]

mutual

/-- `write_value`; `serde_json` writes scalars and keys. -/
def writeValue : Json → Bytes
  | .arr items => 0x5b :: joinComma (writeItems items) ++ [0x5d]
  | .obj fields =>
    0x7b :: joinComma ((Json.sortByKey (writeFields fields)).map fun f =>
      toVec (.str f.1) ++ 0x3a :: f.2) ++ [0x7d]
  | .null => toVec .null
  | .bool b => toVec (.bool b)
  | .num n => toVec (.num n)
  | .neg n => toVec (.neg n)
  | .str s => toVec (.str s)

def writeItems : List Json → List Bytes
  | [] => []
  | item :: items => writeValue item :: writeItems items

def writeFields : List (String × Json) → List (String × Bytes)
  | [] => []
  | (key, value) :: fields => (key, writeValue value) :: writeFields fields

end

/-- `canonical_json_bytes`. -/
def canonicalJsonBytes (value : Json) : Bytes := writeValue value

/-- `canonical_serialize`, through a tree of maps. -/
def canonicalSerialize (document : Json) : Bytes := canonicalJsonBytes document.toValue

/-- `framed_fingerprint`; the length of a part has eight bytes. -/
def framedFingerprint (parts : List Bytes) : ContentFingerprint :=
  ContentFingerprint.digest (frames parts)

end Canonical

/-! ## Routed commands -/

inductive RoutedCommandError where
  | commandName (error : ContractError)
  | schemaVersion (error : ContractError)
deriving DecidableEq, Repr

/-- The `Display` text. -/
def RoutedCommandError.toString : RoutedCommandError → String
  | commandName error => "invalid routed command name: " ++ error.toString
  | schemaVersion error => "invalid routed command schema version: " ++ error.toString

structure RoutedCommand where
  command : String
  schemaVersion : UInt32
  payload : Json
  eventsCausedByCommand : Bool

namespace RoutedCommand

/-- `RoutedCommand::new`. -/
def new (command : String) (schemaVersion : UInt32) (payload : Json) :
    Except RoutedCommandError RoutedCommand := do
  let _ ← (CommandAddress.new "rostfrei" "routed-command" command).mapError .commandName
  let _ ← (SchemaVersion.new schemaVersion).mapError .schemaVersion
  return ⟨command, schemaVersion, payload, false⟩

/-- `with_events_caused_by_command`. -/
def withEventsCausedByCommand (c : RoutedCommand) (enabled : Bool) : RoutedCommand :=
  { c with eventsCausedByCommand := enabled }

def fields (c : RoutedCommand) : List (String × Option Json) :=
  [("command", some (.str c.command)),
    ("schema_version", some (.num c.schemaVersion.toNat)),
    ("payload", some c.payload),
    ("events_caused_by_command", if c.eventsCausedByCommand then some (.bool true) else none)]

def toJson (c : RoutedCommand) : Json := .obj (Json.sparse c.fields)

def keys : List String := ["command", "schema_version", "payload", "events_caused_by_command"]

/-- The reader of `RoutedCommandWire`, whose payload is a tree of maps; then `new`. -/
def ofJson? (j : Json) : Option RoutedCommand := do
  let fields ← j.openStruct? keys
  let command ← Json.required fields "command" Json.str?
  let schemaVersion ← Json.required fields "schema_version" Json.uint32?
  let payload ← Json.required fields "payload" fun j => some j.toValue
  let eventsCausedByCommand ← Json.present fields "events_caused_by_command" Json.bool?
  let routed ← (new command schemaVersion payload).toOption
  return routed.withEventsCausedByCommand (eventsCausedByCommand.getD false)

end RoutedCommand

/-! ## Fingerprints and message ids -/

section Digests

variable [Crates]

/-- What `command_execution_fingerprint_with_provenance` hashes. -/
def executionParts (boundedContext : String) (command : RoutedCommand) (actor : Option ActorRef) :
    List Bytes :=
  let fields :=
    [if actor.isSome then utf8 "rostfrei:command-execution:v3"
      else utf8 "rostfrei:command-execution:v2",
      utf8 boundedContext, utf8 command.command, beBytes 4 command.schemaVersion.toNat,
      canonicalJsonBytes command.payload, [command.eventsCausedByCommand.toUInt8]]
  match actor with
  | some actor => fields ++ [utf8 actor.ns.value, utf8 actor.id.value]
  | none => fields

/-- `routed_command_execution_fingerprint`. -/
def routedCommandExecutionFingerprint (boundedContext : String) (command : RoutedCommand)
    (actor : Option ActorRef) : ContentFingerprint :=
  framedFingerprint (executionParts boundedContext command actor)

/-- What `command_message_id` hashes; a missing causation is an empty part. -/
def messageParts (address : CommandAddress) (operationId : Messaging.OperationId)
    (fingerprint : ContentFingerprint) (correlationId : CorrelationId)
    (causationId : Option CausationId) : List Bytes :=
  [utf8 "rostfrei:command-message:v1", utf8 address.value, utf8 operationId.value,
    fingerprint.toList, utf8 correlationId.value,
    match causationId with
    | some causationId => utf8 causationId.value
    | none => []]

/-- `command_message_id`. -/
def commandMessageId (address : CommandAddress) (operationId : Messaging.OperationId)
    (fingerprint : ContentFingerprint) (correlationId : CorrelationId)
    (causationId : Option CausationId) : Except CommandBusError MessageId :=
  (CheckedString.new (framedFingerprint
      (messageParts address operationId fingerprint correlationId causationId)).toHex).mapError
    fun e => .encoding e.toString

/-! ## Requests and encoded commands -/

/-- A request. Its payload is a JSON value without floating-point numbers: its objects are maps, and
its numbers are those of 64 bits. -/
structure DynamicCommandRequest where
  actor : Option ActorRef
  operationId : Rostfrei.OperationId
  command : String
  schemaVersion : UInt32
  payload : Json
  correlationId : Option CorrelationId
  causationId : Option CausationId
  createdAt : Option MessageTimestamp
  eventsCausedByCommand : Bool
  payload_distinct : payload.Distinct
  payload_fits : ∃ depth, payload.Fits depth

structure EncodedCommand where
  actor : Option ActorRef
  message : OutboundMessage
  operationId : Messaging.OperationId
  correlationId : CorrelationId
  fingerprint : ContentFingerprint
deriving DecidableEq

/-- The bus of one bounded context; of its adapter, only the limit on payloads matters here. -/
structure CommandBus where
  context : BoundedContext
  maximumPayloadLen : Nat

/-- `current_timestamp`, at a reading of the system clock in milliseconds of the Unix epoch. -/
def currentTimestamp (clock : Int) : Except CommandBusError MessageTimestamp := do
  rejectIf (clock < 0) (.encoding "system clock is before the Unix epoch")
  rejectIf (clock.toNat ≥ 2 ^ 64)
    (.encoding "system clock is outside the message timestamp range")
  (MessageTimestamp.fromUnixMilliseconds clock.toNat).mapError fun e => .encoding e.toString

/-- The creation time of a request, by default the current time. -/
def DynamicCommandRequest.timestamp (request : DynamicCommandRequest) (clock : Int) :
    Except CommandBusError MessageTimestamp :=
  match request.createdAt with
  | some createdAt => .ok createdAt
  | none => currentTimestamp clock

/-- `command_message_build_error`. -/
def commandMessageBuildError (error : MessageBuildError) : CommandBusError :=
  ⟨if error.kind = .payloadTooLarge then .payloadTooLarge else .encoding, error.toString⟩

/-- `CommandBus::encode_dynamic`. -/
def CommandBus.encodeDynamic (bus : CommandBus) (clock : Int) (request : DynamicCommandRequest) :
    Except CommandBusError EncodedCommand := do
  let address ← (bus.context.commandAddress request.command).mapError fun e => .encoding e.toString
  let operationId : Messaging.OperationId ←
    (CheckedString.new request.operationId.value).mapError fun e => .encoding e.toString
  let createdAt ← request.timestamp clock
  let routed ← (RoutedCommand.new request.command request.schemaVersion request.payload).mapError
    fun e => .encoding e.toString
  let routed := routed.withEventsCausedByCommand request.eventsCausedByCommand
  let fingerprint :=
    routedCommandExecutionFingerprint bus.context.name.value routed request.actor
  -- only the correlation of this metadata is used
  let metadata : CommandExecutionMetadata :=
    ⟨none, none, none, none, request.operationId, fingerprint, request.correlationId, none⟩
  let correlationId ← metadata.effectiveCorrelationId.mapError fun e => .encoding e.toString
  let messageId ←
    commandMessageId address operationId fingerprint correlationId request.causationId
  let schemaVersion ← (SchemaVersion.new routed.schemaVersion).mapError fun e =>
    .encoding e.toString
  let envelope ← (CommandEnvelope.build RoutedCommand.toJson
    ⟨messageId, schemaVersion, correlationId, request.causationId⟩ operationId createdAt routed
    request.actor).mapError commandMessageBuildError
  let payload := canonicalSerialize (envelope.toJson RoutedCommand.toJson)
  rejectIf (payload.length > bus.maximumPayloadLen)
    ⟨.payloadTooLarge, "command payload exceeds its " ++ toString bus.maximumPayloadLen ++
      "-byte adapter limit"⟩
  let message ← (OutboundMessage.new address messageId payload).mapError fun e =>
    .encoding e.toString
  return ⟨request.actor, { message with correlationId := some correlationId }, operationId,
    correlationId, fingerprint⟩

/-- `serde_json::from_slice` of a command envelope. -/
def readEnvelope (payload : Bytes) :
    Except CommandProcessorError (CommandEnvelope RoutedCommand) :=
  okOr (.invalidMessage (jsonError "CommandEnvelope" payload))
    ((fromSlice payload).bind (CommandEnvelope.ofJson? RoutedCommand.toJson RoutedCommand.ofJson?))

/-- `EncodedCommand::from_delivery`. -/
def EncodedCommand.fromDelivery (address : CommandAddress) (messageId : MessageId)
    (payload : Bytes) : Except CommandProcessorError EncodedCommand := do
  let envelope ← readEnvelope payload
  let fingerprint :=
    routedCommandExecutionFingerprint address.context envelope.payload envelope.actor
  let message ← (OutboundMessage.new address messageId payload).mapError fun e =>
    CommandProcessorError.invalidMessage e.toString
  return ⟨envelope.actor, { message with correlationId := some envelope.correlationId },
    envelope.operationId, envelope.correlationId, fingerprint⟩

/-! ## Validation -/

structure CommandBindingKey where
  context : String
  command : String
  schemaVersion : UInt32
deriving DecidableEq

/-- The message's own claims agree with each other and with what is recomputed from it. -/
def Consistent (encoded : EncodedCommand) (envelope : CommandEnvelope RoutedCommand)
    (fingerprint : ContentFingerprint) (expectedMessageId : MessageId) : Prop :=
  envelope.messageId = encoded.message.messageId ∧
    encoded.message.messageId = expectedMessageId ∧
    envelope.operationId = encoded.operationId ∧
    envelope.correlationId = encoded.correlationId ∧
    (∀ outer ∈ encoded.message.correlationId, outer = envelope.correlationId) ∧
    envelope.schemaVersion.get = envelope.payload.schemaVersion ∧
    encoded.message.address.name = envelope.payload.command ∧
    encoded.fingerprint = fingerprint ∧
    encoded.actor = envelope.actor

instance (encoded : EncodedCommand) (envelope : CommandEnvelope RoutedCommand)
    (fingerprint : ContentFingerprint) (expectedMessageId : MessageId) :
    Decidable (Consistent encoded envelope fingerprint expectedMessageId) := by
  unfold Consistent
  infer_instance

/-- The causation of the events: the command, unless it only passes its own causation on. -/
def eventCausation (encoded : EncodedCommand) (envelope : CommandEnvelope RoutedCommand) :
    Except CommandProcessorError CausationId :=
  let own : Except CommandProcessorError CausationId :=
    (CheckedString.new encoded.message.messageId.value).mapError fun e => .invalidMessage e.toString
  if envelope.payload.eventsCausedByCommand then own
  else
    match envelope.causationId with
    | some causationId => .ok causationId
    | none => own

/-- The evidence that an execution of the command leaves. -/
def commandEvidence (encoded : EncodedCommand) (envelope : CommandEnvelope RoutedCommand) :
    OutcomeEvidence where
  authorityScope := some (encoded.message.address.application ++ ":" ++
    encoded.message.address.trafficScope.subjectSegment.getD "normal")
  createdAtMillis := some (UInt64.ofNat envelope.createdAt.unixMilliseconds)
  fingerprintVersion := if envelope.actor.isSome then 3 else 2
  commandType := envelope.payload.command
  commandSchema := envelope.payload.schemaVersion
  eventsCausedByCommand := envelope.payload.eventsCausedByCommand
  originalCausation := envelope.causationId.map (·.value)

/-- `validate_command`. -/
def validateCommand (encoded : EncodedCommand) (processorContext : BoundedContextName) :
    Except CommandProcessorError
      (CommandEnvelope RoutedCommand × CommandExecutionMetadata × CommandBindingKey) := do
  let address := encoded.message.address
  rejectIf (address.context ≠ processorContext.value)
    (.invalidMessage ("command context \x60" ++ address.context ++
      "\x60 does not match processor context \x60" ++ processorContext.value ++ "\x60"))
  let envelope ← readEnvelope encoded.message.payload
  let routed := envelope.payload
  let fingerprint := routedCommandExecutionFingerprint address.context routed envelope.actor
  let expectedMessageId ← (commandMessageId address envelope.operationId fingerprint
    envelope.correlationId envelope.causationId).mapError fun e => .invalidMessage e.message
  rejectIf (¬ Consistent encoded envelope fingerprint expectedMessageId)
    (.invalidMessage "command envelope identity, route, or fingerprint is inconsistent")
  let operationId : Rostfrei.OperationId ← (CheckedString.new envelope.operationId.value).mapError
    fun e => .invalidMessage e.toString
  let causationId ← eventCausation encoded envelope
  let metadata : CommandExecutionMetadata :=
    { actor := envelope.actor
      securityScope := none
      outcomeEvidence := some (commandEvidence encoded envelope)
      boundedContext := some processorContext
      operationId := operationId
      operationFingerprint := fingerprint
      correlationId := some envelope.correlationId
      causationId := some causationId }
  return (envelope, metadata, ⟨address.context, routed.command, routed.schemaVersion⟩)

end Digests

end Rostfrei.Runtime
