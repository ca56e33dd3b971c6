import Rostfrei.Lib.JsonRead
import Rostfrei.Messaging.Delivery
import Rostfrei.Messaging.Response

/-!
# Responses to commands

`CommandResponse` of `command_response.rs`: the outcome of a command with the identities it answers,
its document, and the address at which it is stored. A reader ignores fields it does not know, but
not in a technical response.
-/

namespace Rostfrei.Messaging

open Lib

def commandResponseSchemaVersion : UInt32 := 1
def technicalResponseSchemaVersion : UInt32 := 2

abbrev CommandResponseAddress := Address .commandResponse

/-- The outcome is an `ExecutionFailed`. -/
def CommandResponseOutcome.isTechnical : CommandResponseOutcome → Bool
  | executionFailed _ => true
  | _ => false

structure CommandResponse where
  messageId : MessageId
  commandMessageId : MessageId
  commandAddress : CommandAddress
  operationId : OperationId
  schemaVersion : SchemaVersion
  correlationId : CorrelationId
  outcome : CommandResponseOutcome
deriving DecidableEq

/-- `OutboundMessage<CommandResponseAddress>`. `CallerMetadata::insert` has checked the names. -/
structure OutboundResponse where
  address : CommandResponseAddress
  messageId : MessageId
  payload : Bytes
  metadata : CallerMetadata
  metadata_valid : ∀ entry ∈ metadata, validateName entry.1 = .ok entry.1
  correlationId : Option CorrelationId
  traceContext : Option TraceContext
deriving DecidableEq

namespace CommandResponse

def toJson (r : CommandResponse) : Json :=
  .obj
    [("message_id", .str r.messageId.value),
      ("command_message_id", .str r.commandMessageId.value),
      ("command_address", .str r.commandAddress.value),
      ("operation_id", .str r.operationId.value),
      ("schema_version", .num r.schemaVersion.get.toNat),
      ("correlation_id", .str r.correlationId.value),
      ("outcome", r.outcome.toJson)]

def keys : List String :=
  ["message_id", "command_message_id", "command_address", "operation_id", "schema_version",
    "correlation_id", "outcome"]

/-- The schema version that goes with an outcome. -/
def expectedVersion (outcome : CommandResponseOutcome) : UInt32 :=
  if outcome.isTechnical then technicalResponseSchemaVersion else commandResponseSchemaVersion

section

variable [Crates]

/-- `validate`. -/
def validate (r : CommandResponse) : Except MessageBuildError Unit :=
  rejectIf ((toVec r.toJson).length > maxEnvelopeBytes)
    ⟨.payloadTooLarge, some (toVec r.toJson).length, some maxEnvelopeBytes⟩

/-- `CommandResponse::new`, of the fields of `r`. -/
def new (r : CommandResponse) : Except MessageBuildError CommandResponse := do
  rejectIf (r.schemaVersion.get ≠ expectedVersion r.outcome) ⟨.serialization, none, none⟩
  r.validate
  return r

/-- `accepted`, `rejected` and `execution_failed`: the constructor of the outcome's schema. -/
def ofOutcome (messageId commandMessageId : MessageId) (commandAddress : CommandAddress)
    (operationId : OperationId) (correlationId : CorrelationId) (outcome : CommandResponseOutcome) :
    Except MessageBuildError CommandResponse := do
  let version ← (SchemaVersion.new (expectedVersion outcome)).mapError fun _ =>
    ⟨.serialization, none, none⟩
  new ⟨messageId, commandMessageId, commandAddress, operationId, version, correlationId, outcome⟩

/-- A field that is not one of the known ones. -/
def hasExtensions (known : List String) (fields : List (String × Json)) : Bool :=
  fields.any (·.1 ∉ known)

/-- The reader of `CommandResponseWire`, and the checks after it. The outcome is read by its derived
reader; unknown fields beside or in the outcome are refused in a technical response. -/
def ofJson? (decodeOutcome : Json → Option CommandResponseOutcome) (j : Json) :
    Option CommandResponse := do
  let fields ← j.openStruct? keys
  let messageId ← Json.required fields "message_id" CommandEnvelope.checked?
  let commandMessageId ← Json.required fields "command_message_id" CommandEnvelope.checked?
  let commandAddress ← Json.required fields "command_address" fun j =>
    j.str?.bind fun text => (Address.parse .command text).toOption
  let operationId ← Json.required fields "operation_id" CommandEnvelope.checked?
  let schemaVersion ← Json.required fields "schema_version" fun j =>
    j.uint32?.bind fun n => (SchemaVersion.new n).toOption
  let correlationId ← Json.required fields "correlation_id" CommandEnvelope.checked?
  let outcomeFields ← Json.required fields "outcome" Json.object?
  let outcome ← decodeOutcome (.obj outcomeFields)
  let extended := hasExtensions keys fields || hasExtensions ["status", "value"] outcomeFields
  if schemaVersion.get = technicalResponseSchemaVersion ∧ extended then none
  else
    (new ⟨messageId, commandMessageId, commandAddress, operationId, schemaVersion, correlationId,
      outcome⟩).toOption

/-- `serde_json::from_slice` of a response. -/
def fromSlice? (decodeOutcome : Json → Option CommandResponseOutcome) (payload : Bytes) :
    Option CommandResponse :=
  (fromSlice payload).bind (ofJson? decodeOutcome)

end

end CommandResponse

def responseAddressHashDomain : String := "rostfrei.command-response-address.v1"

/-- `derive_command_response_address`. -/
def deriveCommandResponseAddress [Crates] (commandAddress : CommandAddress)
    (operationId : OperationId) (commandMessageId : MessageId) :
    Except ContractError CommandResponseAddress :=
  let name := lowerHex (sha256 (frames
    [utf8 responseAddressHashDomain, utf8 commandAddress.value, utf8 operationId.value,
      utf8 commandMessageId.value])).toList
  Address.newInScope .commandResponse commandAddress.application commandAddress.trafficScope
    commandAddress.context name

end Rostfrei.Messaging
