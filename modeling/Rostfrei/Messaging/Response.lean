import Rostfrei.Messaging.Envelope

/-!
# Command responses

The outcomes of `command_response.rs` and `execution_failure.rs`, with their `serde` forms.
-/

namespace Rostfrei.Messaging

open Lib

/-! ## Rejections -/

inductive CommandRejectionClassification where
  | invalidRequest
  | unauthorized
  | forbidden
  | notFound
  | conflict
  | rateLimited
  | unavailable
  | internal
deriving DecidableEq, Repr

/-- The `serde` name. -/
def CommandRejectionClassification.name : CommandRejectionClassification → String
  | invalidRequest => "invalid_request"
  | unauthorized => "unauthorized"
  | forbidden => "forbidden"
  | notFound => "not_found"
  | conflict => "conflict"
  | rateLimited => "rate_limited"
  | unavailable => "unavailable"
  | internal => "internal"

def maxApplicationErrorCodeBytes : Nat := 128
def maxCommandRejectionMessageBytes : Nat := 1024

/-- The check of `ApplicationErrorCode::new`. -/
def validateApplicationErrorCode (value : String) : Except ContractError Unit := do
  rejectIf (value = "") ⟨.empty, "application error code", none, none⟩
  rejectIf (strLen value > maxApplicationErrorCodeBytes)
    (.bounded .tooLong "application error code" (strLen value) maxApplicationErrorCodeBytes)
  rejectIf
    (¬ (value.toList.head?.any Char.isAlphanum && value.toList.getLast?.any Char.isAlphanum) ∨
      ¬ value.toList.all fun c => c.isAlphanum || c == '.' || c == '_' || c == '-')
    ⟨.invalidFormat, "application error code", none, none⟩

abbrev ApplicationErrorCode := CheckedString validateApplicationErrorCode

/-- `validate_rejection_message`. -/
def validateRejectionMessage (message : String) : Except ContractError Unit := do
  rejectIf (message = "") ⟨.empty, "command rejection message", none, none⟩
  rejectIf (strLen message > maxCommandRejectionMessageBytes)
    (.bounded .tooLong "command rejection message" (strLen message)
      maxCommandRejectionMessageBytes)
  rejectIf (message.toList.any isControl) ⟨.controlCharacter, "command rejection message", none, none⟩

structure CommandRejection where
  classification : CommandRejectionClassification
  code : ApplicationErrorCode
  message : CheckedString validateRejectionMessage
  details : Option Json
deriving DecidableEq

def CommandRejection.toJson (r : CommandRejection) : Json :=
  .obj (Json.sparse
    [("classification", some (.str r.classification.name)),
      ("code", some (.str r.code.value)),
      ("message", some (.str r.message.value)),
      ("details", r.details)])

/-! ## Technical failures -/

inductive StoreFailureKind where
  | corruptHistory
  | capacityExhausted
  | configurationMismatch
  | conflict
  | unavailable
deriving DecidableEq, Repr

def StoreFailureKind.name : StoreFailureKind → String
  | corruptHistory => "corrupt_history"
  | capacityExhausted => "capacity_exhausted"
  | configurationMismatch => "configuration_mismatch"
  | conflict => "conflict"
  | unavailable => "unavailable"

inductive CodecFailureKind where
  | unknownEventType
  | unsupportedSchemaVersion
  | malformedPayload
  | conversionFailed
  | invalidEnvelope
  | encodingFailed
deriving DecidableEq, Repr

def CodecFailureKind.name : CodecFailureKind → String
  | unknownEventType => "unknown_event_type"
  | unsupportedSchemaVersion => "unsupported_schema_version"
  | malformedPayload => "malformed_payload"
  | conversionFailed => "conversion_failed"
  | invalidEnvelope => "invalid_envelope"
  | encodingFailed => "encoding_failed"

/-- The only `ProcessorFailureKind` is an invalid configuration. -/
inductive ExecutionFailure where
  | store (kind : StoreFailureKind)
  | codec (kind : CodecFailureKind)
  | processor
deriving DecidableEq, Repr

def ExecutionFailure.toJson : ExecutionFailure → Json
  | store kind => .obj [("source", .str "store"), ("kind", .str kind.name)]
  | codec kind => .obj [("source", .str "codec"), ("kind", .str kind.name)]
  | processor => .obj [("source", .str "processor"), ("kind", .str "invalid_configuration")]

/-! ## Outcomes -/

inductive CommandResponseOutcome where
  | accepted
  | rejected (rejection : CommandRejection)
  | executionFailed (failure : ExecutionFailure)
deriving DecidableEq

def CommandResponseOutcome.toJson : CommandResponseOutcome → Json
  | accepted => .obj [("status", .str "accepted")]
  | rejected rejection => .obj [("status", .str "rejected"), ("value", rejection.toJson)]
  | executionFailed failure =>
    .obj [("status", .str "execution_failed"), ("value", failure.toJson)]

end Rostfrei.Messaging
