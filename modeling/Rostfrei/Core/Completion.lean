import Rostfrei.Core.Envelope

/-!
# Completed decisions

The evidence and the encoded rejection that a completed command carries, their checks, and their
JSON forms. Reading back the JSON of a completion gives the completion (`ofJson?_toJson`).
-/

namespace Rostfrei

open Lib

inductive EventCodecErrorKind where
  | unknownEventType
  | unsupportedSchemaVersion
  | malformedPayload
  | conversionFailed
  | invalidEnvelope
  | encodingFailed
deriving DecidableEq, Repr

/-- The `Debug` name. -/
def EventCodecErrorKind.name : EventCodecErrorKind → String
  | unknownEventType => "UnknownEventType"
  | unsupportedSchemaVersion => "UnsupportedSchemaVersion"
  | malformedPayload => "MalformedPayload"
  | conversionFailed => "ConversionFailed"
  | invalidEnvelope => "InvalidEnvelope"
  | encodingFailed => "EncodingFailed"

structure EventCodecError where
  kind : EventCodecErrorKind
  message : String
deriving DecidableEq, Repr

/-- The `Display` text. -/
def EventCodecError.toString (e : EventCodecError) : String := e.kind.name ++ ": " ++ e.message

def maxRejectionBytes : Nat := 64 * 1024

def maxUnixTimestampMilliseconds : Nat := 253402300799999

/-- `MessageTimestamp::from_unix_milliseconds` accepts it. -/
def isMessageTimestamp (value : UInt64) : Bool := value.toNat ≤ maxUnixTimestampMilliseconds

/-- `CausationId::new` accepts it. -/
def isCausationId (value : String) : Bool :=
  (validateIdentifier "causation_id" value).isOk

/-! ## Evidence -/

/-- Command identity beyond the transaction's own fields; the timestamp is audit only. -/
structure OutcomeEvidence where
  authorityScope : Option String
  createdAtMillis : Option UInt64
  fingerprintVersion : UInt16
  commandType : String
  commandSchema : UInt32
  eventsCausedByCommand : Bool
  originalCausation : Option String
deriving DecidableEq

namespace OutcomeEvidence

/-- `OutcomeEvidence::same_identity`: everything but the timestamp. -/
def sameIdentity (x y : OutcomeEvidence) : Bool :=
  x.authorityScope = y.authorityScope && x.fingerprintVersion = y.fingerprintVersion &&
    x.commandType = y.commandType && x.commandSchema = y.commandSchema &&
    x.eventsCausedByCommand = y.eventsCausedByCommand &&
    x.originalCausation = y.originalCausation

/-- `OutcomeEvidence::validate`. -/
def validate (x : OutcomeEvidence) : Except EventCodecError Unit :=
  rejectIf
    (x.fingerprintVersion = 0 ∨ x.commandSchema = 0 ∨ x.commandType = "" ∨
      strLen x.commandType > 256 ∨ x.commandType.toList.any isControl ∨
      x.originalCausation.any (fun id => !isCausationId id) ∨
      x.createdAtMillis.any (fun timestamp => !isMessageTimestamp timestamp) ∨
      x.authorityScope.any
        (fun scope => scope = "" || strLen scope > 256 || scope.toList.any isControl))
    ⟨.invalidEnvelope, "invalid completed command evidence"⟩

end OutcomeEvidence

/-! ## Rejections -/

structure EncodedRejection where
  codecId : String
  codecVersion : UInt32
  bytes : Bytes
deriving DecidableEq

/-- `EncodedRejection::validate`. -/
def EncodedRejection.validate (x : EncodedRejection) : Except EventCodecError Unit :=
  rejectIf
    (x.codecId = "" ∨ strLen x.codecId > 128 ∨ x.codecId.toList.any isControl ∨
      x.codecVersion = 0 ∨ x.bytes.length > maxRejectionBytes)
    ⟨.invalidEnvelope, "invalid or oversized encoded rejection"⟩

/-! ## Completions -/

/-- A decision: an acceptance, or a rejection if there is one. -/
structure CommandCompletion where
  version : UInt16
  evidence : Option OutcomeEvidence
  rejection : Option EncodedRejection
deriving DecidableEq

namespace CommandCompletion

/-- `CommandCompletion::new`. -/
def new (evidence : Option OutcomeEvidence) (rejection : Option EncodedRejection) :
    CommandCompletion := ⟨1, evidence, rejection⟩

/-- `CommandCompletion::validate`. -/
def validate (x : CommandCompletion) : Except EventCodecError Unit := do
  rejectIf (x.version ≠ 1)
    ⟨.unsupportedSchemaVersion, "unsupported completed outcome version"⟩
  let evidence ← okOr ⟨.invalidEnvelope,
    "completed decision requires command type/schema/fingerprint evidence"⟩ x.evidence
  evidence.validate
  match x.rejection with
  | some rejection => rejection.validate
  | none => return ()

end CommandCompletion

/-! ## JSON forms -/

namespace OutcomeEvidence

def toJson (x : OutcomeEvidence) : Json :=
  .obj [
    ("authority_scope", .orNull (x.authorityScope.map .str)),
    ("created_at_millis", .orNull (x.createdAtMillis.map fun n => .num n.toNat)),
    ("fingerprint_version", .num x.fingerprintVersion.toNat),
    ("command_type", .str x.commandType),
    ("command_schema", .num x.commandSchema.toNat),
    ("events_caused_by_command", .bool x.eventsCausedByCommand),
    ("original_causation", .orNull (x.originalCausation.map .str))]

def keys : List String :=
  ["authority_scope", "created_at_millis", "fingerprint_version", "command_type",
    "command_schema", "events_caused_by_command", "original_causation"]

theorem keys_nodup : keys.Nodup := by decide

def ofJson? (j : Json) : Option OutcomeEvidence := do
  let fields ← j.struct? keys
  return {
    authorityScope := ← Json.optional fields "authority_scope" Json.str?
    createdAtMillis := ← Json.optional fields "created_at_millis" Json.uint64?
    fingerprintVersion := ← Json.required fields "fingerprint_version" Json.uint16?
    commandType := ← Json.required fields "command_type" Json.str?
    commandSchema := ← Json.required fields "command_schema" Json.uint32?
    eventsCausedByCommand := ← Json.required fields "events_caused_by_command" Json.bool?
    originalCausation := ← Json.optional fields "original_causation" Json.str? }

theorem ofJson?_toJson (x : OutcomeEvidence) : ofJson? x.toJson = some x := by
  unfold ofJson? toJson
  rw [Json.struct?_obj keys_nodup (fun _ h => h) rfl, Option.bind_eq_bind, Option.bind_some]
  simp only [Json.optional, Json.required]
  simp (disch := decide) only [List.lookup_cons_self, Json.lookup_cons_of_ne]
  simp

theorem fits_toJson (x : OutcomeEvidence) (d : Nat) : x.toJson.Fits (d + 1) := by
  rcases x with ⟨scope, created, fv, ct, cs, caused, orig⟩
  have hfv := fv.toNat_lt
  have hcs := cs.toNat_lt
  simp only [toJson, Json.fits_obj, List.forall_mem_cons, Json.fits_orNull_str, Json.fits_num,
    Json.fits_str, Json.fits_bool, Json.fits_orNull_uint64, List.not_mem_nil, false_imp_iff,
    implies_true, and_true, true_and]
  omega

end OutcomeEvidence

namespace EncodedRejection

def toJson (x : EncodedRejection) : Json :=
  .obj [
    ("codec_id", .str x.codecId),
    ("codec_version", .num x.codecVersion.toNat),
    ("bytes", .ofBytes x.bytes)]

def keys : List String := ["codec_id", "codec_version", "bytes"]

theorem keys_nodup : keys.Nodup := by decide

def ofJson? (j : Json) : Option EncodedRejection := do
  let fields ← j.struct? keys
  return {
    codecId := ← Json.required fields "codec_id" Json.str?
    codecVersion := ← Json.required fields "codec_version" Json.uint32?
    bytes := ← Json.required fields "bytes" Json.bytes? }

theorem ofJson?_toJson (x : EncodedRejection) : ofJson? x.toJson = some x := by
  unfold ofJson? toJson
  rw [Json.struct?_obj keys_nodup (fun _ h => h) rfl, Option.bind_eq_bind, Option.bind_some]
  simp only [Json.required]
  simp (disch := decide) only [List.lookup_cons_self, Json.lookup_cons_of_ne]
  simp

theorem fits_toJson (x : EncodedRejection) (d : Nat) : x.toJson.Fits (d + 2) := by
  have hcv := x.codecVersion.toNat_lt
  simp only [toJson, Json.fits_obj, List.forall_mem_cons, Json.fits_num, Json.fits_str,
    Json.fits_ofBytes, List.not_mem_nil, false_imp_iff, implies_true, and_true, true_and]
  omega

end EncodedRejection

namespace CommandCompletion

def toJson (x : CommandCompletion) : Json :=
  .obj [
    ("version", .num x.version.toNat),
    ("evidence", .orNull (x.evidence.map OutcomeEvidence.toJson)),
    ("rejection", .orNull (x.rejection.map EncodedRejection.toJson))]

def keys : List String := ["version", "evidence", "rejection"]

theorem keys_nodup : keys.Nodup := by decide

def ofJson? (j : Json) : Option CommandCompletion := do
  let fields ← j.struct? keys
  return {
    version := ← Json.required fields "version" Json.uint16?
    evidence := ← Json.optional fields "evidence" OutcomeEvidence.ofJson?
    rejection := ← Json.optional fields "rejection" EncodedRejection.ofJson? }

theorem ofJson?_toJson (x : CommandCompletion) : ofJson? x.toJson = some x := by
  unfold ofJson? toJson
  rw [Json.struct?_obj keys_nodup (fun _ h => h) rfl, Option.bind_eq_bind, Option.bind_some]
  simp only [Json.optional, Json.required]
  simp (disch := decide) only [List.lookup_cons_self, Json.lookup_cons_of_ne]
  rw [Json.optionalOf_orNull x.evidence OutcomeEvidence.ofJson?_toJson fun _ => Json.noConfusion,
    Json.optionalOf_orNull x.rejection EncodedRejection.ofJson?_toJson fun _ => Json.noConfusion]
  simp

theorem toJson_ne_null (x : CommandCompletion) : x.toJson ≠ .null := Json.noConfusion

theorem fits_toJson (x : CommandCompletion) (d : Nat) : x.toJson.Fits (d + 3) := by
  have hv := x.version.toNat_lt
  simp only [toJson, Json.fits_obj, List.forall_mem_cons, Json.fits_num, List.not_mem_nil,
    false_imp_iff, implies_true, and_true]
  refine ⟨by omega, Json.fits_orNull ?_, Json.fits_orNull ?_⟩
  · exact fun e _ => e.fits_toJson (d + 1)
  · exact fun r _ => r.fits_toJson d

end CommandCompletion

end Rostfrei
