import Rostfrei.Lib.Machine
import Rostfrei.Lib.Monitor
import Rostfrei.Messaging.Delivery
import Rostfrei.Nats.Headers

/-!
# Deliveries of a durable consumer

`process_message` of `consumer.rs`: a delivery is checked, decoded and given to the handler, and the
handler's answer becomes an acknowledgement, a retry or a record in the quarantine stream. The code
is a program of calls (`ConsumerCall`) whose answers are arbitrary: the handler may answer anything
or run out of time, and every publication and acknowledgement may fail.

While the handler runs, progress is signalled at intervals. The answer to `invoke` is the number of
intervals that pass before the handler is done.
-/

namespace Rostfrei.Nats

open Lib Messaging

/-! ## Messages -/

/-- `Info` of a delivery. -/
structure RawInfo where
  stream : String
  consumer : String
  streamSequence : Nat
  consumerSequence : Nat
  delivered : Int
  pending : Nat
deriving DecidableEq, Repr

/-- A message as it is delivered. `info` is absent where the reply subject has none. -/
structure JetStreamMessage where
  subject : String
  headers : Option HeaderMap
  payload : Bytes
  info : Option RawInfo
deriving DecidableEq

inductive AckKind where
  | ack
  /-- With the delay of the next delivery, in nanoseconds. -/
  | nak (delay : Option Nat)
  | term
deriving DecidableEq, Repr

/-- `ConsumeErrorKind`, as far as `process_message` uses it. -/
inductive ConsumeErrorKind where
  | unavailable
  | disposition
  | quarantine
deriving DecidableEq, Repr

/-- `NatsError`, as far as the consumer uses it; `other` is any other error of a publication. -/
inductive NatsError where
  | configuration
  | payloadTooLarge (actual maximum : Nat)
  | publishTimeout
  | publishExpectation
  | invalidMessage
  | other
deriving DecidableEq, Repr

/-- The addresses a consumer may have. -/
class ConsumableAddress (A : Type) [DecidableEq A] where
  asStr : A → String
  parseNats : String → Except NatsError A

/-- A `CommandAddress`, a `CommandResponseAddress` or an `IntegrationEventAddress`. -/
instance (kind : AddressKind) : ConsumableAddress (Address kind) where
  asStr address := address.value
  parseNats value := (Address.parse kind value).mapError fun _ => .invalidMessage

/-- What `process_message` is given besides the message. -/
structure ConsumerSettings (A : Type) where
  sourceStream : String
  quarantineStream : String
  /-- In nanoseconds. -/
  quarantinePublishTimeout : Nat
  durableName : String
  address : A
  maximumDeliveryAttempts : Nat

/-! ## Decoding -/

def traceParentHeader : String := "traceparent"
def traceStateHeader : String := "tracestate"
def jsonContentType : String := "application/json"

/-- `single_header`. -/
def singleHeader (headers : HeaderMap) (name : String) : Except NatsError (Option String) :=
  match headers.getAll name with
  | [] => .ok none
  | [value] => .ok (some value)
  | _ => .error .invalidMessage

/-- `is_control_header`. -/
def isControlHeader (name : String) : Bool :=
  let name := toAsciiLowercase name
  name ∈ ["content-type", "reply", "reply-to", "reply-subject", traceParentHeader,
    traceStateHeader] ∨ startsWith name "nats-" ∨ startsWith name "rostfrei-control-"

/-- `caller_metadata`. The headers come in the order in which the map is read. -/
def callerMetadata (headers : HeaderMap) : Except NatsError CallerMetadata :=
  (headers.map Prod.fst).eraseDups.foldlM (fun metadata name =>
    if isControlHeader name then .ok metadata
    else
      match headers.getAll name with
      | [value] => (metadata.insert name value).mapError fun _ => .invalidMessage
      | _ => .error .invalidMessage) []

/-- `trace_context`. -/
def traceContext (headers : HeaderMap) : Except NatsError (Option TraceContext) := do
  let parent ← singleHeader headers traceParentHeader
  let state ← singleHeader headers traceStateHeader
  match parent, state with
  | none, none => return none
  | some parent, state =>
    ((TraceContext.fromParts parent state).map some).mapError fun _ => .invalidMessage
  | none, some _ => throw .invalidMessage

section Decode

variable {A : Type} [DecidableEq A] [ConsumableAddress A]

/-- `CorrelationId::new` of a header, if there is one. -/
def correlationOf : Option String → Except NatsError (Option CorrelationId)
  | none => .ok none
  | some value => ((CheckedString.new value).map some).mapError fun _ => .invalidMessage

/-- `decode_delivery`. -/
def decodeDelivery (message : JetStreamMessage) (info : DeliveryInfo) (expected : A) :
    Except NatsError (MessageDelivery A) := do
  let headers ← okOr .invalidMessage message.headers
  let type ← singleHeader headers contentType
  rejectIf (type ≠ some jsonContentType) .invalidMessage
  let id ← singleHeader headers natsMsgId
  let id ← okOr .invalidMessage id
  let messageId ← (CheckedString.new id).mapError fun _ => .invalidMessage
  let metadata ← callerMetadata headers
  let correlation ← singleHeader headers correlationIdHeader
  let correlationId ← correlationOf correlation
  let trace ← traceContext headers
  let address ← ConsumableAddress.parseNats message.subject
  rejectIf (address ≠ expected) .invalidMessage
  (MessageDelivery.new address messageId message.payload metadata correlationId trace
    info).mapError fun _ => .invalidMessage

end Decode

/-! ## Quarantine records -/

inductive QuarantineFailureKind where
  | invalidSourceMessage
  | deliveryAttemptsExhausted
  | handlerFailure
deriving DecidableEq, Repr

def QuarantineFailureKind.name : QuarantineFailureKind → String
  | invalidSourceMessage => "invalid-source-message"
  | deliveryAttemptsExhausted => "delivery-attempts-exhausted"
  | handlerFailure => "handler-failure"

structure QuarantineRecord where
  messageId : String
  address : String
  payloadBase64 : String
  payloadSize : Option Nat
  payloadSha256 : Option String
  payloadTruncated : Bool
  metadata : CallerMetadata
  traceContext : Option TraceContext
  correlationId : Option CorrelationId
  failureKind : Option QuarantineFailureKind
  reason : String
  attempt : Nat
  pending : Nat
  sourceSequence : Nat
  consumerSequence : Nat
  sourceStream : String
  sourceConsumer : String
deriving DecidableEq

/-- The `serde` form. -/
def QuarantineRecord.toJson (record : QuarantineRecord) : Json :=
  .obj (Json.sparse
    [("message_id", some (.str record.messageId)),
      ("address", some (.str record.address)),
      ("payload_base64", some (.str record.payloadBase64)),
      ("payload_size", record.payloadSize.map .num),
      ("payload_sha256", record.payloadSha256.map .str),
      ("payload_truncated", some (.bool record.payloadTruncated)),
      ("metadata", some record.metadata.toJson),
      ("trace_context", some (.orNull (record.traceContext.map TraceContext.toJson))),
      ("correlation_id", record.correlationId.map fun id => .str id.value),
      ("failure_kind", record.failureKind.map fun kind => .str kind.name),
      ("reason", some (.str record.reason)),
      ("attempt", some (.num record.attempt)),
      ("pending", some (.num record.pending)),
      ("source_sequence", some (.num record.sourceSequence)),
      ("consumer_sequence", some (.num record.consumerSequence)),
      ("source_stream", some (.str record.sourceStream)),
      ("source_consumer", some (.str record.sourceConsumer))])

def maxQuarantineRecordBytes : Nat := 2 * 1024 * 1024
def maxQuarantinePayloadPrefixBytes : Nat := 16 * 1024
def maxQuarantinePayloadPrefixBase64Bytes : Nat := maxQuarantinePayloadPrefixBytes / 3 * 4

/-- One second, in nanoseconds. -/
def defaultQuarantineRetryDelay : Nat := 1000000000

section Records

variable [Crates] {A : Type} [DecidableEq A] [ConsumableAddress A]

/-- `sha256_hex`. -/
def sha256Hex (payload : Bytes) : String := lowerHex (sha256 payload).toList

/-- `quarantine_record`. -/
def quarantineRecord (delivery : MessageDelivery A) (settings : ConsumerSettings A)
    (reason : String) (kind : QuarantineFailureKind) : QuarantineRecord where
  messageId := delivery.messageId.value
  address := ConsumableAddress.asStr delivery.address
  payloadBase64 := base64Encode delivery.payload
  payloadSize := some delivery.payload.length
  payloadSha256 := some (sha256Hex delivery.payload)
  payloadTruncated := false
  metadata := delivery.metadata
  traceContext := delivery.traceContext
  correlationId := delivery.correlationId
  failureKind := some kind
  reason := reason
  attempt := delivery.info.attempt
  pending := delivery.info.pending
  sourceSequence := delivery.info.sourceSequence
  consumerSequence := delivery.info.consumerSequence
  sourceStream := settings.sourceStream
  sourceConsumer := settings.durableName

/-- A header that is there once and has a checked value. -/
def checkedHeader? {ε : Type} {check : String → Except ε Unit} (headers : Option HeaderMap)
    (name : String) : Option (CheckedString check) := do
  let headers ← headers
  let value ← (singleHeader headers name).toOption.join
  (CheckedString.new value).toOption

/-- `raw_quarantine_record`. -/
def rawQuarantineRecord (message : JetStreamMessage) (info : DeliveryInfo)
    (settings : ConsumerSettings A) (reason : String) : QuarantineRecord where
  messageId :=
    (checkedHeader? message.headers natsMsgId : Option MessageId).elim "missing-or-invalid"
      (·.value)
  address := message.subject
  payloadBase64 := base64Encode message.payload
  payloadSize := some message.payload.length
  payloadSha256 := some (sha256Hex message.payload)
  payloadTruncated := false
  metadata := (message.headers.bind fun headers => (callerMetadata headers).toOption).getD []
  traceContext := message.headers.bind fun headers => (traceContext headers).toOption.join
  correlationId := checkedHeader? message.headers correlationIdHeader
  failureKind := some .invalidSourceMessage
  reason := reason
  attempt := info.attempt
  pending := info.pending
  sourceSequence := info.sourceSequence
  consumerSequence := info.consumerSequence
  sourceStream := settings.sourceStream
  sourceConsumer := settings.durableName

/-- `encode_quarantine_record`. The encoded payload is ASCII, so it may be cut anywhere. -/
def encodeQuarantineRecord (record : QuarantineRecord) : Except NatsError Bytes := do
  let payload := toVec record.toJson
  if payload.length ≤ maxQuarantineRecordBytes then return payload
  else
    let fallback := { record with
      payloadBase64 :=
        String.ofList (record.payloadBase64.toList.take maxQuarantinePayloadPrefixBase64Bytes)
      payloadTruncated := true }
    let payload := toVec fallback.toJson
    rejectIf (payload.length > maxQuarantineRecordBytes)
      (.payloadTooLarge payload.length maxQuarantineRecordBytes)
    return payload

/-- `quarantine_message_id`. -/
def quarantineMessageId (record : QuarantineRecord) : String :=
  "quarantine-" ++ lowerHex (sha256 (utf8 record.sourceStream ++ [0] ++ utf8 record.sourceConsumer ++
    [0] ++ beBytes 8 record.sourceSequence)).toList

/-- `quarantine_subject`. -/
def quarantineSubject (address : String) : Except NatsError String := do
  let kind ← (parseAddressParts address).mapError fun _ => .invalidMessage
  let scope := (addressTrafficScope address).subjectSegment.elim "" ("." ++ ·)
  return segment address 0 ++ scope ++ ".quarantine." ++ kind.segment ++ "." ++
    addressSegment address 2 ++ "." ++ addressSegment address 3

end Records

/-! ## Processing a delivery -/

/-- A message to the quarantine stream. -/
structure QuarantinePublication where
  subject : String
  payload : Bytes
  messageId : String
  headers : HeaderMap
deriving DecidableEq

/-- The acknowledgement of a publication. -/
structure PublishAck where
  stream : String
  sequence : Nat
  duplicate : Bool
deriving DecidableEq, Repr

inductive ConsumerCall (A : Type) where
  /-- `ack_with(Progress)`. -/
  | progress
  /-- The handler is called. -/
  | invoke (delivery : MessageDelivery A)
  /-- The handler has answered, or its time is over. -/
  | handled
  /-- `send_publish` and its acknowledgement, within the time for both. -/
  | publishQuarantine (publication : QuarantinePublication)
  /-- `double_ack_with`. -/
  | acknowledge (kind : AckKind)

/-- The answers. `none` from the handler says that its time is over. -/
def ConsumerCall.Answer {A : Type} : ConsumerCall A → Type
  | progress => Bool
  | invoke _ => Nat
  | handled => Option DeliveryDisposition
  | publishQuarantine _ => Except NatsError PublishAck
  | acknowledge _ => Bool

/-- The code of the consumer. -/
abbrev ConsumerCode (A : Type) :=
  ExceptT ConsumeErrorKind (Program (ConsumerCall A) ConsumerCall.Answer)

section Process

variable [Crates] {A : Type} [DecidableEq A] [ConsumableAddress A] (settings : ConsumerSettings A)

omit [Crates] [DecidableEq A] [ConsumableAddress A] in
/-- A call, and its answer. -/
def askConsumer (call : ConsumerCall A) : ConsumerCode A call.Answer :=
  ExceptT.lift (Program.perform call)

/-- `send_progress`. -/
def sendProgress : ConsumerCode A Unit := do
  let sent : Bool ← askConsumer .progress
  if sent then return else throw .disposition

/-- The progress of the intervals that pass. -/
def sendProgresses : Nat → ConsumerCode A Unit
  | 0 => return
  | intervals + 1 => do
    sendProgress
    sendProgresses intervals

/-- `handle_with_progress`. -/
def handleWithProgress (delivery : MessageDelivery A) :
    ConsumerCode A (Option DeliveryDisposition) := do
  sendProgress
  let intervals : Nat ← askConsumer (.invoke delivery)
  sendProgresses intervals
  let disposition : Option DeliveryDisposition ← askConsumer .handled
  sendProgress
  return disposition

/-- `apply_ack`. -/
def applyAck (kind : AckKind) : ConsumerCode A Unit := do
  let confirmed : Bool ← askConsumer (.acknowledge kind)
  if confirmed then return else throw .disposition

/-- `safe_headers` without metadata, and the header that `publish_confirmed` adds. -/
def quarantineHeaders (trace : Option TraceContext) : HeaderMap :=
  let headers : HeaderMap := HeaderMap.insertSome [] traceParentHeader (trace.map (·.traceParent))
  (headers.insertSome traceStateHeader (trace.bind (·.traceState))).insert contentType
    jsonContentType

/-- The message of a quarantine record. -/
def quarantinePublication (record : QuarantineRecord) : Except NatsError QuarantinePublication := do
  let payload ← encodeQuarantineRecord record
  let subject ← quarantineSubject record.address
  rejectIf (settings.quarantinePublishTimeout = 0) .configuration
  return ⟨subject, payload, quarantineMessageId record, quarantineHeaders record.traceContext⟩

/-- The quarantine stream has confirmed the publication. -/
def Confirmed : Except NatsError PublishAck → Prop
  | .ok ack => ack.stream = settings.quarantineStream ∧ ack.sequence ≠ 0
  | .error _ => False

instance (answer : Except NatsError PublishAck) : Decidable (Confirmed settings answer) :=
  match answer with
  | .ok ack => inferInstanceAs (Decidable (ack.stream = settings.quarantineStream ∧ ack.sequence ≠ 0))
  | .error _ => inferInstanceAs (Decidable False)

/-- `publish_quarantine`: whether it succeeds. -/
def publishQuarantine (record : QuarantineRecord) : ConsumerCode A Bool :=
  match quarantinePublication settings record with
  | .error _ => return false
  | .ok publication => do
    let answer : Except NatsError PublishAck ← askConsumer (.publishQuarantine publication)
    return decide (Confirmed settings answer)

/-- `quarantine_retry_available`. -/
def quarantineRetryAvailable (attempt maximum : Nat) : Bool := attempt < maximum

/-- `quarantine_or_nak`. -/
def quarantineOrNak (record : QuarantineRecord) (attempt : Nat) : ConsumerCode A Unit := do
  let published ← publishQuarantine settings record
  if published then applyAck .term
  else if quarantineRetryAvailable attempt settings.maximumDeliveryAttempts then
    applyAck (.nak (some defaultQuarantineRetryDelay))
  else throw .quarantine

/-- `apply_disposition`. -/
def applyDisposition (delivery : MessageDelivery A) :
    Option DeliveryDisposition → ConsumerCode A Unit
  | some .acknowledge => applyAck .ack
  | some .terminate => applyAck .term
  | some (.quarantine reason) =>
    quarantineOrNak settings (quarantineRecord delivery settings reason.value .handlerFailure)
      delivery.info.attempt
  | some (.retryAfter delay) =>
    if delivery.info.attempt < settings.maximumDeliveryAttempts then
      applyAck (.nak (some delay.value))
    else
      quarantineOrNak settings (quarantineRecord delivery settings
        "maximum delivery attempts exceeded" .deliveryAttemptsExhausted) delivery.info.attempt
  | none =>
    if delivery.info.attempt < settings.maximumDeliveryAttempts then
      applyAck (.nak (some defaultQuarantineRetryDelay))
    else
      quarantineOrNak settings (quarantineRecord delivery settings
        "maximum delivery attempts exceeded" .deliveryAttemptsExhausted) delivery.info.attempt

/-- The message is not one of this consumer. -/
def Misrouted (message : JetStreamMessage) (raw : RawInfo) : Prop :=
  raw.stream ≠ settings.sourceStream ∨ raw.consumer ≠ settings.durableName ∨
    message.subject ≠ ConsumableAddress.asStr settings.address

instance (message : JetStreamMessage) (raw : RawInfo) :
    Decidable (Misrouted settings message raw) :=
  inferInstanceAs (Decidable (_ ∨ _ ∨ _))

/-- The number of a delivery, if it is positive and fits 32 bits. -/
def attemptOf (raw : RawInfo) : Option Nat :=
  if 0 < raw.delivered ∧ raw.delivered < 2 ^ 32 then some raw.delivered.toNat else none

/-- The `DeliveryInfo` of a delivery. -/
def deliveryInfo (raw : RawInfo) : Except ConsumeErrorKind DeliveryInfo := do
  let attempt ← okOr .unavailable (attemptOf raw)
  (DeliveryInfo.new attempt raw.pending raw.streamSequence raw.consumerSequence).mapError
    fun _ => .unavailable

/-- The part of `process_message` after its checks of the delivery. -/
def processDelivery (message : JetStreamMessage) (info : DeliveryInfo) : ConsumerCode A Unit :=
  match decodeDelivery message info settings.address with
  | .error _ =>
    quarantineOrNak settings (rawQuarantineRecord message info settings "invalid source message")
      info.attempt
  | .ok delivery => do
    if info.attempt > settings.maximumDeliveryAttempts then
      quarantineOrNak settings (quarantineRecord delivery settings
        "maximum delivery attempts exceeded" .deliveryAttemptsExhausted) info.attempt
    else
      let disposition ← handleWithProgress delivery
      applyDisposition settings delivery disposition

/-- `process_message`. -/
def processMessage (message : JetStreamMessage) : ConsumerCode A Unit :=
  match message.info with
  | none => throw .unavailable
  | some raw =>
    if Misrouted settings message raw then applyAck (.nak (some defaultQuarantineRetryDelay))
    else
      match deliveryInfo raw with
      | .error e => throw e
      | .ok info => processDelivery settings message info

end Process

end Rostfrei.Nats
