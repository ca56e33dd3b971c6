import Rostfrei.Nats.Broker
import Rostfrei.Nats.Consumer
import Rostfrei.Nats.Transition
import Rostfrei.Runtime.Response

/-!
# Publishing responses

`response_publication.rs`, and the publisher of `publish.rs` that uses it. A response is prepared from
a snapshot of its subject and published under what the snapshot says; a prepared response is a value
and can be published again.

* A business response is published under its own message id. A technical response has a message id
  for each failure, and is published under a digest of its text and of a transition token, which
  names the stream, its last sequence and the message of the subject that the response follows.
* `validateStoredPublication` is what every reader checks of a stored response.
* `prepare` and `publish` are programs that call the broker. A call that fails answers with the error
  that the code maps it to, or with that of the timeout around it.
-/

namespace Rostfrei.Nats

open Lib Messaging Rostfrei.Runtime

/-- `NatsError`, as far as responses use it. -/
inductive PublicationError where
  | configuration
  | messageTooLarge
  | publishTimeout
  | publishExpectation
  | identityConflict
  | streamNotFound
  | publish
  | invalidMessage
deriving DecidableEq, Repr

def diagnosticTransitionHeader : String := "rostfrei-Control-Response-Transition"

/-- A message of a stream with its sequence. -/
abbrev StreamMessage := Nat × Message

/-- `one_header`. -/
def oneHeader (headers : HeaderMap) (name : String) : Except PublicationError (Option String) :=
  match headers.getAll name with
  | [] => .ok none
  | [value] => .ok (some value)
  | _ => .error .invalidMessage

theorem oneHeader_of_getAll {headers : HeaderMap} {name value : String}
    (h : headers.getAll name = [value]) : oneHeader headers name = .ok (some value) := by
  simp [oneHeader, h]

theorem getAll_of_oneHeader {headers : HeaderMap} {name value : String}
    (h : oneHeader headers name = .ok (some value)) : headers.getAll name = [value] := by
  unfold oneHeader at h
  split at h
  · cases h
  · next hone =>
    obtain rfl := Option.some.inj (Except.ok.inj h)
    exact hone
  · cases h

/-- `StoredPublication`. -/
structure StoredPublication where
  stream : String
  created : Int
  sequence : Nat

section Validate

variable [Crates] [TokenText]

namespace DiagnosticTransitionToken

/-- `validate`. -/
def validate (token : DiagnosticTransitionToken) (stream : String) (created : Int) :
    Except PublicationError Unit :=
  rejectIf (token.version ≠ 1 ∨ token.stream ≠ stream ∨ token.created ≤ 0 ∨
    token.created ≠ created ∨ token.predecessor > token.generation) .invalidMessage

/-- `publication_id`; the text of the token is that of `to_string`. -/
def publicationId (token : DiagnosticTransitionToken) (subject : String) (payload : Bytes) :
    Except PublicationError MessageId :=
  (CheckedString.new (lowerHex (sha256 (frames
    [utf8 "rostfrei:diagnostic-publication:v1", utf8 subject, payload,
      utf8 (tokenToString token)])).toList)).mapError fun _ => .invalidMessage

end DiagnosticTransitionToken

/-- `validate_technical_logical_identity`. -/
def validateTechnicalLogicalIdentity (response : CommandResponse) : Except PublicationError Unit :=
  match response.outcome with
  | .executionFailed failure => do
    let messageId ← (commandTechnicalResponseMessageId response.commandMessageId failure).mapError
      fun _ => .invalidMessage
    rejectIf (response.messageId ≠ messageId) .identityConflict
  | _ => return

/-- `validate_stored_publication`. -/
def validateStoredPublication (response : CommandResponse) (subject : String) (payload : Bytes)
    (headers : HeaderMap) (stored : StoredPublication) :
    Except PublicationError (Option DiagnosticTransitionToken) := do
  let outer ← oneHeader headers natsMsgId
  let outer ← okOr .invalidMessage outer
  if response.outcome.isTechnical then do
    let correlationId ← oneHeader headers correlationIdHeader
    rejectIf (correlationId ≠ some response.correlationId.value) .identityConflict
    validateTechnicalLogicalIdentity response
    let encoded ← oneHeader headers diagnosticTransitionHeader
    let encoded ← okOr .invalidMessage encoded
    let token ← okOr .invalidMessage (tokenFromStr encoded)
    token.validate stored.stream stored.created
    rejectIf (token.generation ≥ stored.sequence ∨ tokenToString token ≠ encoded) .identityConflict
    let publicationId ← token.publicationId subject payload
    rejectIf (publicationId.value ≠ outer) .identityConflict
    return some token
  else do
    rejectIf (outer ≠ response.messageId.value) .identityConflict
    return none

/-- The stored response is about the same command as a response. -/
def SameCommand (previous response : CommandResponse) : Prop :=
  previous.commandMessageId = response.commandMessageId ∧
    previous.commandAddress = response.commandAddress ∧
    previous.operationId = response.operationId ∧
    previous.correlationId = response.correlationId

instance (previous response : CommandResponse) : Decidable (SameCommand previous response) := by
  unfold SameCommand
  infer_instance

variable (decodeOutcome : Json → Option CommandResponseOutcome)

/-- `decode_existing`. -/
def decodeExisting (stored : StreamMessage) (stream : String) (created : Int)
    (response : CommandResponse) : Except PublicationError CommandResponse := do
  let (sequence, message) := stored
  rejectIf (sequence = 0) .identityConflict
  let content ← oneHeader message.headers contentType
  rejectIf (content ≠ some jsonContentType) .identityConflict
  let correlationId ← oneHeader message.headers correlationIdHeader
  rejectIf (correlationId ≠ some response.correlationId.value) .identityConflict
  let previous ← okOr .invalidMessage (CommandResponse.fromSlice? decodeOutcome message.payload)
  rejectIf (¬ SameCommand previous response) .identityConflict
  let address ← (deriveCommandResponseAddress previous.commandAddress previous.operationId
    previous.commandMessageId).mapError fun _ => .invalidMessage
  rejectIf (message.subject ≠ address.value) .identityConflict
  let _ ← validateStoredPublication previous message.subject message.payload message.headers
    ⟨stream, created, sequence⟩
  return previous

/-! ## Prepared responses -/

structure PreparedCommandResponse where
  message : OutboundResponse
  response : CommandResponse
  headers : HeaderMap
  stream : String
  created : Int
  predecessor : Nat
  publicationId : MessageId
  transition : Option DiagnosticTransitionToken
  observedExact : Bool
deriving DecidableEq

/-- What `prepare` makes of the stored message: the publication of the same response, if the message
is one. A business response admits no other. -/
def observeExact (message : OutboundResponse) (response : CommandResponse) (stream : String)
    (created : Int) (stored : Option StreamMessage) :
    Except PublicationError (Option (MessageId × Option DiagnosticTransitionToken)) :=
  match stored with
  | none => .ok none
  | some stored => do
    let previous ← decodeExisting decodeOutcome stored stream created response
    if stored.2.payload = message.payload ∧ previous = response then do
      let outer ← oneHeader stored.2.headers natsMsgId
      let outer ← okOr .invalidMessage outer
      let publicationId ← (CheckedString.new outer).mapError fun _ => .invalidMessage
      let transition ← validateStoredPublication previous stored.2.subject stored.2.payload
        stored.2.headers ⟨stream, created, stored.1⟩
      return some (publicationId, transition)
    else do
      rejectIf (¬ previous.outcome.isTechnical) .identityConflict
      return none

/-- The publication of a response that is not stored yet. -/
def newPublication (message : OutboundResponse) (response : CommandResponse) (stream : String)
    (created : Int) (generation predecessor : Nat) :
    Except PublicationError (MessageId × Option DiagnosticTransitionToken) :=
  if response.outcome.isTechnical then do
    let token : DiagnosticTransitionToken := ⟨1, stream, created, generation, predecessor⟩
    token.validate stream created
    let publicationId ← token.publicationId message.address.value message.payload
    return (publicationId, some token)
  else return (message.messageId, none)

/-- `prepare`, after it has read the stream and the last message of the subject. -/
def prepareFrom (message : OutboundResponse) (response : CommandResponse) (stream : String)
    (headers : HeaderMap) (created : Int) (lastSequence : Nat) (stored : Option StreamMessage) :
    Except PublicationError PreparedCommandResponse := do
  let predecessor := stored.elim 0 Prod.fst
  let generation := max lastSequence predecessor
  let observed ← observeExact decodeOutcome message response stream created stored
  let (publicationId, transition) ← observed.elim
    (newPublication message response stream created generation predecessor) .ok
  return {
    message
    response
    headers := (headers.insert contentType jsonContentType).insertSome diagnosticTransitionHeader
      (transition.map tokenToString)
    stream
    created
    predecessor
    publicationId
    transition
    observedExact := observed.isSome }

omit [Crates] [TokenText] in
/-- What `publish` sends. -/
def PreparedCommandResponse.request (prepared : PreparedCommandResponse) : Message where
  subject := prepared.message.address.value
  headers := ((prepared.headers.insert natsMsgId prepared.publicationId.value).insert
    natsExpectedStream prepared.stream).insert
    natsExpectedLastSubjectSequence (toString prepared.predecessor)
  payload := prepared.message.payload

/-- `verify_exact_record`. -/
def verifyExactRecord (stored : StreamMessage) (prepared : PreparedCommandResponse) :
    Except PublicationError Unit := do
  let previous ← decodeExisting decodeOutcome stored prepared.stream prepared.created
    prepared.response
  let outer ← oneHeader stored.2.headers natsMsgId
  rejectIf (stored.2.payload ≠ prepared.message.payload ∨ previous ≠ prepared.response ∨
      outer ≠ some prepared.publicationId.value)
    (if previous.outcome.isTechnical then .publishExpectation else .identityConflict)

end Validate

/-! ## Calls of the broker -/

structure StreamInfo where
  created : Int
  lastSequence : Nat
deriving DecidableEq, Repr

inductive ResponseCall where
  /-- `Context::get_stream`. -/
  | getStream
  /-- `response_storage::latest`. -/
  | latest (subject : String)
  /-- `response_storage::sequence`. -/
  | atSequence (sequence : Nat)
  /-- `Context::send_publish`, and its acknowledgement. -/
  | sendPublish (request : Message)

/-- A publication can fail when it is sent, or in its acknowledgement. -/
def ResponseCall.Answer : ResponseCall → Type
  | getStream => Except PublicationError StreamInfo
  | latest _ => Except PublicationError (Option StreamMessage)
  | atSequence _ => Except PublicationError (Option StreamMessage)
  | sendPublish _ => Except PublicationError (Except PublicationError PublishAck)

/-- Code that calls the broker. -/
abbrev ResponseCode := ExceptT PublicationError (Program ResponseCall ResponseCall.Answer)

namespace ResponseCode

def getStream : ResponseCode StreamInfo := ExceptT.mk (Program.perform ResponseCall.getStream)

def latest (subject : String) : ResponseCode (Option StreamMessage) :=
  ExceptT.mk (Program.perform (ResponseCall.latest subject))

def atSequence (sequence : Nat) : ResponseCode (Option StreamMessage) :=
  ExceptT.mk (Program.perform (ResponseCall.atSequence sequence))

def sendPublish (request : Message) : ResponseCode (Except PublicationError PublishAck) :=
  ExceptT.mk (Program.perform (ResponseCall.sendPublish request))

end ResponseCode

/-! ## Programs -/

structure NatsPublishAck where
  stream : String
  sequence : Nat
  duplicate : Bool
deriving DecidableEq, Repr

section Programs

variable [Crates] [TokenText] (decodeOutcome : Json → Option CommandResponseOutcome)

/-- `prepare`. -/
def prepare (message : OutboundResponse) (response : CommandResponse) (stream : String)
    (headers : HeaderMap) (operationTimeout : Nat) : ResponseCode PreparedCommandResponse := do
  liftM (rejectIf (operationTimeout = 0) PublicationError.configuration)
  liftM (validateTechnicalLogicalIdentity response)
  let info ← ResponseCode.getStream
  let stored ← ResponseCode.latest message.address.value
  liftM (prepareFrom decodeOutcome message response stream headers info.created info.lastSequence
    stored)

omit [Crates] [TokenText] in
/-- `verify_current_incarnation`. -/
def verifyCurrentIncarnation (prepared : PreparedCommandResponse) : ResponseCode Unit := do
  let current ← ResponseCode.getStream
  liftM (rejectIf (current.created ≠ prepared.created) PublicationError.identityConflict)

/-- `reconcile`. -/
def reconcile (prepared : PreparedCommandResponse) : ResponseCode NatsPublishAck := do
  let stored ← ResponseCode.latest prepared.message.address.value
  let stored ← liftM (okOr PublicationError.publishExpectation stored)
  liftM (verifyExactRecord decodeOutcome stored prepared)
  verifyCurrentIncarnation prepared
  return ⟨prepared.stream, stored.1, true⟩

/-- `publish`, after a fresh acknowledgement. -/
def confirmFresh (prepared : PreparedCommandResponse) (expectedStream : String) (ack : PublishAck) :
    ResponseCode NatsPublishAck := do
  liftM (rejectIf (ack.stream ≠ expectedStream ∨ ack.sequence = 0 ∨
      ∃ token ∈ prepared.transition, ack.sequence ≤ token.generation)
    PublicationError.publishExpectation)
  let stored ← ResponseCode.atSequence ack.sequence
  let stored ← liftM (okOr PublicationError.publish stored)
  liftM (rejectIf (stored.1 ≠ ack.sequence) PublicationError.identityConflict)
  liftM ((verifyExactRecord decodeOutcome stored prepared).mapError fun _ =>
    PublicationError.identityConflict)
  verifyCurrentIncarnation prepared
  return ⟨expectedStream, ack.sequence, false⟩

/-- `publish`. -/
def publish (prepared : PreparedCommandResponse) (expectedStream : String)
    (operationTimeout : Nat) : ResponseCode NatsPublishAck := do
  liftM (rejectIf (operationTimeout = 0) PublicationError.configuration)
  liftM (rejectIf (prepared.stream ≠ expectedStream) PublicationError.invalidMessage)
  let info ← ResponseCode.getStream
  liftM (rejectIf (info.created ≠ prepared.created) PublicationError.identityConflict)
  if prepared.observedExact then reconcile decodeOutcome prepared
  else do
    let result ← ResponseCode.sendPublish prepared.request
    match result with
    | .ok ack =>
      if ack.duplicate then reconcile decodeOutcome prepared
      else confirmFresh decodeOutcome prepared expectedStream ack
    | .error .publishExpectation => reconcile decodeOutcome prepared
    | .error e => throw e

/-! ## The publisher -/

/-- `NatsPublisher`: what it uses of its topology. -/
structure NatsPublisher where
  application : String
  trafficScope : TrafficScope
  commandResponseStream : String

omit [Crates] [TokenText] in
/-- `safe_headers`. -/
def safeHeaders (metadata : CallerMetadata) (traceContext : Option TraceContext) : HeaderMap :=
  let headers : HeaderMap :=
    metadata.foldl (fun headers entry => HeaderMap.insert headers entry.1 entry.2) []
  match traceContext with
  | none => headers
  | some context =>
    (headers.insert traceParentHeader context.traceParent).insertSome traceStateHeader
      context.traceState

omit [TokenText] in
/-- `decode_outbound_command_response`. -/
def decodeOutboundCommandResponse (message : OutboundResponse) :
    Except PublicationError CommandResponse := do
  let response ← okOr .invalidMessage (CommandResponse.fromSlice? decodeOutcome message.payload)
  let expectedAddress ← (deriveCommandResponseAddress response.commandAddress response.operationId
    response.commandMessageId).mapError fun _ => .invalidMessage
  rejectIf (response.messageId ≠ message.messageId ∨ expectedAddress ≠ message.address)
    .invalidMessage
  return response

omit [Crates] [TokenText] in
/-- The address is one of the publisher's application and traffic. -/
def NatsPublisher.Serves (publisher : NatsPublisher) (address : CommandResponseAddress) : Prop :=
  address.application = publisher.application ∧ address.trafficScope = publisher.trafficScope

instance (publisher : NatsPublisher) (address : CommandResponseAddress) :
    Decidable (publisher.Serves address) := by
  unfold NatsPublisher.Serves
  infer_instance

/-- `prepare_command_response`. -/
def prepareCommandResponse (publisher : NatsPublisher) (message : OutboundResponse)
    (operationTimeout : Nat) : ResponseCode PreparedCommandResponse := do
  liftM (rejectIf (¬ publisher.Serves message.address) PublicationError.invalidMessage)
  let response ← liftM (decodeOutboundCommandResponse decodeOutcome message)
  liftM (rejectIf (∃ correlationId ∈ message.correlationId, correlationId ≠ response.correlationId)
    PublicationError.invalidMessage)
  let headers := (safeHeaders message.metadata message.traceContext).insert correlationIdHeader
    response.correlationId.value
  prepare decodeOutcome message response publisher.commandResponseStream headers operationTimeout

/-- `publish_prepared_command_response`. -/
def publishPreparedCommandResponse (publisher : NatsPublisher) (prepared : PreparedCommandResponse)
    (operationTimeout : Nat) : ResponseCode NatsPublishAck := do
  liftM (rejectIf (¬ publisher.Serves prepared.message.address) PublicationError.invalidMessage)
  publish decodeOutcome prepared publisher.commandResponseStream operationTimeout

end Programs

end Rostfrei.Nats
