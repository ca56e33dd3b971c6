import Rostfrei.Concrete
import Rostfrei.Runtime.Canonical

/-!
# What encoding a command produces

`Encodes bus request encoded envelope` says what `encodeDynamic` has done once it succeeds: which
envelope it wrote, and how the message relates to it (`encodes_of_encodeDynamic`). From it follow the
two results of this module:

* `readEnvelope_of_encodes`: the message's bytes are read back as the envelope with its payload in
  canonical form, as long as the payload is nested at most 125 deep: the envelope and the routed
  command are the two outermost objects of the document, of which `serde_json` reads 127.
* `encodeDynamic_delivered`: the message is validated, and delivering it rebuilds the command.
-/

namespace Rostfrei.Runtime

open Lib Messaging

section Encoding

variable [Crates]

/-- The command that a request routes. -/
def DynamicCommandRequest.routed (request : DynamicCommandRequest) : RoutedCommand :=
  ⟨request.command, request.schemaVersion, request.payload, request.eventsCausedByCommand⟩

/-- The command was encoded, with this envelope. -/
structure Encodes (bus : CommandBus) (request : DynamicCommandRequest) (encoded : EncodedCommand)
    (envelope : CommandEnvelope RoutedCommand) : Prop where
  address : bus.context.commandAddress request.command = .ok encoded.message.address
  operation : encoded.operationId.value = request.operationId.value
  valid : request.routed.Valid
  fingerprint : encoded.fingerprint =
    routedCommandExecutionFingerprint bus.context.name.value request.routed request.actor
  correlation : match request.correlationId with
    | some correlationId => encoded.correlationId = correlationId
    | none => encoded.correlationId.value = request.operationId.value
  messageId : commandMessageId encoded.message.address encoded.operationId encoded.fingerprint
    encoded.correlationId request.causationId = .ok encoded.message.messageId
  schemaVersion : envelope.schemaVersion.get = request.schemaVersion
  built : CommandEnvelope.build RoutedCommand.toJson
    ⟨encoded.message.messageId, envelope.schemaVersion, encoded.correlationId, request.causationId⟩
    encoded.operationId envelope.createdAt request.routed request.actor = .ok envelope
  payload_le : encoded.message.payload.length ≤ maxMessagePayloadBytes
  command : encoded = ⟨request.actor, ⟨encoded.message.address, encoded.message.messageId,
    canonicalSerialize (envelope.toJson RoutedCommand.toJson), [], some encoded.correlationId,
    none⟩, encoded.operationId, encoded.correlationId, encoded.fingerprint⟩

theorem encodes_of_encodeDynamic {bus : CommandBus} {clock : Int} {request : DynamicCommandRequest}
    {encoded : EncodedCommand} (h : bus.encodeDynamic clock request = .ok encoded) :
    ∃ envelope, Encodes bus request encoded envelope := by
  simp only [CommandBus.encodeDynamic, bind_eq_ok, mapError_eq_ok] at h
  obtain ⟨address, haddress, operationId, hoperation, createdAt, -, routed, hrouted, correlationId,
    hcorrelation, messageId, hmessageId, schemaVersion, hschema, envelope, henvelope, -, -, message,
    hmessage, h⟩ := h
  simp only [OutboundMessage.new, bind_unit_eq_ok, rejectIf_eq_ok, pure_eq_ok, Nat.not_lt] at hmessage h
  obtain ⟨hsize, rfl⟩ := hmessage
  obtain ⟨rfl, hvalid⟩ := RoutedCommand.valid_of_new hrouted
  subst h
  obtain ⟨henvelope', -⟩ := CommandEnvelope.build_eq_ok.mp henvelope
  refine ⟨envelope, haddress, CheckedString.value_of_new hoperation, hvalid, rfl, ?_, hmessageId, ?_,
    ?_, hsize, rfl⟩
  · cases hrequest : request.correlationId with
    | some correlation =>
      simp only [CommandExecutionMetadata.effectiveCorrelationId, hrequest] at hcorrelation
      cases hcorrelation
      rfl
    | none =>
      simp only [CommandExecutionMetadata.effectiveCorrelationId, hrequest] at hcorrelation
      exact CheckedString.value_of_new hcorrelation
  · rw [henvelope']
    exact SchemaVersion.get_of_new hschema
  · have hparts : envelope.schemaVersion = schemaVersion ∧ envelope.createdAt = createdAt := by
      rw [henvelope']
      exact ⟨rfl, rfl⟩
    rw [hparts.1, hparts.2]
    exact henvelope

namespace Encodes

variable {bus : CommandBus} {request : DynamicCommandRequest} {encoded : EncodedCommand}
  {envelope : CommandEnvelope RoutedCommand}

theorem envelope_eq (h : Encodes bus request encoded envelope) :
    envelope = ⟨encoded.message.messageId, encoded.operationId, envelope.schemaVersion,
      envelope.createdAt, encoded.correlationId, request.causationId, request.routed,
      request.actor.map fun _ => 2, request.actor⟩ :=
  (CommandEnvelope.build_eq_ok.mp h.built).1

/-- The address is that of the bus's context and of the command. -/
theorem address_parts (h : Encodes bus request encoded envelope) :
    encoded.message.address.context = bus.context.name.value ∧
      encoded.message.address.name = request.command := by
  obtain ⟨-, -, hcontext, hname⟩ := Address.parts_of_newInScope h.address
  exact ⟨hcontext, hname⟩

variable [Crates.Compact]

theorem payload_eq (h : Encodes bus request encoded envelope) :
    encoded.message.payload = toVec (envelope.toJson RoutedCommand.toJson).canonical := by
  have hpayload : encoded.message.payload =
      canonicalSerialize (envelope.toJson RoutedCommand.toJson) := by
    rw [h.command]
  rw [hpayload, canonicalSerialize_eq]
  refine CommandEnvelope.distinct_toJson ?_
  rw [h.envelope_eq]
  exact RoutedCommand.distinct_toJson request.payload_distinct

/-- The envelope that is read: the payload comes back with its keys sorted. -/
theorem build_canonical (h : Encodes bus request encoded envelope) :
    CommandEnvelope.build RoutedCommand.toJson ⟨envelope.messageId, envelope.schemaVersion,
        envelope.correlationId, envelope.causationId⟩ envelope.operationId envelope.createdAt
        request.routed.canonical envelope.actor =
      .ok { envelope with payload := request.routed.canonical } := by
  obtain ⟨heq, hbare, hfull⟩ := CommandEnvelope.build_eq_ok.mp h.built
  have hlength : ∀ e : CommandEnvelope RoutedCommand, e.payload = request.routed →
      (toVec (CommandEnvelope.toJson RoutedCommand.toJson
        { e with payload := request.routed.canonical })).length =
          (toVec (e.toJson RoutedCommand.toJson)).length := by
    intro e he
    rw [← length_toVec_canonical, ← length_toVec_canonical (e.toJson _)]
    have hcanonical := request.routed.canonical_toJson_canonical
    rw [← he] at hcanonical ⊢
    rw [CommandEnvelope.canonical_toJson_congr hcanonical]
  have hpayload : envelope.payload = request.routed := by rw [heq]
  refine CommandEnvelope.build_eq_ok.mpr ⟨?_, ?_, ?_⟩
  · rw [heq]
  · have := hlength { envelope with metadataVersion := none, actor := none } hpayload
    exact this ▸ hbare
  · exact hlength envelope hpayload ▸ hfull

/-- The bytes of the message are read back. -/
theorem readEnvelope [Crates.Lawful] (h : Encodes bus request encoded envelope)
    (hdepth : request.payload.Fits 125) :
    Runtime.readEnvelope encoded.message.payload =
      .ok { envelope with payload := request.routed.canonical } := by
  have hpayload : envelope.payload = request.routed := by rw [h.envelope_eq]
  have hversioned : envelope.Versioned := by
    rw [CommandEnvelope.Versioned, h.envelope_eq]
  have hfits : (envelope.toJson RoutedCommand.toJson).canonical.Fits maxJsonDepth := by
    rw [Json.fits_canonical]
    refine CommandEnvelope.fits_toJson ?_
    rw [hpayload]
    exact RoutedCommand.fits_toJson hdepth
  have hread : RoutedCommand.ofJson? (RoutedCommand.toJson envelope.payload).canonical =
      some request.routed.canonical := by
    rw [hpayload]
    exact RoutedCommand.ofJson?_canonical h.valid request.payload_distinct
  rw [Runtime.readEnvelope, h.payload_eq, Crates.Lawful.fromSlice_toVec _ hfits, Option.bind_some,
    CommandEnvelope.ofJson?_canonical hversioned hread h.build_canonical]
  rfl

omit [Crates] [Crates.Compact] in
/-- An identifier of one field is an identifier of any other. -/
theorem new_of_identifier {field field' : String} (x : CheckedString (validateIdentifier field)) :
    ∃ y : CheckedString (validateIdentifier field'), CheckedString.new x.value = .ok y := by
  have hvalid : validateIdentifier field' x.value = .ok () := by
    have := x.valid
    simp only [validateIdentifier, bind_unit_eq_ok, rejectIf_eq_ok] at this ⊢
    exact this
  exact ⟨⟨x.value, hvalid⟩, CheckedString.new_value ⟨x.value, hvalid⟩⟩

/-- What is executed does not depend on the order of the payload's keys. -/
theorem fingerprint_canonical (boundedContext : String) (c : RoutedCommand)
    (actor : Option ActorRef) :
    routedCommandExecutionFingerprint boundedContext c.canonical actor =
      routedCommandExecutionFingerprint boundedContext c actor := by
  have hpayload : canonicalJsonBytes c.payload.canonical = canonicalJsonBytes c.payload := by
    rw [canonicalJsonBytes, canonicalJsonBytes, writeValue_eq, writeValue_eq,
      Json.canonical_canonical]
  simp only [routedCommandExecutionFingerprint, executionParts, RoutedCommand.canonical, hpayload]

/-- The delivered message is rebuilt. -/
theorem fromDelivery [Crates.Lawful] (h : Encodes bus request encoded envelope)
    (hdepth : request.payload.Fits 125) :
    EncodedCommand.fromDelivery encoded.message.address encoded.message.messageId
      encoded.message.payload = .ok encoded := by
  have hfingerprint : routedCommandExecutionFingerprint encoded.message.address.context
      request.routed.canonical envelope.actor = encoded.fingerprint := by
    rw [h.address_parts.1, fingerprint_canonical, h.fingerprint, h.envelope_eq]
  have hmessage : OutboundMessage.new encoded.message.address encoded.message.messageId
      encoded.message.payload = .ok ⟨encoded.message.address, encoded.message.messageId,
        encoded.message.payload, [], none, none⟩ := by
    rw [OutboundMessage.new, rejectIf_of_not (Nat.not_lt.mpr h.payload_le)]
    rfl
  have hactor : envelope.actor = request.actor := by rw [h.envelope_eq]
  have hcorrelation : envelope.correlationId = encoded.correlationId := by rw [h.envelope_eq]
  have hoperation : envelope.operationId = encoded.operationId := by rw [h.envelope_eq]
  have hresult : encoded = ⟨request.actor, ⟨encoded.message.address, encoded.message.messageId,
      encoded.message.payload, [], some encoded.correlationId, none⟩, encoded.operationId,
      encoded.correlationId, encoded.fingerprint⟩ := by
    have hpayload : encoded.message.payload =
        canonicalSerialize (envelope.toJson RoutedCommand.toJson) := by
      rw [h.command]
    rw [hpayload]
    exact h.command
  rw [EncodedCommand.fromDelivery, h.readEnvelope hdepth]
  rw [hactor] at hfingerprint
  simp only [bind, Except.bind, hmessage, Except.mapError, hactor, hfingerprint, hcorrelation,
    hoperation]
  exact congrArg Except.ok hresult.symm

/-- The message is accepted by a processor of the bus's context. -/
theorem validateCommand [Crates.Lawful] (h : Encodes bus request encoded envelope)
    (hdepth : request.payload.Fits 125) :
    ∃ result, Runtime.validateCommand encoded bus.context.name = .ok result := by
  have henvelope := h.envelope_eq
  obtain ⟨hcontext, hname⟩ := h.address_parts
  have hfingerprint : routedCommandExecutionFingerprint encoded.message.address.context
      request.routed.canonical envelope.actor = encoded.fingerprint := by
    rw [hcontext, fingerprint_canonical, h.fingerprint, henvelope]
  have hmessageId : commandMessageId encoded.message.address envelope.operationId
      encoded.fingerprint envelope.correlationId envelope.causationId =
        .ok encoded.message.messageId := by
    rw [henvelope]
    exact h.messageId
  have hconsistent : Consistent encoded { envelope with payload := request.routed.canonical }
      encoded.fingerprint encoded.message.messageId := by
    refine ⟨?_, rfl, ?_, ?_, ?_, h.schemaVersion, hname, rfl, ?_⟩
    · rw [henvelope]
    · rw [henvelope]
    · rw [henvelope]
    · rw [h.command, henvelope]
      rintro outer ⟨⟩
      rfl
    · rw [h.command, henvelope]
  have hoperation : CheckedString.new envelope.operationId.value = .ok request.operationId := by
    rw [henvelope]
    exact h.operation ▸ CheckedString.new_value request.operationId
  obtain ⟨causation, hcausation⟩ : ∃ c, eventCausation encoded
      { envelope with payload := request.routed.canonical } = .ok c := by
    obtain ⟨own, hown⟩ := @new_of_identifier _ "causation_id" encoded.message.messageId
    simp only [eventCausation, hown]
    split
    · exact ⟨own, rfl⟩
    · split
      · next c _ => exact ⟨c, rfl⟩
      · exact ⟨own, rfl⟩
  rw [Runtime.validateCommand, rejectIf_of_not (not_not.mpr hcontext), h.readEnvelope hdepth]
  simp only [bind, Except.bind, hfingerprint, hmessageId, Except.mapError,
    rejectIf_of_not (not_not.mpr hconsistent), hoperation, hcausation]
  exact ⟨_, rfl⟩

end Encodes

/-! ## Delivery -/

/-- Requests that differ in the creation time and in the order of the payload's keys. -/
structure SameCommand (r r' : DynamicCommandRequest) : Prop where
  actor : r.actor = r'.actor
  operationId : r.operationId = r'.operationId
  command : r.command = r'.command
  schemaVersion : r.schemaVersion = r'.schemaVersion
  payload : Json.Reordered r.payload r'.payload
  correlationId : r.correlationId = r'.correlationId
  causationId : r.causationId = r'.causationId
  eventsCausedByCommand : r.eventsCausedByCommand = r'.eventsCausedByCommand

variable {bus : CommandBus}

/-- The same command has the same fingerprint and the same message id. -/
theorem identity_of_sameCommand [Crates.Compact] {r r' : DynamicCommandRequest}
    {e e' : EncodedCommand} {envelope envelope' : CommandEnvelope RoutedCommand}
    (h : Encodes bus r e envelope) (h' : Encodes bus r' e' envelope') (hsame : SameCommand r r') :
    e'.message.messageId = e.message.messageId ∧ e'.fingerprint = e.fingerprint := by
  have hpayload := canonicalJsonBytes_eq_of_reordered r.payload_distinct hsame.payload
  have hfingerprint : e'.fingerprint = e.fingerprint := by
    rw [h.fingerprint, h'.fingerprint]
    simp only [routedCommandExecutionFingerprint, executionParts, DynamicCommandRequest.routed,
      hsame.actor, hsame.command, hsame.schemaVersion, hpayload, hsame.eventsCausedByCommand]
  have haddress : e'.message.address = e.message.address := by
    have := h'.address
    rw [← hsame.command, h.address] at this
    exact (Except.ok.inj this).symm
  have hoperation : e'.operationId = e.operationId :=
    CheckedString.ext (by rw [h.operation, h'.operation, hsame.operationId])
  have hcorrelation : e'.correlationId = e.correlationId := by
    have hc := h.correlation
    have hc' := h'.correlation
    rw [← hsame.correlationId] at hc'
    cases hrequest : r.correlationId with
    | some correlation =>
      rw [hrequest] at hc hc'
      exact hc'.trans hc.symm
    | none =>
      rw [hrequest] at hc hc'
      exact CheckedString.ext (hc'.trans (hsame.operationId ▸ hc.symm))
  have hmessageId := h'.messageId
  rw [haddress, hoperation, hfingerprint, hcorrelation, ← hsame.causationId, h.messageId]
    at hmessageId
  exact ⟨(Except.ok.inj hmessageId).symm, hfingerprint⟩

/-- A command with a payload that the reader can nest is validated and delivered as it was encoded,
and its identities do not depend on the creation time or on the order of keys. -/
theorem encodeDynamic_delivered [Crates.Lawful] [Crates.Compact] {clock : Int}
    {request : DynamicCommandRequest} {encoded : EncodedCommand}
    (h : bus.encodeDynamic clock request = .ok encoded) :
    (request.payload.Fits 125 →
      (∃ result, validateCommand encoded bus.context.name = .ok result) ∧
        EncodedCommand.fromDelivery encoded.message.address encoded.message.messageId
          encoded.message.payload = .ok encoded) ∧
      ∀ clock' request' encoded', SameCommand request request' →
        bus.encodeDynamic clock' request' = .ok encoded' →
          encoded'.message.messageId = encoded.message.messageId ∧
            encoded'.fingerprint = encoded.fingerprint := by
  obtain ⟨envelope, hencodes⟩ := encodes_of_encodeDynamic h
  refine ⟨fun hdepth => ⟨hencodes.validateCommand hdepth, hencodes.fromDelivery hdepth⟩, ?_⟩
  intro clock' request' encoded' hsame h'
  obtain ⟨envelope', hencodes'⟩ := encodes_of_encodeDynamic h'
  exact identity_of_sameCommand hencodes hencodes' hsame

end Encoding

namespace Sample

attribute [local instance] Crates.concrete

/-- Nested arrays. -/
def nested : Nat → Json
  | 0 => .null
  | depth + 1 => .arr [nested depth]

theorem nested_distinct (depth : Nat) : (nested depth).Distinct := by
  induction depth with
  | zero => trivial
  | succ depth ih => exact Json.distinct_arr.mpr (by simpa using ih)

theorem nested_fits (depth : Nat) : (nested depth).Fits depth := by
  induction depth with
  | zero => trivial
  | succ depth ih => exact (Json.fits_arr depth _).mpr (by simpa using ih)

theorem shop_valid : validateScopeName "application name" "shop" = .ok () := by decide +kernel

theorem billing_valid : validateScopeName "bounded context name" "billing" = .ok () := by
  decide +kernel

theorem operation_valid : validate "operation id" 128 "op-1" = .ok () := by decide +kernel

theorem one_le_maxUnixTimestamp : 1 ≤ maxUnixTimestampMilliseconds := by decide

def bus : CommandBus where
  context := ⟨⟨"shop", shop_valid⟩, .normal, ⟨"billing", billing_valid⟩⟩
  maximumPayloadLen := maxMessagePayloadBytes

/-- A request with a nested payload, by an actor or by none. -/
def request (depth : Nat) (actor : Option ActorRef) : DynamicCommandRequest where
  actor := actor
  operationId := ⟨"op-1", operation_valid⟩
  command := "open-account"
  schemaVersion := 1
  payload := nested depth
  correlationId := none
  causationId := none
  createdAt := some ⟨1, one_le_maxUnixTimestamp⟩
  eventsCausedByCommand := false
  payload_distinct := nested_distinct depth
  payload_fits := ⟨depth, nested_fits depth⟩

theorem exists_ok {ε α : Type} {x : Except ε α} (h : x.isOk) : ∃ a, x = .ok a := by
  cases x with
  | error e => cases h
  | ok a => exact ⟨a, rfl⟩

/-- A payload of one array is delivered as it was encoded. -/
theorem encodeDynamic_delivered_array : ∃ encoded, bus.encodeDynamic 0 (request 1 none) = .ok encoded ∧
    EncodedCommand.fromDelivery encoded.message.address encoded.message.messageId
      encoded.message.payload = .ok encoded := by
  have := Crates.concrete_lawful
  have := Crates.concrete_compact
  obtain ⟨encoded, h⟩ := exists_ok (x := bus.encodeDynamic 0 (request 1 none)) (by decide +kernel)
  exact ⟨encoded, h, ((encodeDynamic_delivered h).1 ((nested_fits 1).mono (by decide))).2⟩

theorem le_of_nested_fits {depth d : Nat} (h : (nested depth).Fits d) : depth ≤ d := by
  induction depth generalizing d with
  | zero => omega
  | succ depth ih =>
    cases d with
    | zero => exact h.elim
    | succ d =>
      have := ih ((Json.fits_arr d _).mp h (nested depth) (by simp))
      omega

/-- The parser does not read a message with a payload that is nested too deep. -/
theorem fits_of_readEnvelope {bus : CommandBus} {r : DynamicCommandRequest} {e : EncodedCommand}
    {envelope read : CommandEnvelope RoutedCommand} (h : Encodes bus r e envelope)
    (hread : readEnvelope e.message.payload = .ok read) : r.payload.Fits 125 := by
  have := Crates.concrete_compact
  obtain ⟨depth, hdepth⟩ := r.payload_fits
  have hpayload : envelope.payload = r.routed := by rw [h.envelope_eq]
  have hfits : (envelope.toJson RoutedCommand.toJson).canonical.Fits (depth + 2) := by
    rw [Json.fits_canonical]
    refine CommandEnvelope.fits_toJson ?_
    rw [hpayload]
    exact RoutedCommand.fits_toJson hdepth
  rw [readEnvelope, h.payload_eq, Crates.concrete_fromSlice, okOr_eq_ok,
    Option.bind_eq_some_iff] at hread
  obtain ⟨document, hparse, -⟩ := hread
  have hdocument := Json.fits_of_parse_print hfits hparse
  rw [Json.fits_canonical] at hdocument
  have hrouted : r.routed.toJson.Fits 126 := hdocument ("payload", r.routed.toJson)
    (List.mem_filterMap.mpr ⟨("payload", some r.routed.toJson), by
      simp [CommandEnvelope.fields, hpayload], rfl⟩)
  exact hrouted ("payload", r.payload) (List.mem_filterMap.mpr ⟨("payload", some r.payload), by
    simp [RoutedCommand.fields, DynamicCommandRequest.routed], rfl⟩)

/-- A payload of 126 nested arrays is encoded, but the message is neither validated nor delivered. -/
theorem nested_payload_refused : ∃ encoded, bus.encodeDynamic 0 (request 126 none) = .ok encoded ∧
    (∀ result, validateCommand encoded bus.context.name ≠ .ok result) ∧
      EncodedCommand.fromDelivery encoded.message.address encoded.message.messageId
        encoded.message.payload ≠ .ok encoded := by
  obtain ⟨encoded, h⟩ := exists_ok (x := bus.encodeDynamic 0 (request 126 none)) (by decide +kernel)
  obtain ⟨envelope, hencodes⟩ := encodes_of_encodeDynamic h
  have hrefused : ∀ read, readEnvelope encoded.message.payload ≠ .ok read := fun read hread =>
    absurd (le_of_nested_fits (fits_of_readEnvelope hencodes hread)) (by decide)
  refine ⟨encoded, h, fun result hresult => ?_, fun hresult => ?_⟩
  · simp only [validateCommand, bind_eq_ok] at hresult
    obtain ⟨-, -, read, hread, -⟩ := hresult
    exact hrefused read hread
  · simp only [EncodedCommand.fromDelivery, bind_eq_ok] at hresult
    obtain ⟨read, hread, -⟩ := hresult
    exact hrefused read hread

end Sample

end Rostfrei.Runtime
