import Rostfrei.Messaging.Envelope

/-!
# Deliveries

What a handler of messages is given and what it answers: the metadata and the trace context of
`metadata.rs`, `parse_address` of `address.rs`, and `MessageDelivery` and `DeliveryDisposition` of
`consume.rs`, all of `rostfrei-messaging-core`.
-/

namespace Rostfrei.Messaging

open Lib

/-! ## Metadata -/

def maxMetadataEntries : Nat := 32
def maxMetadataNameBytes : Nat := 64
def maxMetadataValueBytes : Nat := 1024
def maxMetadataBytes : Nat := 8192
def maxTraceStateBytes : Nat := 512

def reservedNames : List String :=
  ["content-type", "reply", "reply-to", "reply-subject", "traceparent", "tracestate"]

/-- `to_ascii_lowercase`. -/
def toAsciiLowercase (text : String) : String := String.ofList (text.toList.map Char.toLower)

/-- `starts_with`. -/
def startsWith (text start : String) : Bool := start.toList.isPrefixOf text.toList

def isAscii (text : String) : Bool := text.toList.all fun c => c.toNat < 128

/-- `validate_name`. -/
def validateName (name : String) : Except ContractError String := do
  rejectIf (name = "") ⟨.empty, "metadata name", none, none⟩
  rejectIf (strLen name > maxMetadataNameBytes)
    (.bounded .tooLong "metadata name" (strLen name) maxMetadataNameBytes)
  rejectIf (name.toList.any isControl) ⟨.controlCharacter, "metadata name", none, none⟩
  rejectIf (¬ name.toList.all (fun c => c.isAlphanum || c == '-') ∨ name.toList.head? = some '-' ∨
      name.toList.getLast? = some '-')
    ⟨.invalidFormat, "metadata name", none, none⟩
  let lower := toAsciiLowercase name
  rejectIf (startsWith lower "nats-" ∨ startsWith lower "rostfrei-control-" ∨ lower ∈ reservedNames)
    ⟨.reserved, "metadata name", none, none⟩
  return lower

/-- `validate_value`. -/
def validateValue (value : String) : Except ContractError Unit := do
  rejectIf (strLen value > maxMetadataValueBytes)
    (.bounded .tooLong "metadata value" (strLen value) maxMetadataValueBytes)
  rejectIf (value.toList.any isControl) ⟨.controlCharacter, "metadata value", none, none⟩
  rejectIf (¬ isAscii value) ⟨.invalidFormat, "metadata value", none, none⟩

/-- `CallerMetadata`: entries in the order of their names. -/
abbrev CallerMetadata := List (String × String)

namespace CallerMetadata

/-- `BTreeMap::insert`. -/
def insertEntry (name value : String) : CallerMetadata → CallerMetadata
  | [] => [(name, value)]
  | entry :: rest =>
    if name < entry.1 then (name, value) :: entry :: rest
    else if name = entry.1 then (name, value) :: rest
    else entry :: insertEntry name value rest

/-- `total_bytes`. -/
def totalBytes (metadata : CallerMetadata) : Nat :=
  (metadata.map fun entry => strLen entry.1 + strLen entry.2).sum

/-- `insert`. The sums of the source do not overflow, since the sizes are bounded. -/
def insert (metadata : CallerMetadata) (name value : String) :
    Except ContractError CallerMetadata := do
  let name ← validateName name
  validateValue value
  let existing := metadata.lookup name
  rejectIf (existing.isNone ∧ metadata.length + 1 > maxMetadataEntries)
    (.bounded .tooManyEntries "caller metadata" (metadata.length + 1) maxMetadataEntries)
  let replaced := existing.elim 0 fun old => strLen name + strLen old
  let projected := metadata.totalBytes - replaced + strLen name + strLen value
  rejectIf (projected > maxMetadataBytes)
    (.bounded .tooLong "caller metadata" projected maxMetadataBytes)
  return metadata.insertEntry name value

def toJson (metadata : CallerMetadata) : Json :=
  .obj (metadata.map fun entry => (entry.1, .str entry.2))

end CallerMetadata

/-! ## Trace contexts -/

/-- `valid_lower_hex`. -/
def validLowerHex (text : List Char) (length : Nat) : Bool :=
  text.length == length && text.all fun c => c.isDigit || ('a' ≤ c && c ≤ 'f')

/-- `all_zero`. -/
def allZero (text : List Char) : Bool := text.all (· == '0')

/-- The parts of a trace parent. -/
def exactShape : List (List Char) → Bool
  | [version, traceId, parentId, flags] =>
    version == ['0', '0'] && validLowerHex traceId 32 && !allZero traceId &&
      validLowerHex parentId 16 && !allZero parentId && validLowerHex flags 2
  | _ => false

/-- `validate_trace_parent`. -/
def validateTraceParent (value : String) : Except ContractError Unit :=
  rejectIf (¬ exactShape (value.toList.splitOn '-')) ⟨.invalidFormat, "traceparent", none, none⟩

/-- A member of a trace state: a key, an equals sign and a value. -/
def validTraceStateMember (member : List Char) : Bool :=
  let member := trim member
  let key := member.takeWhile (· != '=')
  let rest := member.dropWhile (· != '=')
  !key.isEmpty && rest.length > 1 &&
    key.all fun c => c.isLower || c.isDigit || c ∈ ['_', '-', '*', '/', '@']

/-- `validate_trace_state`. -/
def validateTraceState (value : String) : Except ContractError Unit := do
  rejectIf (value = "") (.bounded .empty "tracestate" 0 maxTraceStateBytes)
  rejectIf (strLen value > maxTraceStateBytes)
    (.bounded .tooLong "tracestate" (strLen value) maxTraceStateBytes)
  rejectIf (value.toList.any isControl) ⟨.controlCharacter, "tracestate", none, none⟩
  rejectIf (¬ isAscii value) ⟨.invalidFormat, "tracestate", none, none⟩
  let members := value.toList.splitOn ','
  rejectIf (members.length > 32 ∨ ¬ members.all validTraceStateMember)
    ⟨.invalidFormat, "tracestate", none, none⟩

namespace TraceContext

/-- `TraceContext::from_parts`. -/
def fromParts (traceParent : String) (traceState : Option String) :
    Except ContractError TraceContext := do
  validateTraceParent traceParent
  match traceState with
  | none => return ⟨traceParent, none⟩
  | some state =>
    validateTraceState state
    return ⟨traceParent, some state⟩

def toJson (context : TraceContext) : Json :=
  .obj (Json.sparse
    [("traceparent", some (.str context.traceParent)), ("tracestate", context.traceState.map .str)])

end TraceContext

/-! ## Parsing addresses -/

/-- The kind of a segment. -/
def AddressKind.ofSegment? : String → Option AddressKind
  | "command" => some .command
  | "command-response" => some .commandResponse
  | "integration" => some .integrationEvent
  | "query" => some .query
  | _ => none

/-- The application, the segment of the kind, the context and the name of an address. -/
def addressParts : List (List Char) → Option (String × String × String × String)
  | [application, kind, context, name] =>
    if kind = "test".toList then none
    else some (.ofList application, .ofList kind, .ofList context, .ofList name)
  | [application, test, kind, context, name] =>
    if test = "test".toList then
      some (.ofList application, .ofList kind, .ofList context, .ofList name)
    else none
  | _ => none

/-- `parse_address_parts`. -/
def parseAddressParts (value : String) : Except ContractError AddressKind := do
  rejectIf (value = "") ⟨.empty, "address", none, none⟩
  rejectIf (strLen value > maxAddressBytes)
    (.bounded .tooLong "address" (strLen value) maxAddressBytes)
  rejectIf (value.toList.any fun c => c == '*' || c == '>') ⟨.wildcard, "address", none, none⟩
  rejectIf (value.toList.any isControl) ⟨.controlCharacter, "address", none, none⟩
  let (application, segment, context, name) ←
    okOr ⟨.invalidFormat, "address", none, none⟩ (addressParts (value.toList.splitOn '.'))
  let kind ← okOr ⟨.wrongAddressKind, "address", none, none⟩ (AddressKind.ofSegment? segment)
  validateScopeName "address application" application
  validateScopeName "address context" context
  validateAddressName name
  return kind

/-- `parse_address`. -/
def parseAddress (value : String) (expected : AddressKind) : Except ContractError Unit := do
  let kind ← parseAddressParts value
  rejectIf (kind ≠ expected) ⟨.wrongAddressKind, "address", none, none⟩

theorem AddressKind.segment_of_ofSegment? {text : String} {kind : AddressKind}
    (h : AddressKind.ofSegment? text = some kind) : text = kind.segment := by
  unfold AddressKind.ofSegment? at h
  split at h <;> cases h <;> rfl

/-- The parts of a text, joined again. -/
theorem addressParts_eq_some {value application segment context name : String}
    (h : addressParts (value.toList.splitOn '.') = some (application, segment, context, name))
    {kind : AddressKind} (hkind : segment = kind.segment) :
    ∃ scope, value = addressText kind application scope context name := by
  have hvalue : ∀ {scope : TrafficScope}, value.toList.splitOn '.' =
      (builtSegments kind application scope context name).map String.toList →
      value = addressText kind application scope context name := by
    intro scope hsplit
    refine String.toList_injective ?_
    rw [toList_addressText, ← hsplit, List.intercalate_splitOn]
  unfold addressParts at h
  split at h
  · next a k c n heq =>
    split at h
    · cases h
    simp only [Option.some.injEq, Prod.mk.injEq] at h
    obtain ⟨rfl, rfl, rfl, rfl⟩ := h
    exact ⟨.normal, hvalue (by simp [heq, builtSegments, TrafficScope.subjectSegment, ← hkind])⟩
  · next a t k c n heq =>
    split at h
    · next htest =>
      simp only [Option.some.injEq, Prod.mk.injEq] at h
      obtain ⟨rfl, rfl, rfl, rfl⟩ := h
      exact ⟨.test, hvalue (by
        simp [heq, htest, builtSegments, TrafficScope.subjectSegment, ← hkind])⟩
    · cases h
  · cases h

/-- A text that parses is one that is built. -/
theorem built_of_parseAddress {value : String} {kind : AddressKind}
    (h : parseAddress value kind = .ok ()) :
    ∃ application scope context name, buildAddress kind application scope context name = .ok value := by
  simp only [parseAddress, parseAddressParts, bind_eq_ok, rejectIf_eq_ok, okOr_eq_ok, not_not,
    pure_eq_ok, exists_and_left, exists_const] at h
  obtain ⟨_, ⟨-, hlength, -, -, ⟨application, segment, context, name⟩, hparts, hrest⟩, rfl⟩ := h
  obtain ⟨kind, hkind, ⟨⟩, happlication, ⟨⟩, hcontext, ⟨⟩, hname, rfl⟩ := hrest
  obtain ⟨scope, rfl⟩ :=
    addressParts_eq_some hparts (AddressKind.segment_of_ofSegment? hkind)
  refine ⟨application, scope, context, name, ?_⟩
  simp only [buildAddress, bind_unit_eq_ok, pure_eq_ok, rejectIf_eq_ok]
  exact ⟨happlication, hcontext, hname, hlength, trivial⟩

/-- `parse` of each kind of address. -/
def Address.parse (kind : AddressKind) (value : String) : Except ContractError (Address kind) :=
  match h : parseAddress value kind with
  | .ok () => .ok ⟨value, built_of_parseAddress h⟩
  | .error e => .error e

/-! ## Deliveries -/

structure DeliveryInfo where
  attempt : Nat
  pending : Nat
  sourceSequence : Nat
  consumerSequence : Nat
deriving DecidableEq, Repr

/-- `DeliveryInfo::new`. -/
def DeliveryInfo.new (attempt pending sourceSequence consumerSequence : Nat) :
    Except ContractError DeliveryInfo := do
  rejectIf (attempt = 0) ⟨.outOfRange, "delivery attempt", none, none⟩
  rejectIf (sourceSequence = 0 ∨ consumerSequence = 0) ⟨.outOfRange, "delivery sequence", none, none⟩
  return ⟨attempt, pending, sourceSequence, consumerSequence⟩

structure MessageDelivery (A : Type) where
  address : A
  messageId : MessageId
  payload : Bytes
  metadata : CallerMetadata
  correlationId : Option CorrelationId
  traceContext : Option TraceContext
  info : DeliveryInfo
deriving DecidableEq

/-- `MessageDelivery::new_with_transport_context`. -/
def MessageDelivery.new {A : Type} (address : A) (messageId : MessageId) (payload : Bytes)
    (metadata : CallerMetadata) (correlationId : Option CorrelationId)
    (traceContext : Option TraceContext) (info : DeliveryInfo) :
    Except MessageBuildError (MessageDelivery A) := do
  rejectIf (payload.length > maxMessagePayloadBytes)
    ⟨.payloadTooLarge, some payload.length, some maxMessagePayloadBytes⟩
  return ⟨address, messageId, payload, metadata, correlationId, traceContext, info⟩

/-- The nanoseconds of `MAX_RETRY_DELAY`. -/
def maxRetryDelay : Nat := 24 * 60 * 60 * 1000000000

/-- `RetryDelay`, in nanoseconds. -/
structure RetryDelay where
  value : Nat
  pos : 0 < value
  le_max : value ≤ maxRetryDelay
deriving DecidableEq

def maxQuarantineReasonBytes : Nat := 512

/-- The check of `QuarantineReason::new`. -/
def validateQuarantineReason (value : String) : Except ContractError Unit := do
  rejectIf (value = "") ⟨.empty, "quarantine reason", none, none⟩
  rejectIf (strLen value > maxQuarantineReasonBytes)
    (.bounded .tooLong "quarantine reason" (strLen value) maxQuarantineReasonBytes)
  rejectIf (value.toList.any isControl) ⟨.controlCharacter, "quarantine reason", none, none⟩

abbrev QuarantineReason := CheckedString validateQuarantineReason

inductive DeliveryDisposition where
  | acknowledge
  | retryAfter (delay : RetryDelay)
  | quarantine (reason : QuarantineReason)
  | terminate
deriving DecidableEq

end Rostfrei.Messaging
