import Rostfrei.Core.Outcome
import Rostfrei.Lib.JsonOrder
import Rostfrei.Messaging.Address

/-!
# Messages and command envelopes

The values of `rostfrei-messaging-core` that a command carries: identifiers, versions, timestamps,
the outbound message and the envelope around a payload. The envelope's text is bounded when it is
built and when it is read, and a reader ignores fields it does not know.

An envelope is written with its fields in any order: `CommandEnvelope.ofJson?_canonical` reads back
the canonical document of an envelope, whatever its payload is read back as.
-/

namespace Rostfrei.Messaging

open Lib

/-! ## Values -/

abbrev MessageId := CheckedString (validateIdentifier "message_id")
abbrev OperationId := CheckedString (validateIdentifier "operation_id")

/-- A schema version is not zero. -/
structure SchemaVersion where
  get : UInt32
  ne_zero : get ≠ 0

theorem SchemaVersion.get_inj {a b : SchemaVersion} : a.get = b.get ↔ a = b := by
  cases a
  cases b
  rw [mk.injEq]

instance : DecidableEq SchemaVersion := fun _ _ => decidable_of_iff _ SchemaVersion.get_inj

theorem SchemaVersion.one_ne_zero : (1 : UInt32) ≠ 0 := by decide

/-- `SchemaVersion::new`. -/
def SchemaVersion.new (value : UInt32) : Except ContractError SchemaVersion :=
  if h : value = 0 then .error ⟨.outOfRange, "schema_version", none, none⟩ else .ok ⟨value, h⟩

@[simp] theorem SchemaVersion.new_get (v : SchemaVersion) : SchemaVersion.new v.get = .ok v := by
  simp [SchemaVersion.new, v.ne_zero]

theorem SchemaVersion.get_of_new {value : UInt32} {v : SchemaVersion}
    (h : SchemaVersion.new value = .ok v) : v.get = value := by
  unfold SchemaVersion.new at h
  split at h
  · cases h
  · cases h
    rfl

def maxUnixTimestampMilliseconds : Nat := 253402300799999

/-- Milliseconds of the Unix epoch, up to the end of the year 9999. -/
structure MessageTimestamp where
  unixMilliseconds : Nat
  le_max : unixMilliseconds ≤ maxUnixTimestampMilliseconds
deriving DecidableEq

/-- `MessageTimestamp::from_unix_milliseconds`. -/
def MessageTimestamp.fromUnixMilliseconds (value : Nat) : Except ContractError MessageTimestamp :=
  if h : value > maxUnixTimestampMilliseconds then .error ⟨.outOfRange, "timestamp", none, none⟩
  else .ok ⟨value, by omega⟩

@[simp] theorem MessageTimestamp.fromUnixMilliseconds_self (t : MessageTimestamp) :
    fromUnixMilliseconds t.unixMilliseconds = .ok t := by
  simp [fromUnixMilliseconds, Nat.not_lt.mpr t.le_max]

/-! ## Outbound messages -/

inductive MessageBuildErrorKind where
  | serialization
  | payloadTooLarge
  | invalidMaximum
deriving DecidableEq, Repr

structure MessageBuildError where
  kind : MessageBuildErrorKind
  actual : Option Nat := none
  maximum : Option Nat := none
deriving DecidableEq, Repr

/-- The `Display` text. -/
def MessageBuildError.toString (e : MessageBuildError) : String :=
  match e.kind with
  | .serialization => "message serialization failed"
  | .payloadTooLarge => "message payload is too large"
  | .invalidMaximum => "message payload maximum is invalid"

def maxMessagePayloadBytes : Nat := 1024 * 1024

structure TraceContext where
  traceParent : String
  traceState : Option String
deriving DecidableEq, Repr

/-- A message to be published. The caller's metadata are entries sorted by name; the command bus
sets neither them nor a trace context. -/
structure OutboundMessage where
  address : CommandAddress
  messageId : MessageId
  payload : Bytes
  metadata : List (String × String)
  correlationId : Option CorrelationId
  traceContext : Option TraceContext
deriving DecidableEq

/-- `OutboundMessage::new`. -/
def OutboundMessage.new (address : CommandAddress) (messageId : MessageId) (payload : Bytes) :
    Except MessageBuildError OutboundMessage := do
  rejectIf (payload.length > maxMessagePayloadBytes)
    ⟨.payloadTooLarge, some payload.length, some maxMessagePayloadBytes⟩
  return ⟨address, messageId, payload, [], none, none⟩

/-! ## Command envelopes -/

/-- The canonical document of an actor is read back. -/
theorem ActorRef.ofJson?_canonical (a : ActorRef) : ActorRef.ofJson? a.toJson.canonical = some a := by
  have hnew : ActorRef.new a.ns.value a.id.value = .ok a := by
    simp [ActorRef.new]
  have hnodup : ([("namespace", Json.str a.ns.value), ("id", .str a.id.value)].map
      Prod.fst).Nodup := ActorRef.keys_nodup
  unfold ActorRef.ofJson? ActorRef.toJson
  rw [@Json.struct?_canonical ActorRef.keys _ hnodup fun _ h => h, Option.bind_eq_bind,
    Option.bind_some]
  simp only [Json.required, Json.lookup_canonical hnodup]
  simp (disch := decide) only [List.lookup_cons_self, Json.lookup_cons_of_ne, Option.map_some,
    Json.canonical_str]
  simp [hnew, Except.toOption]

def maxEnvelopeBytes : Nat := 1024 * 1024

structure EnvelopeContext where
  messageId : MessageId
  schemaVersion : SchemaVersion
  correlationId : CorrelationId
  causationId : Option CausationId

/-- The metadata version is written with an actor, and only then. -/
structure CommandEnvelope (α : Type) where
  messageId : MessageId
  operationId : OperationId
  schemaVersion : SchemaVersion
  createdAt : MessageTimestamp
  correlationId : CorrelationId
  causationId : Option CausationId
  payload : α
  metadataVersion : Option UInt16
  actor : Option ActorRef

namespace CommandEnvelope

variable {α : Type}

def fields (enc : α → Json) (e : CommandEnvelope α) : List (String × Option Json) :=
  [("message_id", some (.str e.messageId.value)),
    ("operation_id", some (.str e.operationId.value)),
    ("schema_version", some (.num e.schemaVersion.get.toNat)),
    ("created_at", some (.num e.createdAt.unixMilliseconds)),
    ("correlation_id", some (.str e.correlationId.value)),
    ("causation_id", e.causationId.map fun c => .str c.value),
    ("payload", some (enc e.payload)),
    ("metadata_version", e.metadataVersion.map fun v => .num v.toNat),
    ("actor", e.actor.map ActorRef.toJson)]

def toJson (enc : α → Json) (e : CommandEnvelope α) : Json := .obj (Json.sparse (e.fields enc))

def keys : List String :=
  ["message_id", "operation_id", "schema_version", "created_at", "correlation_id", "causation_id",
    "payload", "metadata_version", "actor"]

/-- `checked_actor`. -/
def checkedActor (version : Option UInt16) (actor : Option ActorRef) : Option (Option ActorRef) :=
  match version, actor with
  | none, none => some none
  | some version, none => if version = 1 then some none else none
  | some version, some actor => if version = 2 then some (some actor) else none
  | none, some _ => none

/-- A checked string of a document. -/
def checked? {ε : Type} {check : String → Except ε Unit} (j : Json) :
    Option (CheckedString check) :=
  j.str?.bind fun s => (CheckedString.new s).toOption

theorem keys_nodup : keys.Nodup := by decide

@[simp] theorem checked?_str {ε : Type} {check : String → Except ε Unit} (x : CheckedString check) :
    checked? (.str x.value) = some x := by
  simp [checked?, Except.toOption]

/-- An envelope has the metadata version that goes with its actor. -/
def Versioned (e : CommandEnvelope α) : Prop := e.metadataVersion = e.actor.map fun _ => 2

theorem checkedActor_of_versioned {e : CommandEnvelope α} (h : e.Versioned) :
    checkedActor e.metadataVersion e.actor = some e.actor := by
  rw [h]
  cases e.actor <;> rfl

theorem distinct_toJson {enc : α → Json} {e : CommandEnvelope α}
    (h : (enc e.payload).Distinct) : (e.toJson enc).Distinct := by
  have hactor : ∀ a : ActorRef, a.toJson.Distinct := fun a =>
    Json.distinct_obj.mpr ⟨ActorRef.keys_nodup, by simp [Json.Distinct]⟩
  refine Json.distinct_sparse keys_nodup ?_
  simp only [fields, List.forall_mem_cons, List.not_mem_nil, false_imp_iff, implies_true, and_true,
    Option.mem_def, Option.some.injEq, forall_eq', Option.map_eq_some_iff, forall_exists_index,
    and_imp, forall_apply_eq_imp_iff₂, Json.Distinct, hactor, h, true_and]

/-- The payload is one level below the envelope; an actor is an object, too. -/
theorem fits_toJson {enc : α → Json} {e : CommandEnvelope α} {d : Nat}
    (h : (enc e.payload).Fits (d + 1)) : (e.toJson enc).Fits (d + 2) := by
  have hschema := e.schemaVersion.get.toNat_lt
  have htime := e.createdAt.le_max
  have hversion : ∀ v : UInt16, v.toNat < 2 ^ 64 := fun v => by
    have := v.toNat_lt
    omega
  refine Json.fits_sparse ?_
  simp only [fields, List.forall_mem_cons, List.not_mem_nil, false_imp_iff, implies_true, and_true,
    Option.mem_def, Option.some.injEq, forall_eq', Option.map_eq_some_iff, forall_exists_index,
    and_imp, forall_apply_eq_imp_iff₂, Json.fits_str, Json.fits_num, ActorRef.fits_toJson, h,
    hversion, true_and]
  unfold maxUnixTimestampMilliseconds at htime
  exact ⟨by omega, by omega⟩

/-- Payloads with one canonical form give envelopes with one canonical form. -/
theorem canonical_toJson_congr {enc : α → Json} {e : CommandEnvelope α} {x : α}
    (h : (enc x).canonical = (enc e.payload).canonical) :
    (toJson enc { e with payload := x }).canonical = (e.toJson enc).canonical := by
  refine Json.canonical_sparse_congr ?_
  simp [fields, h]

section Size

variable [Crates]

/-- `validate_serialized_size`. -/
def validate (enc : α → Json) (e : CommandEnvelope α) : Except MessageBuildError Unit :=
  rejectIf ((toVec (e.toJson enc)).length > maxEnvelopeBytes)
    ⟨.payloadTooLarge, some (toVec (e.toJson enc)).length, some maxEnvelopeBytes⟩

/-- `CommandEnvelope::new`. -/
def new (enc : α → Json) (context : EnvelopeContext) (operationId : OperationId)
    (createdAt : MessageTimestamp) (payload : α) : Except MessageBuildError (CommandEnvelope α) := do
  let envelope : CommandEnvelope α :=
    ⟨context.messageId, operationId, context.schemaVersion, createdAt, context.correlationId,
      context.causationId, payload, none, none⟩
  envelope.validate enc
  return envelope

/-- `CommandEnvelope::with_actor`. -/
def withActor (enc : α → Json) (e : CommandEnvelope α) (actor : ActorRef) :
    Except MessageBuildError (CommandEnvelope α) := do
  let envelope := { e with metadataVersion := some 2, actor := some actor }
  envelope.validate enc
  return envelope

/-- An envelope, with the actor if there is one. -/
def build (enc : α → Json) (context : EnvelopeContext) (operationId : OperationId)
    (createdAt : MessageTimestamp) (payload : α) (actor : Option ActorRef) :
    Except MessageBuildError (CommandEnvelope α) := do
  let envelope ← new enc context operationId createdAt payload
  match actor with
  | some actor => envelope.withActor enc actor
  | none => return envelope

/-- The derived reader of `CommandEnvelopeWire`, and the checks after it. -/
def ofJson? (enc : α → Json) (dec : Json → Option α) (j : Json) : Option (CommandEnvelope α) := do
  let fields ← j.openStruct? keys
  let messageId ← Json.required fields "message_id" checked?
  let operationId ← Json.required fields "operation_id" checked?
  let schemaVersion ← Json.required fields "schema_version" fun j =>
    j.uint32?.bind fun n => (SchemaVersion.new n).toOption
  let createdAt ← Json.required fields "created_at" fun j =>
    (j.uint? (2 ^ 64)).bind fun n => (MessageTimestamp.fromUnixMilliseconds n).toOption
  let correlationId ← Json.required fields "correlation_id" checked?
  let causationId ← Json.optional fields "causation_id" checked?
  let payload ← Json.required fields "payload" dec
  let metadataVersion ← Json.present fields "metadata_version" Json.uint16?
  let actor ← Json.present fields "actor" ActorRef.ofJson?
  let actor ← checkedActor metadataVersion actor
  (build enc ⟨messageId, schemaVersion, correlationId, causationId⟩ operationId createdAt payload
    actor).toOption

/-! ## Reading back -/

/-- What is built: the envelope of the arguments, whose text is bounded with and without its
actor. -/
theorem build_eq_ok {enc : α → Json} {context : EnvelopeContext} {operationId : OperationId}
    {createdAt : MessageTimestamp} {payload : α} {actor : Option ActorRef} {e : CommandEnvelope α} :
    build enc context operationId createdAt payload actor = .ok e ↔
      e = ⟨context.messageId, operationId, context.schemaVersion, createdAt, context.correlationId,
          context.causationId, payload, actor.map fun _ => 2, actor⟩ ∧
        (toVec (toJson enc { e with metadataVersion := none, actor := none })).length ≤
            maxEnvelopeBytes ∧
          (toVec (e.toJson enc)).length ≤ maxEnvelopeBytes := by
  simp only [build, new, bind_assoc, pure_bind]
  cases actor with
  | none =>
    simp only [validate, bind_unit_eq_ok, rejectIf_eq_ok, pure_eq_ok, Nat.not_lt, Option.map_none]
    constructor
    · rintro ⟨hsize, rfl⟩
      exact ⟨rfl, hsize, hsize⟩
    · rintro ⟨rfl, -, hsize⟩
      exact ⟨hsize, rfl⟩
  | some actor =>
    simp only [withActor, validate, bind_unit_eq_ok, rejectIf_eq_ok, pure_eq_ok, Nat.not_lt,
      Option.map_some]
    constructor
    · rintro ⟨hsize, hsize', rfl⟩
      exact ⟨rfl, hsize, hsize'⟩
    · rintro ⟨rfl, hsize, hsize'⟩
      exact ⟨hsize, hsize', rfl⟩

/-- The canonical document of an envelope is read back as the envelope of what its payload is read
back as. -/
theorem ofJson?_canonical {enc : α → Json} {dec : Json → Option α} {e e' : CommandEnvelope α}
    {x : α} (hversioned : e.Versioned) (hdec : dec (enc e.payload).canonical = some x)
    (hbuild : build enc ⟨e.messageId, e.schemaVersion, e.correlationId, e.causationId⟩
      e.operationId e.createdAt x e.actor = .ok e') :
    ofJson? enc dec (e.toJson enc).canonical = some e' := by
  have hnodup : ((Json.sparse (e.fields enc)).map Prod.fst).Nodup :=
    keys_nodup.sublist (Json.map_fst_sparse (e.fields enc))
  have hlookup : ∀ key, ((Json.sortByKey (Json.sparse (e.fields enc))).map
      fun f => (f.1, f.2.canonical)).lookup key =
        ((e.fields enc).lookup key).join.map Json.canonical := fun key => by
    rw [Json.lookup_canonical hnodup, Json.lookup_sparse (show ((e.fields enc).map _).Nodup from
      keys_nodup)]
  have hcausation : Json.optionalOf checked? ((e.causationId.map fun c => Json.str c.value).map
      Json.canonical) = some e.causationId := by
    rw [Option.map_map]
    exact Json.optionalOf_map e.causationId (fun c _ => by simp) fun _ => by simp
  have hversion : Json.presentOf Json.uint16? ((e.metadataVersion.map fun v => Json.num v.toNat).map
      Json.canonical) = some e.metadataVersion := by
    rw [Option.map_map]
    exact Json.presentOf_map e.metadataVersion fun v _ => by simp
  have hactor : Json.presentOf ActorRef.ofJson? ((e.actor.map ActorRef.toJson).map
      Json.canonical) = some e.actor := by
    rw [Option.map_map]
    exact Json.presentOf_map e.actor fun a _ => ActorRef.ofJson?_canonical a
  have htime : Json.uint? (2 ^ 64) (.num e.createdAt.unixMilliseconds) =
      some e.createdAt.unixMilliseconds :=
    Json.uint?_num (Nat.lt_of_le_of_lt e.createdAt.le_max (by decide))
  unfold ofJson? toJson
  rw [Json.openStruct?_canonical hnodup, Option.bind_eq_bind, Option.bind_some]
  simp only [Json.required, Json.optional, Json.present, hlookup]
  simp (disch := decide) only [fields, List.lookup_cons_self, Json.lookup_cons_of_ne,
    Option.join_some, Option.map_some, Option.bind_some, Json.canonical_str, Json.canonical_num,
    checked?_str, Json.uint32?_num, htime, SchemaVersion.new_get,
    MessageTimestamp.fromUnixMilliseconds_self, Except.toOption, hcausation, hdec, hversion, hactor,
    Option.bind_eq_bind, checkedActor_of_versioned hversioned, hbuild]

end Size

end CommandEnvelope

/-! ## Integration event envelopes -/

structure IntegrationEventEnvelope (α : Type) where
  messageId : MessageId
  schemaVersion : SchemaVersion
  occurredAt : MessageTimestamp
  correlationId : CorrelationId
  causationId : Option CausationId
  payload : α
  metadataVersion : Option UInt16
  actor : Option ActorRef

namespace IntegrationEventEnvelope

variable {α : Type}

def toJson (enc : α → Json) (e : IntegrationEventEnvelope α) : Json :=
  .obj (Json.sparse
    [("message_id", some (.str e.messageId.value)),
      ("schema_version", some (.num e.schemaVersion.get.toNat)),
      ("occurred_at", some (.num e.occurredAt.unixMilliseconds)),
      ("correlation_id", some (.str e.correlationId.value)),
      ("causation_id", e.causationId.map fun c => .str c.value),
      ("payload", some (enc e.payload)),
      ("metadata_version", e.metadataVersion.map fun v => .num v.toNat),
      ("actor", e.actor.map ActorRef.toJson)])

def keys : List String :=
  ["message_id", "schema_version", "occurred_at", "correlation_id", "causation_id", "payload",
    "metadata_version", "actor"]

/-- The derived reader of `IntegrationEventEnvelopeWire`, and the checks after it: the text of the
envelope is bounded without and with its actor. -/
def ofJson? [Crates] (enc : α → Json) (dec : Json → Option α) (j : Json) :
    Option (IntegrationEventEnvelope α) := do
  let fields ← j.openStruct? keys
  let messageId ← Json.required fields "message_id" CommandEnvelope.checked?
  let schemaVersion ← Json.required fields "schema_version" fun j =>
    j.uint32?.bind fun n => (SchemaVersion.new n).toOption
  let occurredAt ← Json.required fields "occurred_at" fun j =>
    (j.uint? (2 ^ 64)).bind fun n => (MessageTimestamp.fromUnixMilliseconds n).toOption
  let correlationId ← Json.required fields "correlation_id" CommandEnvelope.checked?
  let causationId ← Json.optional fields "causation_id" CommandEnvelope.checked?
  let payload ← Json.required fields "payload" dec
  let metadataVersion ← Json.present fields "metadata_version" Json.uint16?
  let actor ← Json.present fields "actor" ActorRef.ofJson?
  let actor ← CommandEnvelope.checkedActor metadataVersion actor
  let bare : IntegrationEventEnvelope α :=
    ⟨messageId, schemaVersion, occurredAt, correlationId, causationId, payload, none, none⟩
  let full := { bare with metadataVersion := actor.map fun _ => 2, actor := actor }
  if (toVec (bare.toJson enc)).length > maxEnvelopeBytes ∨
      (toVec (full.toJson enc)).length > maxEnvelopeBytes then none
  else some full

end IntegrationEventEnvelope

end Rostfrei.Messaging
