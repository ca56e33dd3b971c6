import Rostfrei.Executor.Handling

/-!
# Codecs for the history of events

The event sets that `aggregate_events` generates, and `EventCodecBuilder` of `event_codec.rs`: readers
of earlier schemas of an event (`Upcast`), which `build` collects in a table, after two passes of
checks. What the table has no reader for is read as the current JSON.
-/

namespace Rostfrei.Domain

open Lib

/-! ## Event sets -/

/-- A `DomainEvent` with its JSON form; an error is its text. -/
structure DomainEvent where
  Payload : Type
  localId : String
  schemaVersion : UInt32
  /-- `serde_json::to_vec`. -/
  toVec : Payload → Except String Bytes
  /-- `serde_json::from_slice`. -/
  fromSlice : Bytes → Except String Payload

/-- `__private::encode_json`. -/
def DomainEvent.encodeJson (e : DomainEvent) (payload : e.Payload) : Except EventCodecError Bytes :=
  (e.toVec payload).mapError fun message => ⟨.encodingFailed, message⟩

/-- `__private::decode_json`. -/
def DomainEvent.decodeJson (e : DomainEvent) (payload : Bytes) : Except EventCodecError e.Payload :=
  (e.fromSlice payload).mapError fun message => ⟨.malformedPayload, message⟩

/-- The variants of an event set; `assert_unique_event_ids` checks their ids. -/
structure EventSet where
  variants : List DomainEvent
  unique : (variants.map (·.localId)).Nodup

namespace EventSet

variable (set : EventSet)

def variant (i : Fin set.variants.length) : DomainEvent := set.variants[i]

/-- An event of the set: a variant and its payload. -/
abbrev Event : Type := Σ i : Fin set.variants.length, (set.variant i).Payload

def eventType (event : set.Event) : String := (set.variant event.1).localId

def schemaVersion (event : set.Event) : UInt32 := (set.variant event.1).schemaVersion

def encodeJson (event : set.Event) : Except EventCodecError Bytes :=
  (set.variant event.1).encodeJson event.2

/-- The tests for one variant after another. -/
def decodeFrom (recorded : RecordedEvent) :
    List (Fin set.variants.length) → Except EventCodecError set.Event
  | [] => .error ⟨.unknownEventType, "unknown event type " ++ recorded.eventType⟩
  | i :: rest =>
    if recorded.eventType = (set.variant i).localId then
      if recorded.schemaVersion ≠ (set.variant i).schemaVersion then
        .error ⟨.unsupportedSchemaVersion, "event type " ++ recorded.eventType ++
          " supports schema version " ++ toString (set.variant i).schemaVersion ++ ", not " ++
          toString recorded.schemaVersion⟩
      else ((set.variant i).decodeJson recorded.payload).map fun payload => ⟨i, payload⟩
    else decodeFrom recorded rest

/-- `Event::decode_json`. -/
def decodeJson (recorded : RecordedEvent) : Except EventCodecError set.Event :=
  set.decodeFrom recorded (List.finRange _)

/-- `EventVariant::event`. -/
def eventOf (i : Fin set.variants.length) (event : set.Event) : Option (set.variant i).Payload :=
  if h : event.1 = i then some (h ▸ event.2) else none

end EventSet

/-- An aggregate with an event set. -/
structure EventAggregate where
  events : EventSet
  boundedContext : String
  aggregateType : String
  State : Type
  initial : StreamId → State
  apply : State → events.Event → State

abbrev EventAggregate.toAggregate (A : EventAggregate) : Aggregate where
  boundedContext := A.boundedContext
  aggregateType := A.aggregateType
  State := A.State
  Event := A.events.Event
  initial := A.initial
  apply := A.apply
  eventType := A.events.eventType
  schemaVersion := A.events.schemaVersion
  encodeJson := A.events.encodeJson
  decodeJson := A.events.decodeJson

/-! ## Registrations -/

inductive EventCodecBuildError where
  | duplicateMapping (eventType : String) (schemaVersion : UInt32)
  | currentSchemaMapping (eventType : String) (schemaVersion : UInt32)
  | invalidSchemaVersion (eventType : String) (schemaVersion : UInt32)
  | renamedEvent (source target : String)
  | conflictingTarget (eventType : String) (first second : UInt32)
deriving DecidableEq, Repr

/-- The `Display` text. -/
def EventCodecBuildError.toString : EventCodecBuildError → String
  | duplicateMapping eventType schemaVersion =>
    s!"duplicate historical mapping for `{eventType}` schema {schemaVersion}"
  | currentSchemaMapping eventType schemaVersion =>
    s!"historical mapping would override current `{eventType}` schema {schemaVersion}"
  | invalidSchemaVersion eventType schemaVersion =>
    s!"event `{eventType}` has invalid schema {schemaVersion}; versions must be nonzero"
  | renamedEvent source target =>
    s!"cannot convert `{source}` to `{target}`: dispatch routes by the original event ID"
  | conflictingTarget eventType first second =>
    s!"event `{eventType}` has conflicting current schemas {first} and {second}"

/-- `record_context`. -/
def recordContext (event : RecordedEvent) (error : EventCodecError) : EventCodecError :=
  ⟨error.kind, "event `" ++ event.eventId.value ++ "` in `" ++ event.streamId.aggregateType.value ++
    ":" ++ event.streamId.aggregateId.value ++ "`: `" ++ event.eventType ++ "` schema " ++
    toString event.schemaVersion ++ ": " ++ error.message⟩

/-- `conversion_context`. -/
def conversionContext (current : DomainEvent) (event : RecordedEvent) (error : EventCodecError) :
    EventCodecError :=
  recordContext event ⟨error.kind, "conversion to `" ++ current.localId ++ "` schema " ++
    toString current.schemaVersion ++ ": " ++ error.message⟩

abbrev Decoder (set : EventSet) : Type := RecordedEvent → Except EventCodecError set.Event

abbrev Encoder (set : EventSet) : Type := set.Event → EventId → Except EventCodecError NewEvent

structure Mapping (set : EventSet) where
  source : String
  sourceVersion : UInt32
  target : String
  targetVersion : UInt32
  decode : Decoder set

/-- The arguments of `try_upcast`: an earlier form of an event, a variant of the set, and the
conversion between them. -/
structure Upcast (set : EventSet) where
  old : DomainEvent
  current : Fin set.variants.length
  convert : old.Payload → Except String (set.variant current).Payload

/-- The mapping that `try_upcast` pushes. -/
def Upcast.mapping {set : EventSet} (u : Upcast set) : Mapping set where
  source := u.old.localId
  sourceVersion := u.old.schemaVersion
  target := (set.variant u.current).localId
  targetVersion := (set.variant u.current).schemaVersion
  decode recorded := do
    let context := conversionContext (set.variant u.current) recorded
    let old ← (u.old.decodeJson recorded.payload).mapError context
    let current ← (u.convert old).mapError fun message => context ⟨.conversionFailed, message⟩
    let event : set.Event := ⟨u.current, current⟩
    rejectIf
      ((set.eventOf u.current event).isNone ∨ set.eventType event ≠ (set.variant u.current).localId ∨
        set.schemaVersion event ≠ (set.variant u.current).schemaVersion)
      (context ⟨.invalidEnvelope, "aggregate conversion returned a different event variant or schema"⟩)
    return event

/-! ## The builder -/

structure EventCodecBuilder (set : EventSet) where
  mappings : List (Mapping set)
  encoder : Option (Encoder set)

/-- A built codec; a type without a table of versions has an empty one. -/
structure HistoricalEventCodec (set : EventSet) where
  readers : String → UInt32 → Option (Decoder set)
  encoder : Option (Encoder set)

namespace EventCodecBuilder

variable {set : EventSet}

def new : EventCodecBuilder set := ⟨[], none⟩

/-- `try_upcast`. -/
def tryUpcast (builder : EventCodecBuilder set) (u : Upcast set) : EventCodecBuilder set :=
  { builder with mappings := builder.mappings ++ [u.mapping] }

/-- `with_encoder`. -/
def withEncoder (builder : EventCodecBuilder set) (encoder : Encoder set) : EventCodecBuilder set :=
  { builder with encoder := some encoder }

/-- One turn of the first pass of `build`. -/
def collectTarget (targets : String → Option UInt32) (mapping : Mapping set) :
    Except EventCodecBuildError (String → Option UInt32) := do
  rejectIf (mapping.sourceVersion = 0) (.invalidSchemaVersion mapping.source mapping.sourceVersion)
  rejectIf (mapping.targetVersion = 0) (.invalidSchemaVersion mapping.target mapping.targetVersion)
  rejectIf (mapping.source ≠ mapping.target) (.renamedEvent mapping.source mapping.target)
  match targets mapping.target with
  | some first =>
    rejectIf (first ≠ mapping.targetVersion)
      (.conflictingTarget mapping.target first mapping.targetVersion)
  | none => pure ()
  return Function.update targets mapping.target (some mapping.targetVersion)

/-- One turn of the second pass. -/
def collectReader (targets : String → Option UInt32)
    (readers : String → UInt32 → Option (Decoder set)) (mapping : Mapping set) :
    Except EventCodecBuildError (String → UInt32 → Option (Decoder set)) := do
  rejectIf (targets mapping.source = some mapping.sourceVersion)
    (.currentSchemaMapping mapping.source mapping.sourceVersion)
  rejectIf ((readers mapping.source mapping.sourceVersion).isSome)
    (.duplicateMapping mapping.source mapping.sourceVersion)
  return Function.update readers mapping.source
    (Function.update (readers mapping.source) mapping.sourceVersion (some mapping.decode))

/-- `build`. -/
def build (builder : EventCodecBuilder set) :
    Except EventCodecBuildError (HistoricalEventCodec set) := do
  let targets ← builder.mappings.foldlM collectTarget fun _ => none
  let readers ← builder.mappings.foldlM (collectReader targets) fun _ _ => none
  return ⟨readers, builder.encoder⟩

end EventCodecBuilder

namespace HistoricalEventCodec

/-- `EventCodec::encode`. -/
def encode {A : EventAggregate} (codec : HistoricalEventCodec A.events) (event : A.events.Event)
    (id : EventId) : Except EventCodecError NewEvent :=
  match codec.encoder with
  | none => (jsonEventCodec A.toAggregate).encode event id
  | some encoder => do
    let output ← encoder event id
    rejectIf (output.eventId ≠ id ∨ output.eventType ≠ A.events.eventType event)
      ⟨.invalidEnvelope, "custom event encoder must preserve the supplied event ID and event type"⟩
    return output

/-- `EventCodec::decode`. -/
def decode {A : EventAggregate} (codec : HistoricalEventCodec A.events) (event : RecordedEvent) :
    Except EventCodecError A.events.Event :=
  match codec.readers event.eventType event.schemaVersion with
  | some decode => decode event
  | none => ((jsonEventCodec A.toAggregate).decode event).mapError (recordContext event)

end HistoricalEventCodec

end Rostfrei.Domain
