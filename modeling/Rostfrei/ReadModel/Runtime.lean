import Rostfrei.Core.History
import Rostfrei.Lib.Program

/-!
# The read-model runtime

How `rostfrei-runtime` folds committed domain events into stored values: `Session.domain` takes one
delivery, `mutate` is its loop of read, change and compare-and-set, and `DomainMutation.apply` is
the change. A delivery is a program over a store of versioned entries and the event history
(`Operation`); between its calls other deliveries may run.

The codecs, key functions and changes of the application are the functions of `DomainReducer`.
-/

namespace Rostfrei

open Lib

inductive ReadModelErrorKind where
  | invalidRequest
  | conflict
  | unavailable
  | invalidData
  | incompatibleSchema
  | encodingFailed
  | payloadTooLarge
  | capacityExhausted
  | configurationMismatch
deriving DecidableEq, Repr

/-- The `Debug` name, which is also the `Display` text. -/
def ReadModelErrorKind.name : ReadModelErrorKind → String
  | invalidRequest => "InvalidRequest"
  | conflict => "Conflict"
  | unavailable => "Unavailable"
  | invalidData => "InvalidData"
  | incompatibleSchema => "IncompatibleSchema"
  | encodingFailed => "EncodingFailed"
  | payloadTooLarge => "PayloadTooLarge"
  | capacityExhausted => "CapacityExhausted"
  | configurationMismatch => "ConfigurationMismatch"

structure ReadModelError where
  kind : ReadModelErrorKind
  message : String
deriving DecidableEq, Repr

/-- The `Display` text. -/
def ReadModelError.toString (e : ReadModelError) : String := e.kind.name ++ ": " ++ e.message

inductive ReadModelProcessingError where
  | storage (error : ReadModelError)
  | configuration (message : String)
  | invalidEvent (message : String)
  | sourceGap (expected actual : Nat)
  | transformation (message : String)
deriving DecidableEq, Repr

/-- `is_retryable`. -/
def ReadModelProcessingError.isRetryable : ReadModelProcessingError → Bool
  | storage error => error.kind = .conflict || error.kind = .unavailable
  | _ => false

/-! ## Keys and states -/

/-- A character of a key. -/
def isKeyChar (c : Char) : Bool :=
  c.isAlphanum || c == '-' || c == '_' || c == '/' || c == '=' || c == '.'

/-- The check of `ReadModelKey::new`. -/
def validateReadModelKey (value : String) : Except ReadModelError Unit :=
  rejectIf
    (value = "" ∨ strLen value > 256 ∨ (value.toList.splitOn '.').any List.isEmpty ∨
      ¬ value.toList.all isKeyChar)
    ⟨.invalidRequest, "invalid read-model key"⟩

/-- A concrete key. -/
abbrev ReadModelKey := CheckedString validateReadModelKey

/-- The text that names a source, by its UTF-8 bytes. -/
abbrev SourceName := Bytes

/-- The stored envelope of a value: the value and the position of each source. -/
structure ReadModelState (M : Type) where
  formatVersion : Nat
  value : M
  positions : Map SourceName Nat

namespace ReadModelState

variable {M : Type}

/-- `ReadModelState::default`. -/
def default [Inhabited M] : ReadModelState M := ⟨1, Inhabited.default, ∅⟩

/-- The position of a source; zero if there is none. -/
def position (state : ReadModelState M) (source : SourceName) : Nat :=
  (state.positions.lookup source).getD 0

/-- `ReadModelState::validate`. -/
def validate (state : ReadModelState M) : Except ReadModelError Unit :=
  rejectIf
    (state.formatVersion ≠ 1 ∨
      state.positions.any fun source position => source = [] || position = 0)
    ⟨.invalidData, "invalid read-model checkpoint envelope"⟩

/-- The envelope after a source has reached a version. -/
def advance (state : ReadModelState M) (source : SourceName) (version : Nat) (value : M) :
    ReadModelState M :=
  { state with value := value, positions := state.positions.insert source version }

end ReadModelState

/-! ## Reducers -/

/-- What the application does with a domain event. -/
structure DomainReducer (M : Type) where
  key : RecordedEvent → Except ReadModelProcessingError ReadModelKey
  apply : M → RecordedEvent → Except ReadModelProcessingError M

/-- A reducer for one variant `E` of an aggregate's events. -/
structure TypedDomainReducer (M Event E : Type) where
  /-- `EventCodec::decode`. -/
  codec : RecordedEvent → Except EventCodecError Event
  /-- `EventVariant::into_event`. -/
  intoEvent : Event → Option E
  key : E → RecordedEvent → String
  change : M → E → Except ReadModelProcessingError M

namespace TypedDomainReducer

variable {M Event E : Type}

/-- `TypedDomainReducer::decode`. -/
def decode (r : TypedDomainReducer M Event E) (event : RecordedEvent) :
    Except ReadModelProcessingError E := do
  let value ← (r.codec event).mapError fun e => .invalidEvent e.toString
  okOr (.invalidEvent "domain event variant mismatch") (r.intoEvent value)

def toReducer (r : TypedDomainReducer M Event E) : DomainReducer M where
  key event := do
    let e ← r.decode event
    (CheckedString.new (r.key e event)).mapError fun (e : ReadModelError) =>
      .invalidEvent e.toString
  apply model event := do
    let e ← r.decode event
    r.change model e

end TypedDomainReducer

/-- The reducers by aggregate type and event type, and whether there is an event history. -/
structure Resources (M : Type) where
  hasHistory : Bool
  domain : Map (String × String) (DomainReducer M)

/-- The reducer of an event. -/
def Resources.reducer {M : Type} (resources : Resources M) (event : RecordedEvent) :
    Option (DomainReducer M) :=
  resources.domain.lookup (event.streamId.aggregateType.value, event.eventType)

/-- A connected read model; `resources` is set when it connects. -/
structure Session (M : Type) where
  context : BoundedContextName
  resources : Option (Resources M)
  retries : Nat

/-! ## The services of a delivery -/

/-- A stored envelope with the token for its replacement. -/
structure ReadModelEntry (M : Type) where
  state : ReadModelState M
  revision : Nat

namespace ReadModel

/-- The calls of a delivery: the key-value store and the event history. -/
inductive Operation (M : Type) where
  | read (key : ReadModelKey)
  | create (key : ReadModelKey) (state : ReadModelState M)
  | update (key : ReadModelKey) (revision : Nat) (state : ReadModelState M)
  | load (streamId : StreamId)

/-- The answers to the calls. -/
def Answer {M : Type} : Operation M → Type
  | .read _ => Except ReadModelError (Option (ReadModelEntry M))
  | .create _ _ => Except ReadModelError Nat
  | .update _ _ _ => Except ReadModelError Nat
  | .load _ => Except EventStoreError (List RecordedEvent)

/-- The code of a delivery. -/
abbrev Delivery (M : Type) := ExceptT ReadModelProcessingError (Program (Operation M) Answer)

variable {M : Type}

/-- `store.read(key).await?`. -/
def read (key : ReadModelKey) : Delivery M (Option (ReadModelEntry M)) :=
  ExceptT.adapt ReadModelProcessingError.storage
    (ExceptT.mk (Program.perform (Operation.read key)))

/-- The write of the loop: an update of the revision that was read, or a creation. -/
def write (key : ReadModelKey) (revision : Option Nat) (state : ReadModelState M) :
    Delivery M (Except ReadModelError Nat) :=
  ExceptT.lift <| match revision with
    | some revision => Program.perform (Operation.update key revision state)
    | none => Program.perform (Operation.create key state)

/-- `history.load(stream_id).await` with its error mapped. -/
def load (streamId : StreamId) : Delivery M (List RecordedEvent) :=
  ExceptT.adapt
    (fun e : EventStoreError => .storage
      ⟨if e.kind = .unavailable then .unavailable else .invalidData, e.toString⟩)
    (ExceptT.mk (Program.perform (Operation.load streamId)))

/-! ## The change -/

/-- One record of the catch-up, if it is handled and of the key. -/
def applyRecord (resources : Resources M) (key : ReadModelKey) (model : M)
    (record : RecordedEvent) : Except ReadModelProcessingError M :=
  match resources.reducer record with
  | none => .ok model
  | some reducer => do
    let recordKey ← reducer.key record
    if recordKey = key then reducer.apply model record else return model

/-- The loop over the loaded records, from a position on. -/
def catchUp (resources : Resources M) (event : RecordedEvent) (key : ReadModelKey) :
    Nat → M → List RecordedEvent → Except ReadModelProcessingError (Nat × M)
  | position, model, [] => .ok (position, model)
  | position, model, record :: rest => do
    let expected ← okOr (.invalidEvent "source version overflow") (checkedAdd position 1)
    rejectIf (record.streamVersion ≠ expected) (.sourceGap expected record.streamVersion)
    rejectIf
      (record.streamId ≠ event.streamId ∨
        record.streamVersion = event.streamVersion ∧ record ≠ event)
      (.invalidEvent "delivery disagrees with authoritative history")
    let model ← applyRecord resources key model record
    catchUp resources event key expected model rest

/-- `u64::saturating_add`. -/
def saturatingAdd (a b : Nat) : Nat := min (a + b) (2 ^ 64 - 1)

/-- The records between the position and the delivered version. -/
def missing (event : RecordedEvent) (applied : Nat) (records : List RecordedEvent) :
    List RecordedEvent :=
  records.filter fun record =>
    applied < record.streamVersion && record.streamVersion ≤ event.streamVersion

/-- `DomainMutation::apply`: the delivered event alone if it is the next one, else all records
since the position. -/
def domainMutation (resources : Resources M) (reducer : DomainReducer M) (event : RecordedEvent)
    (key : ReadModelKey) (model : M) (applied : Nat) : Delivery M M := do
  let version := event.streamVersion
  if checkedAdd applied 1 = some version then liftM (reducer.apply model event)
  else
    if !resources.hasHistory then throw (.configuration "domain history is required")
    let records ← load event.streamId
    let (position, model) ←
      liftM (catchUp resources event key applied model (missing event applied records))
    if position ≠ version then throw (.sourceGap (saturatingAdd position 1) version)
    return model

/-! ## The loop -/

section Loop

variable [Inhabited M]

/-- The tries of `Session::mutate`. -/
def mutateLoop (key : ReadModelKey) (source : SourceName) (version : Nat)
    (apply : M → Nat → Delivery M M) : Nat → Delivery M Unit
  | 0 => throw (.storage ⟨.conflict, "read-model contention; retry delivery later"⟩)
  | tries + 1 => do
    let entry ← read key
    let state := entry.elim .default (·.state)
    liftM (state.validate.mapError ReadModelProcessingError.storage)
    let applied := state.position source
    if version ≤ applied then return ()
    let value ← apply state.value applied
    let result ← write key (entry.map (·.revision)) (state.advance source version value)
    match result with
    | .ok _ => return ()
    | .error e =>
      if e.kind = .conflict then mutateLoop key source version apply tries
      else throw (.storage e)

/-- `Session::resources`. -/
def connected (session : Session M) : Except ReadModelProcessingError (Resources M) :=
  okOr (.configuration "read model has not been connected") session.resources

/-- `Session::mutate`. -/
def mutate (session : Session M) (key : ReadModelKey) (source : SourceName) (version : Nat)
    (apply : M → Nat → Delivery M M) : Delivery M Unit := do
  liftM (rejectIf (version = 0)
    (ReadModelProcessingError.invalidEvent "source version must be positive"))
  let _ ← liftM (connected session)
  mutateLoop key source version apply session.retries

/-- The source name of a stream. -/
def sourceName [Crates] (session : Session M) (streamId : StreamId) : SourceName :=
  toVec (.arr [.str "domain", .str session.context.value, .str streamId.aggregateType.value,
    .str streamId.aggregateId.value])

/-- `Session::domain`: one delivery of a domain event. -/
def domain [Crates] (session : Session M) (event : RecordedEvent) : Delivery M Unit := do
  let resources ← liftM (connected session)
  let reducer ← liftM (okOr (ReadModelProcessingError.invalidEvent "unregistered domain event")
    (resources.reducer event))
  let key ← liftM (reducer.key event)
  mutate session key (sourceName session event.streamId) event.streamVersion
    (domainMutation resources reducer event key)

end Loop

end ReadModel

end Rostfrei
