import Rostfrei.Lib.Machine
import Rostfrei.Tracer.Definition

/-!
# Operation records

`operation.rs` of `rostfrei-tracer`: the record of one operation, its mutators and the
subscriptions to its events. Every mutator is one locked section, except
`fail_after_possible_publication`, which reads the publication in one section and ends the operation
in another.

`Operations` is the system of a record, of the calls that are between these two sections and of the
subscriptions. `OperationStep` is a locked section of any of them, so a run is an interleaving.

A reader waits for a notification between two sections of `next`. The notification only says when
the next section may run, and the subscription keeps the sender alive; here the next section may run
at any time.
-/

namespace Rostfrei.Tracer

open Lib

/-! ## Events and results -/

inductive OperationStatus where
  | queued
  | running
  | completed
  | failed
  | indeterminate
deriving DecidableEq, Repr

def OperationStatus.isTerminal : OperationStatus → Bool
  | completed | failed | indeterminate => true
  | queued | running => false

inductive OperationMode where
  | simulate
  | test
  | dispatch
deriving DecidableEq, Repr

inductive CompletedDecision where
  | accepted
  | rejected
deriving DecidableEq, Repr

structure PredictedDomainEvent where
  aggregateType : String
  aggregateId : String
  ordinal : UInt32
  predictedStreamVersion : Nat
  eventType : String
  schemaVersion : UInt32
  payload : Option Json
deriving DecidableEq

structure TouchedStreamParticipant where
  aggregateType : String
  aggregateId : String
  baseStreamVersion : Nat
  readGuard : Bool
deriving DecidableEq

inductive OperationResult where
  | accepted (participants : List TouchedStreamParticipant)
      (predictedEvents : List PredictedDomainEvent) (appended : Option Bool) (published : Bool)
      (commandMessageId responseMessageId : Option String) (duplicate : Option Bool)
  | rejected (participants : List TouchedStreamParticipant) (rejection : Json)
      (appended : Option Bool) (published : Bool)
      (commandMessageId responseMessageId : Option String) (duplicate : Option Bool)
deriving DecidableEq

def OperationResult.decision : OperationResult → CompletedDecision
  | accepted .. => .accepted
  | rejected .. => .rejected

structure OperationFailure where
  code : String
  message : String
  commandMessageId : Option String
  duplicate : Option Bool
deriving DecidableEq, Repr

inductive OperationEventKind where
  | queued
  | started
  | historyReplayed (baseStreamVersion : Nat)
  | commandAccepted
  | predictedDomainEvent (event : PredictedDomainEvent)
  | commandRejected (rejection : Json)
  | commandPublished (commandMessageId : String) (duplicate : Bool)
  | commandResponded (responseMessageId : String)
  | completed (decision : CompletedDecision)
  | failed (code message : String)
  | indeterminate (code message commandMessageId : String) (duplicate : Bool)
deriving DecidableEq

namespace OperationEventKind

/-- The event ends the operation. -/
def isTerminal : OperationEventKind → Bool
  | completed _ | failed .. | indeterminate .. => true
  | _ => false

def isPublication : OperationEventKind → Bool
  | commandPublished .. => true
  | _ => false

end OperationEventKind

structure OperationEvent where
  id : Nat
  operationId : String
  kind : OperationEventKind
deriving DecidableEq

/-! ## The record -/

/-- `OperationSnapshot`, without the addresses under which it is served. -/
structure OperationSnapshot where
  operationId : String
  correlationId : String
  mode : OperationMode
  status : OperationStatus
  command : String
  schemaVersion : UInt32
  context : String
  latestEventId : Nat
  result : Option OperationResult
  failure : Option OperationFailure
deriving DecidableEq

structure OperationState where
  fingerprint : String
  snapshot : OperationSnapshot
  events : List OperationEvent
  publication : Option (String × Bool)
deriving DecidableEq

/-- `OperationRecord`, without the handle of its task. -/
structure OperationRecord where
  mode : OperationMode
  state : OperationState
  terminal : Bool
  correlationRecorded : Bool
deriving DecidableEq

structure NewOperation where
  operationId : String
  correlationId : String
  fingerprint : String
  mode : OperationMode
  command : String
  schemaVersion : UInt32
  context : String
deriving DecidableEq, Repr

/-- `push_event`. The identity is that of `saturating_add`. -/
def pushEvent (state : OperationState) (kind : OperationEventKind) : OperationState :=
  let id := min (state.snapshot.latestEventId + 1) (2 ^ 64 - 1)
  { state with
    events := state.events ++ [⟨id, state.snapshot.operationId, kind⟩]
    snapshot := { state.snapshot with latestEventId := id } }

namespace OperationRecord

/-- `OperationRecord::new`. -/
def new (operation : NewOperation) : OperationRecord where
  mode := operation.mode
  state := {
    fingerprint := operation.fingerprint
    snapshot := {
      operationId := operation.operationId
      correlationId := operation.correlationId
      mode := operation.mode
      status := .queued
      command := operation.command
      schemaVersion := operation.schemaVersion
      context := operation.context
      latestEventId := 1
      result := none
      failure := none }
    events := [⟨1, operation.operationId, .queued⟩]
    publication := none }
  terminal := false
  correlationRecorded := false

/-- `append`. -/
def append (record : OperationRecord) (kind : OperationEventKind)
    (update : OperationSnapshot → OperationSnapshot) : OperationRecord :=
  if record.state.snapshot.status.isTerminal then record
  else
    let state := pushEvent record.state kind
    { record with state := { state with snapshot := update state.snapshot } }

/-- `start`. -/
def start (record : OperationRecord) : OperationRecord :=
  record.append .started fun snapshot => { snapshot with status := .running }

/-- The mutators that end an operation: some events, the last of them terminal, and what is then in
the snapshot. -/
def finish (record : OperationRecord) (events : List OperationEventKind) (last : OperationEventKind)
    (update : OperationSnapshot → OperationSnapshot) : OperationRecord :=
  if record.state.snapshot.status.isTerminal then record
  else
    let state := pushEvent (events.foldl pushEvent record.state) last
    { record with state := { state with snapshot := update state.snapshot }, terminal := true }

/-- `complete`. -/
def complete (record : OperationRecord) (result : OperationResult)
    (events : List OperationEventKind) : OperationRecord :=
  record.finish events (.completed result.decision) fun snapshot =>
    { snapshot with status := .completed, result := some result }

/-- `fail`. -/
def fail (record : OperationRecord) (code message : String) : OperationRecord :=
  record.finish [] (.failed code message) fun snapshot =>
    { snapshot with status := .failed, failure := some ⟨code, message, none, none⟩ }

/-- `indeterminate`. -/
def indeterminate (record : OperationRecord) (code message commandMessageId : String)
    (duplicate : Bool) : OperationRecord :=
  record.finish [] (.indeterminate code message commandMessageId duplicate) fun snapshot =>
    { snapshot with
      status := .indeterminate
      failure := some ⟨code, message, some commandMessageId, some duplicate⟩ }

/-- `command_published`. -/
def commandPublished (record : OperationRecord) (commandMessageId : String) (duplicate : Bool) :
    OperationRecord :=
  if record.state.snapshot.status.isTerminal ∨ record.state.publication.isSome then record
  else
    { record with
      state := { pushEvent record.state (.commandPublished commandMessageId duplicate) with
        publication := some (commandMessageId, duplicate) } }

/-- The second section of `fail_after_possible_publication`, with the publication that the first
has read. -/
def failAfterPossiblePublication (record : OperationRecord) (code message : String) :
    Option (String × Bool) → OperationRecord
  | some (commandMessageId, duplicate) =>
    record.indeterminate code message commandMessageId duplicate
  | none => record.fail code message

/-- `mark_correlation_recorded`. -/
def markCorrelationRecorded (record : OperationRecord) : OperationRecord :=
  { record with correlationRecorded := true }

/-- `is_evictable`. -/
def isEvictable (record : OperationRecord) : Bool := record.terminal && record.correlationRecorded

end OperationRecord

/-! ## Subscriptions -/

/-- `SubscriptionError::FutureCursor`. -/
structure SubscriptionError where
  latest : Nat
deriving DecidableEq, Repr

/-- A subscription: the cursor it started at, where it is now, the events that it has yielded, and
whether `next` has returned `None`. -/
structure OperationSubscription where
  after : Nat
  cursor : Nat
  yielded : List OperationEvent
  ended : Bool
deriving DecidableEq

/-- `subscription`. -/
def OperationRecord.subscription (record : OperationRecord) (after : Nat) :
    Except SubscriptionError OperationSubscription :=
  if after > record.state.snapshot.latestEventId then .error ⟨record.state.snapshot.latestEventId⟩
  else .ok ⟨after, after, [], false⟩

/-- A locked section of `next`. -/
def OperationSubscription.next (subscription : OperationSubscription) (record : OperationRecord) :
    OperationSubscription :=
  match record.state.events.find? fun event => event.id > subscription.cursor with
  | some event =>
    { subscription with cursor := event.id, yielded := subscription.yielded ++ [event] }
  | none =>
    if record.state.snapshot.status.isTerminal then { subscription with ended := true }
    else subscription

/-! ## The system -/

/-- A call of `fail_after_possible_publication` between its two sections. -/
structure DecidingFailure where
  code : String
  message : String
  publication : Option (String × Bool)
deriving DecidableEq

structure Operations where
  record : OperationRecord
  deciding : List DecidingFailure
  subscriptions : List OperationSubscription

inductive OperationStep where
  | start
  | commandPublished (commandMessageId : String) (duplicate : Bool)
  | complete (result : OperationResult) (events : List OperationEventKind)
  | fail (code message : String)
  | indeterminate (code message commandMessageId : String) (duplicate : Bool)
  /-- The first section of `fail_after_possible_publication`. -/
  | readPublication (code message : String)
  /-- The second section of one of these calls. -/
  | failAfterPossiblePublication (call : Nat)
  | subscribe (after : Nat)
  | next (subscription : Nat)

/-- A `Vec` has at most `isize::MAX` items. -/
def maxVecLength : Nat := 2 ^ 63 - 1

/-! ## The log of a record -/

/-- What the snapshot says, given the kind of the last event. -/
def OperationSnapshot.Agrees (snapshot : OperationSnapshot) : Option OperationEventKind → Prop
  | some (.completed decision) =>
    snapshot.status = .completed ∧ snapshot.failure = none ∧
      ∃ result, snapshot.result = some result ∧ result.decision = decision
  | some (.failed code message) =>
    snapshot.status = .failed ∧ snapshot.result = none ∧
      snapshot.failure = some ⟨code, message, none, none⟩
  | some (.indeterminate code message commandMessageId duplicate) =>
    snapshot.status = .indeterminate ∧ snapshot.result = none ∧
      snapshot.failure = some ⟨code, message, some commandMessageId, some duplicate⟩
  | _ => snapshot.status.isTerminal = false ∧ snapshot.result = none ∧ snapshot.failure = none

/-- The events are numbered from one, only the last may be terminal, the snapshot agrees with it,
and there is an event of the publication, if there is one. -/
structure OperationState.Logged (state : OperationState) : Prop where
  ids : state.events.map (·.id) = List.range' 1 state.events.length
  latest : state.snapshot.latestEventId = state.events.length
  before : ∀ event ∈ state.events.dropLast, event.kind.isTerminal = false
  agrees : state.snapshot.Agrees (state.events.getLast?.map (·.kind))
  published : (state.events.filter (·.kind.isPublication)).length = state.publication.isSome.toNat

namespace OperationState

variable {state state' : OperationState} {kind : OperationEventKind}

theorem agrees_of_not_terminal {snapshot : OperationSnapshot} (hkind : kind.isTerminal = false) :
    snapshot.Agrees (some kind) ↔
      snapshot.status.isTerminal = false ∧ snapshot.result = none ∧ snapshot.failure = none := by
  cases kind <;> first | rfl | cases hkind

theorem Logged.kinds (h : state.Logged) (hopen : state.snapshot.status.isTerminal = false) :
    (∀ event ∈ state.events, event.kind.isTerminal = false) ∧ state.snapshot.result = none ∧
      state.snapshot.failure = none := by
  have hagrees := h.agrees
  rcases hlast : state.events.getLast? with _ | last
  · rw [hlast] at hagrees
    rw [List.getLast?_eq_none_iff.mp hlast]
    exact ⟨by simp, hagrees.2⟩
  rw [hlast, Option.map_some] at hagrees
  have hkind : last.kind.isTerminal = false := by
    cases hk : last.kind <;> rw [hk] at hagrees <;> first | rfl | simp [hagrees.1, OperationStatus.isTerminal] at hopen
  refine ⟨fun event hevent => ?_, ((agrees_of_not_terminal hkind).mp hagrees).2⟩
  rw [← List.dropLast_append_getLast? last hlast] at hevent
  rcases List.mem_append.mp hevent with hearlier | hlast'
  · exact h.before event hearlier
  · rw [List.mem_singleton.mp hlast']
    exact hkind

@[simp] theorem length_pushEvent : (pushEvent state kind).events.length = state.events.length + 1 := by
  simp [pushEvent]

@[simp] theorem status_pushEvent :
    (pushEvent state kind).snapshot.status = state.snapshot.status := rfl

@[simp] theorem publication_pushEvent : (pushEvent state kind).publication = state.publication := rfl

/-- One more event, and what is then in the snapshot and the publication. -/
theorem Logged.push (h : state.Logged) (hopen : state.snapshot.status.isTerminal = false)
    (hroom : state.events.length + 1 ≤ maxVecLength)
    (hevents : state'.events = (pushEvent state kind).events)
    (hlatest : state'.snapshot.latestEventId = (pushEvent state kind).snapshot.latestEventId)
    (hagrees : state'.snapshot.Agrees (some kind))
    (hpublished : state'.publication.isSome.toNat =
      state.publication.isSome.toNat + kind.isPublication.toNat) :
    state'.Logged := by
  have hid : min (state.snapshot.latestEventId + 1) (2 ^ 64 - 1) = state.events.length + 1 := by
    rw [h.latest]
    unfold maxVecLength at hroom
    omega
  have hpush : (pushEvent state kind).events =
      state.events ++ [⟨state.events.length + 1, state.snapshot.operationId, kind⟩] := by
    simp only [pushEvent, hid]
  rw [hpush] at hevents
  refine ⟨?_, ?_, ?_, ?_, ?_⟩
  · rw [hevents, List.map_append, h.ids, List.length_append, List.length_singleton,
      List.range'_concat]
    simp [Nat.add_comm]
  · rw [hlatest, hevents, List.length_append, List.length_singleton]
    exact hid
  · rw [hevents, List.dropLast_concat]
    exact (h.kinds hopen).1
  · rw [hevents, List.getLast?_concat]
    exact hagrees
  · rw [hevents, List.filter_append, List.length_append, h.published, hpublished]
    cases hkind : kind.isPublication <;> simp [hkind]

/-- Events that neither end the operation nor publish. -/
theorem Logged.pushAll {kinds : List OperationEventKind} (h : state.Logged)
    (hopen : state.snapshot.status.isTerminal = false)
    (hroom : state.events.length + kinds.length ≤ maxVecLength)
    (hkinds : ∀ kind ∈ kinds, kind.isTerminal = false ∧ kind.isPublication = false) :
    (kinds.foldl pushEvent state).Logged := by
  induction kinds generalizing state with
  | nil => exact h
  | cons kind kinds ih =>
    obtain ⟨hterminal, hpublication⟩ := hkinds kind List.mem_cons_self
    rw [List.length_cons] at hroom
    refine ih (h.push hopen (by omega) rfl rfl ?_ ?_) hopen ?_
      fun kind hkind => hkinds kind (List.mem_cons_of_mem _ hkind)
    · exact (agrees_of_not_terminal hterminal).mpr ⟨hopen, (h.kinds hopen).2⟩
    · rw [hpublication, publication_pushEvent]
      rfl
    · rw [length_pushEvent]
      omega

theorem foldl_pushEvent (kinds : List OperationEventKind) :
    (kinds.foldl pushEvent state).events.length = state.events.length + kinds.length ∧
      state.events <+: (kinds.foldl pushEvent state).events ∧
      (kinds.foldl pushEvent state).snapshot.status = state.snapshot.status ∧
      (kinds.foldl pushEvent state).publication = state.publication := by
  induction kinds generalizing state with
  | nil => exact ⟨rfl, List.prefix_rfl, rfl, rfl⟩
  | cons kind kinds ih =>
    obtain ⟨hlength, hinitial, hstatus, hpublication⟩ := @ih (pushEvent state kind)
    refine ⟨?_, (List.prefix_append _ _).trans hinitial, hstatus, hpublication⟩
    rw [List.foldl_cons, hlength, length_pushEvent, List.length_cons]
    omega

/-- The first event after a cursor is the next one. -/
theorem find_eq_getElem {events : List OperationEvent} {first : Nat} (cursor : Nat)
    (h : events.map (·.id) = List.range' (first + 1) events.length) :
    events.find? (fun event => event.id > first + cursor) = events[cursor]? := by
  induction events generalizing first cursor with
  | nil => rfl
  | cons event events ih =>
    rw [List.map_cons, List.length_cons, List.range'_succ, List.cons.injEq] at h
    obtain ⟨hid, hrest⟩ := h
    rcases cursor with _ | cursor
    · rw [List.find?_cons_of_pos (by simp [hid]), List.getElem?_cons_zero]
    · rw [List.find?_cons_of_neg (by simp [hid]), List.getElem?_cons_succ, ← ih cursor hrest]
      congr 1
      funext event
      rw [Nat.add_right_comm, Nat.add_assoc]

end OperationState

/-! ## What a section does to the record -/

namespace OperationRecord

open OperationState

variable {record : OperationRecord}

/-- A mutator, given the record before and after: nothing happens to an operation that has ended,
and otherwise the log is extended. -/
structure Mutated (record record' : OperationRecord) : Prop where
  ended : record.state.snapshot.status.isTerminal = true → record' = record
  grows : record.state.events <+: record'.state.events
  logged : record.state.Logged → record'.state.events.length ≤ maxVecLength → record'.state.Logged

theorem Mutated.refl : Mutated record record :=
  ⟨fun _ => rfl, List.prefix_rfl, fun h _ => h⟩

theorem start_mutated : Mutated record record.start := by
  unfold start append
  split
  · exact .refl
  next hopen =>
  rw [Bool.not_eq_true] at hopen
  refine ⟨fun hended => by simp [hended] at hopen, List.prefix_append _ _, fun h hroom => ?_⟩
  exact h.push hopen (by simpa using hroom) rfl rfl ⟨rfl, (h.kinds hopen).2⟩ rfl

/-- The mutators that end an operation, given that the snapshot then agrees with the last event. -/
theorem finish_mutated {events : List OperationEventKind} {last : OperationEventKind}
    {update : OperationSnapshot → OperationSnapshot}
    (hkinds : ∀ kind ∈ events, kind.isTerminal = false ∧ kind.isPublication = false)
    (hlast : last.isPublication = false)
    (hlatest : ∀ snapshot, (update snapshot).latestEventId = snapshot.latestEventId)
    (hagrees : ∀ snapshot : OperationSnapshot, snapshot.result = none → snapshot.failure = none →
      (update snapshot).Agrees (some last)) : Mutated record (record.finish events last update) := by
  unfold finish
  split
  · exact .refl
  next hopen =>
  rw [Bool.not_eq_true] at hopen
  obtain ⟨hlength, hinitial, hstatus, -⟩ := @foldl_pushEvent record.state events
  refine ⟨fun hended => by simp [hended] at hopen, hinitial.trans (List.prefix_append _ _),
    fun h hroom => ?_⟩
  have hroom' : record.state.events.length + events.length + 1 ≤ maxVecLength := by
    simpa [hlength] using hroom
  have hall := h.pushAll hopen (by omega) hkinds
  have hopen' : (events.foldl pushEvent record.state).snapshot.status.isTerminal = false := by
    rwa [hstatus]
  obtain ⟨-, hresult, hfailure⟩ := hall.kinds hopen'
  exact hall.push hopen' (by omega) rfl (hlatest _) (hagrees _ hresult hfailure)
    (by rw [hlast]; rfl)

theorem publication_finish {events : List OperationEventKind} {last : OperationEventKind}
    {update : OperationSnapshot → OperationSnapshot} :
    (record.finish events last update).state.publication = record.state.publication := by
  unfold finish
  split
  · rfl
  · exact (@foldl_pushEvent record.state events).2.2.2

theorem publication_start : record.start.state.publication = record.state.publication := by
  unfold start append
  split <;> rfl

theorem complete_mutated {result : OperationResult} {events : List OperationEventKind}
    (hkinds : ∀ kind ∈ events, kind.isTerminal = false ∧ kind.isPublication = false) :
    Mutated record (record.complete result events) :=
  finish_mutated hkinds rfl (fun _ => rfl) fun _ _ hfailure => ⟨rfl, hfailure, result, rfl, rfl⟩

theorem fail_mutated {code message : String} : Mutated record (record.fail code message) :=
  finish_mutated (by simp) rfl (fun _ => rfl) fun _ hresult _ => ⟨rfl, hresult, rfl⟩

theorem indeterminate_mutated {code message commandMessageId : String} {duplicate : Bool} :
    Mutated record (record.indeterminate code message commandMessageId duplicate) :=
  finish_mutated (by simp) rfl (fun _ => rfl) fun _ hresult _ => ⟨rfl, hresult, rfl⟩

theorem failAfterPossiblePublication_mutated {code message : String}
    {publication : Option (String × Bool)} :
    Mutated record (record.failAfterPossiblePublication code message publication) := by
  rcases publication with _ | ⟨commandMessageId, duplicate⟩
  · exact fail_mutated
  · exact indeterminate_mutated

theorem commandPublished_mutated {commandMessageId : String} {duplicate : Bool} :
    Mutated record (record.commandPublished commandMessageId duplicate) := by
  unfold commandPublished
  split
  · exact .refl
  next hopen =>
  rw [not_or, Bool.not_eq_true, Bool.not_eq_true, Option.isSome_eq_false_iff,
    Option.isNone_iff_eq_none] at hopen
  obtain ⟨hopen, hnone⟩ := hopen
  refine ⟨fun hended => by simp [hended] at hopen, List.prefix_append _ _, fun h hroom => ?_⟩
  exact h.push hopen (by simpa using hroom) rfl rfl ⟨hopen, (h.kinds hopen).2⟩
    (by simp [hnone, OperationEventKind.isPublication])

end OperationRecord

namespace Operations

/-- The mutators, each in one section. -/
def mutate (record : OperationRecord) : OperationStep → OperationRecord
  | .start => record.start
  | .commandPublished id duplicate => record.commandPublished id duplicate
  | .complete result events => record.complete result events
  | .fail code message => record.fail code message
  | .indeterminate code message id duplicate => record.indeterminate code message id duplicate
  | _ => record

/-- A locked section. -/
def apply (s : Operations) : OperationStep → Option Operations
  | .readPublication code message =>
    some { s with deciding := s.deciding ++ [⟨code, message, s.record.state.publication⟩] }
  | .failAfterPossiblePublication call =>
    (s.deciding[call]?).map fun failure =>
      { s with
        record := s.record.failAfterPossiblePublication failure.code failure.message
          failure.publication
        deciding := s.deciding.eraseIdx call }
  | .subscribe after =>
    match s.record.subscription after with
    | .error _ => some s
    | .ok subscription => some { s with subscriptions := s.subscriptions ++ [subscription] }
  | .next i =>
    (s.subscriptions[i]?).map fun subscription =>
      { s with subscriptions := s.subscriptions.set i (subscription.next s.record) }
  | label => some { s with record := mutate s.record label }

/-- The interleavings of all sections. A process that has no room for an event ends. -/
def machine : Machine Operations OperationStep where
  start s := ∃ operation, s = ⟨.new operation, [], []⟩
  step s label s' := s.apply label = some s' ∧ s'.record.state.events.length ≤ maxVecLength

/-- No publication is recorded between the two sections of a `fail_after_possible_publication` that
has read none, unless the operation has ended; and `complete` is given neither terminal events nor
publications, which its callers do not give. -/
def Undisturbed (s : Operations) : OperationStep → Prop
  | .commandPublished .. => ∀ failure ∈ s.deciding, failure.publication = none →
      s.record.state.snapshot.status.isTerminal = true
  | .complete _ events =>
    ∀ kind ∈ events, kind.isTerminal = false ∧ kind.isPublication = false
  | _ => True

/-- The runs without such disturbances. -/
def undisturbed : Machine Operations OperationStep := machine.restrict Undisturbed

end Operations

/-! ## Runs -/

/-- What a subscription has yielded are the events from its first cursor to the current one; it has
ended only where the operation has, and then there are no more. -/
structure OperationSubscription.Sound (subscription : OperationSubscription)
    (state : OperationState) : Prop where
  after_le : subscription.after ≤ subscription.cursor
  cursor_le : subscription.cursor ≤ state.events.length
  yielded : subscription.yielded =
    (state.events.take subscription.cursor).drop subscription.after
  ended : subscription.ended = true →
    state.snapshot.status.isTerminal = true ∧ subscription.cursor = state.events.length

namespace OperationSubscription.Sound

open OperationRecord

variable {subscription : OperationSubscription} {record record' : OperationRecord}

theorem of_subscription {after : Nat} (hlogged : record.state.Logged)
    (h : record.subscription after = .ok subscription) : subscription.Sound record.state := by
  unfold OperationRecord.subscription at h
  split at h
  · cases h
  next hle =>
  obtain rfl := Except.ok.inj h
  refine ⟨le_rfl, hlogged.latest ▸ not_lt.mp hle, ?_, fun h => by cases h⟩
  exact (List.drop_eq_nil_of_le (by simp)).symm

theorem mutated (h : subscription.Sound record.state) (hmutated : Mutated record record') :
    subscription.Sound record'.state := by
  obtain ⟨more, hmore⟩ := hmutated.grows
  refine ⟨h.after_le, ?_, ?_, fun hended => ?_⟩
  · rw [← hmore, List.length_append]
    exact h.cursor_le.trans (Nat.le_add_right _ _)
  · rw [← hmore, List.take_append_of_le_length h.cursor_le]
    exact h.yielded
  · rw [hmutated.ended (h.ended hended).1]
    exact h.ended hended

theorem next (h : subscription.Sound record.state) (hlogged : record.state.Logged) :
    (subscription.next record).Sound record.state := by
  have hfind := @OperationState.find_eq_getElem _ 0 subscription.cursor hlogged.ids
  simp only [Nat.zero_add] at hfind
  unfold OperationSubscription.next
  rw [hfind]
  rcases hget : record.state.events[subscription.cursor]? with _ | event
  · have hcursor : subscription.cursor = record.state.events.length :=
      le_antisymm h.cursor_le (List.getElem?_eq_none_iff.mp hget)
    dsimp only
    split
    · next hterminal => exact ⟨h.after_le, h.cursor_le, h.yielded, fun _ => ⟨hterminal, hcursor⟩⟩
    · exact h
  -- the event after the cursor has the next number
  obtain ⟨hlt, rfl⟩ := List.getElem?_eq_some_iff.mp hget
  have hid : record.state.events[subscription.cursor].id = subscription.cursor + 1 := by
    have := congrArg (·[subscription.cursor]?) hlogged.ids
    simp only [List.getElem?_map, hget, Option.map_some] at this
    rw [List.getElem?_range' hlt, Option.some.injEq] at this
    omega
  dsimp only
  rw [hid]
  refine ⟨h.after_le.trans (Nat.le_succ _), hlt, ?_, fun hended => ?_⟩
  · rw [List.take_succ_eq_append_getElem hlt, List.drop_append_of_le_length, ← h.yielded]
    simp [h.after_le, h.cursor_le]
  · have := (h.ended hended).2
    omega

end OperationSubscription.Sound

namespace Operations

open OperationRecord OperationState

variable {s s' : Operations} {label : OperationStep}

/-- What holds in a run without disturbances. -/
structure Kept (s : Operations) : Prop where
  logged : s.record.state.Logged
  subscriptions : ∀ subscription ∈ s.subscriptions, subscription.Sound s.record.state
  deciding : ∀ failure ∈ s.deciding, failure.publication = none →
    s.record.state.publication = none ∨ s.record.state.snapshot.status.isTerminal = true

theorem logged_new (operation : NewOperation) : (OperationRecord.new operation).state.Logged :=
  ⟨rfl, rfl, fun _ h => by simp [OperationRecord.new] at h, ⟨rfl, rfl, rfl⟩, rfl⟩

/-- Every step is a mutation of the record. -/
theorem apply_mutated (h : s.apply label = some s') (hlabel : s.Undisturbed label) :
    Mutated s.record s'.record := by
  cases label <;> simp only [apply, Option.some.injEq, Option.map_eq_some_iff] at h
  case start => exact h ▸ start_mutated
  case commandPublished => exact h ▸ commandPublished_mutated
  case complete => exact h ▸ complete_mutated hlabel
  case fail => exact h ▸ fail_mutated
  case indeterminate => exact h ▸ indeterminate_mutated
  case readPublication => exact h ▸ .refl
  case failAfterPossiblePublication =>
    obtain ⟨failure, -, rfl⟩ := h
    exact failAfterPossiblePublication_mutated
  case subscribe =>
    split at h <;> obtain rfl := Option.some.inj h <;> exact .refl
  case next =>
    obtain ⟨subscription, -, rfl⟩ := h
    exact .refl

/-- The subscriptions after a step: those before, a new one, or one that has read. -/
theorem apply_subscriptions (h : s.apply label = some s') :
    ∀ subscription ∈ s'.subscriptions, subscription ∈ s.subscriptions ∨
      (∃ after, s.record.subscription after = .ok subscription ∧ s'.record = s.record) ∨
      ∃ before ∈ s.subscriptions, subscription = before.next s.record ∧ s'.record = s.record := by
  intro subscription hmem
  cases label <;> simp only [apply, Option.some.injEq, Option.map_eq_some_iff] at h
  case subscribe after =>
    split at h
    · obtain rfl := Option.some.inj h
      exact .inl hmem
    next added hadded =>
    obtain rfl := Option.some.inj h
    rcases List.mem_append.mp hmem with hbefore | hnew
    · exact .inl hbefore
    · rw [List.mem_singleton.mp hnew]
      exact .inr (.inl ⟨after, hadded, rfl⟩)
  case next i =>
    obtain ⟨before, hbefore, rfl⟩ := h
    rcases List.mem_or_eq_of_mem_set hmem with hold | rfl
    · exact .inl hold
    · exact .inr (.inr ⟨before, List.mem_of_getElem? hbefore, rfl, rfl⟩)
  all_goals
    first
    | obtain rfl := h
      exact .inl hmem
    | obtain ⟨failure, -, rfl⟩ := h
      exact .inl hmem

/-- The calls that are between their sections after a step, and the publication. -/
theorem apply_deciding (h : s.apply label = some s') (hlabel : s.Undisturbed label) :
    ∀ failure ∈ s'.deciding, (failure ∈ s.deciding ∨ failure.publication = s.record.state.publication) ∧
      (failure.publication = none → s.record.state.snapshot.status.isTerminal = true ∨
        s'.record.state.publication = s.record.state.publication) := by
  intro failure hmem
  cases label <;> simp only [apply, Option.some.injEq, Option.map_eq_some_iff] at h
  case commandPublished =>
    obtain rfl := h
    exact ⟨.inl hmem, fun hnone => .inl (hlabel failure hmem hnone)⟩
  case readPublication =>
    obtain rfl := h
    rcases List.mem_append.mp hmem with hbefore | hnew
    · exact ⟨.inl hbefore, fun _ => .inr rfl⟩
    · rw [List.mem_singleton.mp hnew]
      exact ⟨.inr rfl, fun _ => .inr rfl⟩
  case failAfterPossiblePublication =>
    obtain ⟨⟨code, message, publication⟩, -, rfl⟩ := h
    refine ⟨.inl (List.mem_of_mem_eraseIdx hmem), fun _ => .inr ?_⟩
    cases publication <;> exact publication_finish
  case subscribe =>
    split at h <;> obtain rfl := Option.some.inj h <;> exact ⟨.inl hmem, fun _ => .inr rfl⟩
  case next =>
    obtain ⟨subscription, -, rfl⟩ := h
    exact ⟨.inl hmem, fun _ => .inr rfl⟩
  case start =>
    obtain rfl := h
    exact ⟨.inl hmem, fun _ => .inr publication_start⟩
  all_goals
    obtain rfl := h
    exact ⟨.inl hmem, fun _ => .inr publication_finish⟩

theorem kept_step (h : s.Kept) (hstep : undisturbed.step s label s') : s'.Kept := by
  obtain ⟨⟨happly, hroom⟩, hlabel⟩ := hstep
  have hmutated := apply_mutated happly hlabel
  refine ⟨hmutated.logged h.logged hroom, fun subscription hmem => ?_, fun failure hmem hnone => ?_⟩
  · rcases apply_subscriptions happly subscription hmem with hold | ⟨after, hnew, hsame⟩ |
      ⟨before, hbefore, rfl, hsame⟩
    · exact (h.subscriptions subscription hold).mutated hmutated
    · exact hsame ▸ .of_subscription h.logged hnew
    · exact hsame ▸ (h.subscriptions before hbefore).next h.logged
  · obtain ⟨hbefore, hpublication⟩ := apply_deciding happly hlabel failure hmem
    have hend : s.record.state.snapshot.status.isTerminal = true →
        s'.record.state.snapshot.status.isTerminal = true := fun hterminal => by
      rwa [hmutated.ended hterminal]
    rcases hpublication hnone with hterminal | hsame
    · exact .inr (hend hterminal)
    rw [hsame]
    rcases hbefore with hold | hread
    · exact (h.deciding failure hold hnone).imp_right hend
    · exact .inl (hread ▸ hnone)

theorem undisturbed_kept : undisturbed.Invariant Kept where
  start := by
    rintro _ ⟨operation, rfl⟩
    exact ⟨logged_new operation, by simp, by simp⟩
  step _ _ _ h hstep := kept_step h hstep

/-- The record of an operation and its readers: the events are numbered from one, a terminal event
is the last and the snapshot agrees with it, there is at most one publication, and every
subscription has yielded the events from its first cursor on, one after the other. -/
structure Sound (s : Operations) : Prop where
  ids : s.record.state.events.map (·.id) = List.range' 1 s.record.state.events.length
  latest : s.record.state.snapshot.latestEventId = s.record.state.events.length
  before : ∀ event ∈ s.record.state.events.dropLast, event.kind.isTerminal = false
  agrees : s.record.state.snapshot.Agrees (s.record.state.events.getLast?.map (·.kind))
  published : (s.record.state.events.filter (·.kind.isPublication)).length ≤ 1
  subscriptions : ∀ subscription ∈ s.subscriptions, subscription.Sound s.record.state

theorem Kept.sound (h : s.Kept) : s.Sound where
  ids := h.logged.ids
  latest := h.logged.latest
  before := h.logged.before
  agrees := h.logged.agrees
  published := h.logged.published ▸ Bool.toNat_le _
  subscriptions := h.subscriptions

/-- An operation with a publication is not failed by a call that has read its publication. -/
theorem Kept.not_failed (h : s.Kept) {call : Nat}
    (happly : s.apply (.failAfterPossiblePublication call) = some s')
    (hpublication : s.record.state.publication.isSome = true)
    (hfailed : s'.record.state.snapshot.status = .failed) :
    s.record.state.snapshot.status = .failed := by
  cases hopen : s.record.state.snapshot.status.isTerminal with
  | true => rwa [(apply_mutated happly trivial).ended hopen] at hfailed
  | false =>
  simp only [apply, Option.map_eq_some_iff] at happly
  obtain ⟨⟨code, message, read⟩, hget, rfl⟩ := happly
  rcases read with _ | ⟨id, duplicate⟩
  · have hnone := h.deciding _ (List.mem_of_getElem? hget) rfl
    simp [hopen] at hnone
    simp [hnone] at hpublication
  · simp [failAfterPossiblePublication, indeterminate, finish, hopen] at hfailed

/-- The operation of the module's test. -/
def testOperation : NewOperation :=
  ⟨"operation-1", "correlation-1", "fingerprint", .test, "test-command", 1, "test-context"⟩

end Operations

end Rostfrei.Tracer
