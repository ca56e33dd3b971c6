import Mathlib.Data.Finmap
import Rostfrei.Lib.Machine
import Rostfrei.Tracer.Observed

/-!
# The window of observed flows

`observation.rs` of `rostfrei-tracer`: an `ObservationFeed` keeps the last flows of an application's
traffic. A flow is the messages of one correlation, in a bounded number and size; the flow that
changed last is the last of the queue, and the first one is evicted. Messages are kept redacted, with
a fingerprint of what they were before.

The clock of `generation` is an argument. A reset fails only while it runs: the guard that reports
the failure has started it, and resets exclude each other by the gate of the scenario.
-/

namespace Rostfrei.Tracer

open Lib Messaging

def maximumFlows : Nat := 128
def maximumFlowMessages : Nat := 256
def maximumFlowBytes : Nat := 256 * 1024
def maximumSources : Nat := 32

inductive ObservationScope where
  | test
  | production
deriving DecidableEq, Repr

def ObservationScope.asStr : ObservationScope → String
  | test => "test"
  | production => "production"

inductive ObservationStatus where
  | connecting
  | live
  | unavailable
  | resetting
deriving DecidableEq, Repr

inductive ObservationError where
  | unavailable
  | expired
  | invalidSource
  | sourceCapacity
  | subscriptionCapacity
deriving DecidableEq, Repr

/-! ## Flows -/

structure ObservedFlowSummary where
  id : String
  correlationId : String
  name : String
  messageCount : Nat
  revision : String
  truncated : Bool
  conflicted : Bool
  detailHref : String
deriving DecidableEq, Repr

structure FlowRecord where
  summary : ObservedFlowSummary
  series : ObservedMessageSeries
  bytes : Nat
  fingerprints : Finmap fun _ : String => ContentFingerprint

/-- The payload after the policy of the application. -/
def ObservedMessageNode.redact (policy : Json → Option Json) : ObservedMessageNode → ObservedMessageNode
  | command id correlation causation order name version context payload =>
    command id correlation causation order name version context (payload.bind policy)
  | domainEvent id correlation causation order name version aggregate payload =>
    domainEvent id correlation causation order name version aggregate (payload.bind policy)
  | integrationEvent id correlation causation order name version payload =>
    integrationEvent id correlation causation order name version (payload.bind policy)

/-- What `observe` does with a message that it has given to a flow. -/
inductive FlowChange where
  | duplicate
  | discarded (flow : FlowRecord)
  | inserted (flow : FlowRecord)

/-- The decision of `observe` about a message, in the flow of its correlation. -/
def FlowRecord.admitMessage (flow : FlowRecord) (message : ObservedMessageNode)
    (fingerprint : ContentFingerprint) (bytes : Nat) : FlowChange :=
  let existing := (flow.series.messages.get message.messageId).isSome
  if (flow.fingerprints.lookup message.messageId).any (· ≠ fingerprint) then
    .discarded { flow with summary := { flow.summary with conflicted := true } }
  else if !existing ∧ (flow.series.messages.nodes.length ≥ maximumFlowMessages ∨
      saturatingAdd bytes flow.bytes > maximumFlowBytes) then
    .discarded { flow with summary := { flow.summary with truncated := true } }
  else
    match flow.series.insertMessage message with
    | .ok (.duplicate, _) => .duplicate
    | .ok (.inserted, series) =>
      .inserted { flow with
        series := series
        bytes := saturatingAdd flow.bytes bytes
        fingerprints := flow.fingerprints.insert message.messageId fingerprint }
    | .error _ => .discarded { flow with summary := { flow.summary with conflicted := true } }

/-! ## The feed -/

structure SourceState where
  identity : Nat
  status : ObservationStatus
deriving DecidableEq, Repr

/-- `State` of `ObservationFeed`. -/
structure FeedState where
  generation : String
  revision : Nat
  nextIdentity : Nat
  sources : Finmap fun _ : String => SourceState
  flows : List FlowRecord
  evictedFlows : Nat
  discardedMessages : Nat
  resetting : Bool
  resetFailed : Bool

namespace FeedState

/-- `ObservationFeed::new`. -/
def new (generation : String) : FeedState := ⟨generation, 0, 0, ∅, [], 0, 0, false, false⟩

/-- `notify`. -/
def notify (s : FeedState) : FeedState := { s with revision := saturatingAdd s.revision 1 }

/-- One more message was discarded. -/
def countDiscarded (s : FeedState) : FeedState :=
  { s with discardedMessages := saturatingAdd s.discardedMessages 1 }

/-- `discard`. -/
def discard (s : FeedState) : FeedState := s.countDiscarded.notify

/-- `source`: the identity of the new source. -/
def source (s : FeedState) (name : String) : Except ObservationError (Nat × FeedState) := do
  rejectIf (name = "" ∨ strLen name > 128 ∨ name.toList.any isControl) .invalidSource
  match s.sources.lookup name with
  | some source => rejectIf (source.status ≠ .unavailable) .invalidSource
  | none => rejectIf (s.sources.keys.card ≥ maximumSources) .sourceCapacity
  let identity := saturatingAdd s.nextIdentity 1
  return (identity, { s with
    nextIdentity := identity
    sources := s.sources.insert name ⟨identity, .connecting⟩ }.notify)

/-- `set_status` of the source with a name and an identity. -/
def setStatus (s : FeedState) (name : String) (identity : Nat) (status : ObservationStatus) :
    FeedState :=
  match s.sources.lookup name with
  | none => s
  | some source =>
    if source.identity = identity ∧ source.status ≠ status then
      { s with sources := s.sources.insert name { source with status := status } }.notify
    else s

/-- `reset`. -/
def reset (s : FeedState) (resetting : Bool) (generation : String) : FeedState :=
  { s with
    resetting := resetting
    resetFailed := false
    generation := generation
    flows := []
    evictedFlows := 0
    discardedMessages := 0 }.notify

/-- `fail_reset`. -/
def failReset (s : FeedState) : FeedState := { s with resetting := false, resetFailed := true }.notify

/-- The first flow is evicted from a full queue. -/
def evict (s : FeedState) : FeedState :=
  if s.flows.length = maximumFlows then
    { s with flows := s.flows.tail, evictedFlows := saturatingAdd s.evictedFlows 1 }
  else s

/-- A flow of a correlation that has none. -/
def newFlow (s : FeedState) (scope : ObservationScope) (message : ObservedMessageNode) :
    FlowRecord × FeedState :=
  let s := s.evict
  let s := { s with nextIdentity := saturatingAdd s.nextIdentity 1 }
  let id := s.generation ++ "-" ++ toString s.nextIdentity
  (⟨⟨id, message.correlationId, message.name, 0, "", false, false,
    "/observation/" ++ scope.asStr ++ "/flows/" ++ id⟩, .empty, 0, ∅⟩, s)

/-- A flow that has changed is put last. -/
def keepFlow (s : FeedState) (flow : FlowRecord) : FeedState :=
  { s with
    flows := s.flows ++ [{ flow with
      summary := { flow.summary with
        messageCount := flow.series.messages.nodes.length
        revision := toString (saturatingAdd s.revision 1) } }] }.notify

variable [Crates]

/-- The fingerprint of a message, as it was observed. -/
def fingerprintOf (message : ObservedMessageNode) : ContentFingerprint :=
  .digest (toVec message.toJson)

/-- The bytes that a message counts. -/
def bytesOf (message : ObservedMessageNode) : Nat :=
  saturatingAdd (toVec message.toJson).length 96

/-- The message may be retained: it is valid and its name is short. -/
def acceptable (message : ObservedMessageNode) : Bool :=
  strLen message.name ≤ maxIdentifierBytes ∧
    (ObservedMessageSeries.empty.insertMessage message).isOk

/-- A message and the flow it belongs to, taken from its place in the queue; `s` is what is left. -/
def observeIn (policy : Json → Option Json) (message : ObservedMessageNode) (flow : FlowRecord)
    (position : Option Nat) (s : FeedState) : FeedState :=
  let redacted := message.redact policy
  match flow.admitMessage redacted (fingerprintOf message) (bytesOf redacted) with
  | .inserted flow => s.keepFlow flow
  | .discarded flow => s.countDiscarded.keepFlow flow
  | .duplicate => { s with flows := s.flows.insertIdx (position.getD s.flows.length) flow }

/-- `observe`. -/
def observe (policy : Json → Option Json) (scope : ObservationScope) (s : FeedState)
    (message : ObservedMessageNode) : FeedState :=
  if !acceptable message then s.discard
  else if s.resetting || s.resetFailed then s
  else
    let position := s.flows.findIdx? (·.summary.correlationId = message.correlationId)
    match position.bind fun index => s.flows[index]? with
    | some flow =>
      observeIn policy message flow position
        { s with flows := s.flows.eraseIdx (position.getD s.flows.length) }
    | none =>
      let (flow, s) := s.newFlow scope message
      observeIn policy message flow none s

end FeedState

inductive FeedStep where
  | observe (message : ObservedMessageNode)
  | discard
  | reset (resetting : Bool) (generation : String)
  | failReset
  | source (name : String)
  | setStatus (name : String) (identity : Nat) (status : ObservationStatus)

/-- A step of a feed. A source that is refused changes nothing. -/
def FeedState.apply [Crates] (policy : Json → Option Json) (scope : ObservationScope)
    (s : FeedState) : FeedStep → FeedState
  | .observe message => s.observe policy scope message
  | .discard => s.discard
  | .reset resetting generation => s.reset resetting generation
  | .failReset => s.failReset
  | .source name =>
    match s.source name with
    | .ok (_, s) => s
    | .error _ => s
  | .setStatus name identity status => s.setStatus name identity status

/-- The runs of a feed. -/
def feedMachine [Crates] (policy : Json → Option Json) (scope : ObservationScope) :
    Machine FeedState FeedStep where
  start s := ∃ generation, s = .new generation
  step s label s' := s' = s.apply policy scope label ∧ (label = .failReset → s.resetting = true)

end Rostfrei.Tracer
