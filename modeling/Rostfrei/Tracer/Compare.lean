import Rostfrei.Lib.JsonOrder
import Rostfrei.Tracer.Graph
import Rostfrei.Tracer.Search

/-!
# Comparisons

`compare_message_series`: the expected graph against the observed messages. If there is a complete
assignment, it gives the matches. If there is none, each expected node is matched with the best
candidate that is left, parents first, and what differs is diagnosed (`fallback`). Both spend steps
of one budget.

The maps of the source are finite maps here; what it prints of them is in the order of their keys.
-/

namespace Rostfrei.Tracer

open Lib Messaging

/-! ## Results -/

inductive MessageSeriesComparisonStatus where
  | passed
  | failed
deriving DecidableEq, Repr

structure MessageSeriesMatch where
  expectedKey : String
  observedMessageId : String
deriving DecidableEq, Repr

structure MessageSeriesComparisonDiagnostic where
  code : String
  path : String
  message : String
  expected : Option Json
  observed : Option Json
deriving DecidableEq

structure MessageSeriesComparisonContext where
  timedOut : Bool
  timeoutObservationOrder : Option Nat
  settleStartedAtOrder : Option Nat
  settleCompletedAtOrder : Option Nat
deriving DecidableEq, Repr

/-- The field `matches` is `matched` here. -/
structure MessageSeriesComparison where
  status : MessageSeriesComparisonStatus
  matched : List MessageSeriesMatch
  diagnostics : List MessageSeriesComparisonDiagnostic
deriving DecidableEq

/-- `json_value` of what has this form: its objects are sorted. -/
def jsonValue (form : Json) : Json := form.canonical

/-! ## Diagnostics of the observations -/

def topologyDiagnostic : MessageSeriesTopologyIssue ObservedMessageNode →
    MessageSeriesComparisonDiagnostic
  | .unresolvedParent child =>
    ⟨"unresolved-observed-parent", "observed:" ++ child.messageId ++ "/causationId",
      "observed causation identity does not resolve to a message", none, child.causationId.map .str⟩
  | .crossCorrelation child parent =>
    ⟨"cross-correlation-link", "observed:" ++ child.messageId ++ "/correlationId",
      "observed child and parent have different correlation identities",
      some (.str parent.correlationId), some (.str child.correlationId)⟩
  | .cycle nodes =>
    let ids := sortBy id (nodes.map ObservedMessageNode.messageId)
    ⟨"causation-cycle", "observed:" ++ ids.head?.getD "cycle",
      "observed causation links contain a cycle", none, some (jsonValue (.arr (ids.map .str)))⟩

def outcomeDiagnostic : ObservedMessageSeriesOutcomeIssue → MessageSeriesComparisonDiagnostic
  | .missingCommand outcome =>
    ⟨"unresolved-command-outcome",
      "observed-outcome:" ++ outcome.responseMessageId ++ "/commandMessageId",
      "command outcome references an unobserved command identity", none,
      some (.str outcome.commandMessageId)⟩
  | .notACommand outcome message =>
    ⟨"identity-conflict", "observed-outcome:" ++ outcome.responseMessageId ++ "/commandMessageId",
      "command outcome identity resolves to a non-command message", some (.str "command"),
      some (jsonValue (.str message.kind.name))⟩
  | .crossCorrelation outcome message =>
    ⟨"cross-correlation-link", "observed-outcome:" ++ outcome.responseMessageId ++ "/correlationId",
      "command outcome and command have different correlation identities",
      some (.str message.correlationId), some (.str outcome.correlationId)⟩

/-- `observed_structure_diagnostics`. -/
def observedStructureDiagnostics (observed : ObservedMessageSeries) :
    List MessageSeriesComparisonDiagnostic :=
  observed.messages.topologyIssues.map topologyDiagnostic ++
    observed.outcomeIssues.map outcomeDiagnostic

/-- `diagnose_unexpected_observations`. -/
def diagnoseUnexpectedObservations (observed : ObservedMessageSeries) (matchedIds : Finset String) :
    List MessageSeriesComparisonDiagnostic :=
  (sortBy ObservedMessageNode.messageId
    (observed.messages.nodes.filter fun message => decide (message.messageId ∉ matchedIds))).map
    fun message =>
      ⟨"unexpected-observed", "observed:" ++ message.messageId,
        "observed message `" ++ message.messageId ++ "` was not expected", none,
        some (jsonValue message.toJson)⟩

/-! ## Diagnostics of timing -/

/-- `TimedObservationKind`, with its texts. -/
structure TimedObservationKind where
  pathPrefix : String
  code : String
  subject : String

def TimedObservationKind.message : TimedObservationKind := ⟨"observed:", "message", "message"⟩

def TimedObservationKind.commandOutcome : TimedObservationKind :=
  ⟨"observed-outcome:", "command-outcome", "command outcome"⟩

/-- The order has reached the boundary. -/
def reaches (order : Nat) (boundary : Option Nat) : Bool := boundary.any (· ≤ order)

/-- `diagnose_observation_timing`. -/
def diagnoseObservationTiming (kind : TimedObservationKind) (id : String) (order : Nat)
    (context : MessageSeriesComparisonContext) : List MessageSeriesComparisonDiagnostic :=
  let path := kind.pathPrefix ++ id ++ "/observationOrder"
  (if reaches order context.timeoutObservationOrder then
    [⟨kind.code ++ "-after-timeout", path,
      kind.subject ++ " arrived after the comparison deadline", none, some (.num order)⟩]
  else []) ++
  if reaches order context.settleCompletedAtOrder then
    [⟨kind.code ++ "-after-settle", path, kind.subject ++ " arrived after settling completed", none,
      some (.num order)⟩]
  else if reaches order context.settleStartedAtOrder then
    [⟨kind.code ++ "-during-settle", path, kind.subject ++ " arrived during settling", none,
      some (.num order)⟩]
  else []

/-- `diagnose_timing`. -/
def diagnoseTiming (observed : ObservedMessageSeries) (context : MessageSeriesComparisonContext)
    (missing : List String) : List MessageSeriesComparisonDiagnostic :=
  (if context.timedOut ∧ missing ≠ [] then
    [⟨"timeout-before-expectations", "/expected",
      "the comparison deadline elapsed before all expectations matched",
      some (jsonValue (.arr (missing.map .str))), context.timeoutObservationOrder.map .num⟩]
  else []) ++
  (observed.messages.nodes.flatMap fun message =>
    diagnoseObservationTiming .message message.messageId message.observationOrder context) ++
  observed.commandOutcomes.flatMap fun outcome =>
    diagnoseObservationTiming .commandOutcome outcome.responseMessageId outcome.observationOrder
      context

/-! ## Diagnostics of expected nodes -/

/-- `push_field_mismatch`. -/
def fieldMismatch (mismatch : Bool) (code path message : String) (expected observed : Json) :
    List MessageSeriesComparisonDiagnostic :=
  if mismatch then [⟨code, path, message, some expected, some observed⟩] else []

/-- `diagnose_matched_fields`. -/
def diagnoseMatchedFields (expected : ExpectedMessageNode) (observed : ObservedMessageNode)
    (series : ObservedMessageSeries) : List MessageSeriesComparisonDiagnostic :=
  let base := "expected:" ++ expected.key
  fieldMismatch (expected.kind ≠ observed.kind) "kind-mismatch" (base ++ "/kind")
      "message kind differs" (jsonValue (.str expected.kind.name))
      (jsonValue (.str observed.kind.name)) ++
    fieldMismatch (expected.name ≠ observed.name) "name-mismatch" (base ++ "/name")
      "message name differs" (.str expected.name) (.str observed.name) ++
    fieldMismatch (expected.schemaVersion ≠ observed.schemaVersion) "schema-version-mismatch"
      (base ++ "/schemaVersion") "message schema version differs"
      (.num expected.schemaVersion.toNat) (.num observed.schemaVersion.toNat) ++
    fieldMismatch (expected.context ≠ observed.context) "command-context-mismatch"
      (base ++ "/context") "command bounded context differs"
      (.orNull (expected.context.map .str)) (.orNull (observed.context.map .str)) ++
    (if payloadMismatch expected observed then
      [⟨"payload-mismatch", base ++ "/payload",
        "observed payload does not contain the expected JSON subset", expected.payload,
        observed.payload⟩]
    else []) ++
    if outcomeMismatch expected observed series then
      [⟨"command-outcome-mismatch", base ++ "/outcome",
        "observed command outcome does not match the expectation",
        expected.outcome.map fun outcome => jsonValue outcome.toJson,
        (series.commandOutcome observed.messageId).map fun outcome =>
          jsonValue outcome.outcome.toJson⟩]
    else []

/-- The diagnostics of `diagnose_unmatched_expected`, given the messages that agree with the node. -/
def diagnoseUnmatchedExpected (expected : ExpectedMessageNode)
    (contentMatches : List ObservedMessageNode) (matchedIds : Finset String)
    (expectedParentId : Option String) : List MessageSeriesComparisonDiagnostic :=
  let sorted := sortBy ObservedMessageNode.messageId contentMatches
  (match sorted.find? fun candidate => decide (candidate.messageId ∉ matchedIds) with
    | some candidate =>
      [⟨"causation-mismatch", "expected:" ++ expected.key ++ "/parentKey",
        "expected message `" ++ expected.key ++
          "` has a content match with the wrong observed causation identity",
        some (.orNull (expectedParentId.map .str)),
        some (.orNull (candidate.causationId.map .str))⟩]
    | none =>
      match sorted.head? with
      | some candidate =>
        [⟨"identity-conflict", "expected:" ++ expected.key,
          "one observed identity would have to satisfy multiple expected nodes",
          some (jsonValue expected.toJson), some (.str candidate.messageId)⟩]
      | none => []) ++
    [⟨"missing-expected", "expected:" ++ expected.key,
      "no observed message satisfies expected node `" ++ expected.key ++ "`",
      some (jsonValue expected.toJson), none⟩]

/-! ## The comparison -/

/-- The items that satisfy a condition, at a step for each item; nothing if the steps do not suffice. -/
def filterWithin {α : Type} (condition : α → Bool) : List α → Nat → Option (List α × Nat)
  | [], steps => some ([], steps)
  | _ :: _, 0 => none
  | a :: items, steps + 1 =>
    (filterWithin condition items steps).map fun (kept, left) =>
      (if condition a then a :: kept else kept, left)

/-- The accumulators of `compare_message_series`. -/
structure ComparisonRun where
  matched : Finmap fun _ : String => String
  matchedIds : Finset String
  missing : List String
  diagnostics : List MessageSeriesComparisonDiagnostic
  remainingSteps : Nat

variable [Crates]

/-- `candidate_rank`. -/
def candidateRank (expected : ExpectedMessageNode) (series : ObservedMessageSeries)
    (observed : ObservedMessageNode) : List Bool ×ₗ (List Nat ×ₗ String) :=
  toLex ([decide (expected.kind ≠ observed.kind), decide (expected.name ≠ observed.name),
    decide (expected.schemaVersion ≠ observed.schemaVersion),
    decide (expected.context ≠ observed.context), payloadMismatch expected observed,
    outcomeMismatch expected observed series], observedOrder series observed)

/-- The message may be the one of the node: no node has it, and it is caused by the message that the
node's parent has. -/
def isCandidate (expected : ExpectedMessageNode) (run : ComparisonRun)
    (candidate : ObservedMessageNode) : Bool :=
  decide (candidate.messageId ∉ run.matchedIds) &&
    match expected.parentKey with
    | none => candidate.causationId.isNone
    | some parentKey =>
      (run.matched.lookup parentKey).any fun parentId => candidate.causationId == some parentId

/-- A turn of the fallback: whether the budget is spent, and the accumulators. -/
def fallbackTurn (observed : ObservedMessageSeries) (expected : ExpectedMessageNode)
    (run : ComparisonRun) : Bool × ComparisonRun :=
  match filterWithin (isCandidate expected run) observed.messages.nodes run.remainingSteps with
  | none => (true, { run with remainingSteps := 0 })
  | some (candidates, steps) =>
    match (sortBy (candidateRank expected observed) candidates).head? with
    | none =>
      match filterWithin (contentMatches expected · observed) observed.messages.nodes steps with
      | none => (true, { run with remainingSteps := 0 })
      | some (content, steps) =>
        (false, { run with
          missing := run.missing ++ [expected.key]
          diagnostics := run.diagnostics ++ diagnoseUnmatchedExpected expected content run.matchedIds
            (expected.parentKey.bind run.matched.lookup)
          remainingSteps := steps })
    | some candidate =>
      let diagnostics := diagnoseMatchedFields expected candidate observed
      (false, {
        matched := run.matched.insert expected.key candidate.messageId
        matchedIds := insert candidate.messageId run.matchedIds
        missing := if diagnostics = [] then run.missing else run.missing ++ [expected.key]
        diagnostics := run.diagnostics ++ diagnostics
        remainingSteps := steps })

/-- The loop labelled `'fallback`. -/
def fallback (observed : ObservedMessageSeries) :
    List ExpectedMessageNode → ComparisonRun → Bool × ComparisonRun
  | [], run => (false, run)
  | expected :: rest, run =>
    match fallbackTurn observed expected run with
    | (true, run) => (true, run)
    | (false, run) => fallback observed rest run

/-- The expected nodes by their depth, then by their key. A graph that was accepted is not deeper than
the turns that `expectedDepth` is given. -/
def expectedNodes (expected : MessageGraphDefinition) : List ExpectedMessageNode :=
  sortBy (fun node => toLex
      ((expected.expectedDepth maximumExpectedGraphDepth node).getD 0, node.key))
    expected.nodes.nodes

/-- The matching of `compare_message_series`: whether the budget was spent, and the accumulators. -/
def compareRun (expected : MessageGraphDefinition) (observed : ObservedMessageSeries) :
    Bool × ComparisonRun :=
  let start : ComparisonRun := ⟨∅, ∅, [], observedStructureDiagnostics observed, 0⟩
  match findCompleteCausalAssignment expected observed with
  | .complete complete =>
    (false, { start with
      matched := complete
      matchedIds := complete.keys.image fun key => (complete.lookup key).getD "" })
  | .incomplete remainingSteps =>
    fallback observed (expectedNodes expected) { start with remainingSteps := remainingSteps }
  | .exhausted => (true, start)

/-- The last diagnostics of `compare_message_series`. -/
def finalDiagnostics (observed : ObservedMessageSeries) (context : MessageSeriesComparisonContext) :
    Bool × ComparisonRun → List MessageSeriesComparisonDiagnostic
  | (true, run) =>
    run.diagnostics ++ [⟨"comparison-work-limit-exceeded", "/expected",
      "message-series comparison exceeded its deterministic " ++ toString maximumComparisonSteps ++
        "-step work limit", none, none⟩]
  | (false, run) =>
    run.diagnostics ++ diagnoseUnexpectedObservations observed run.matchedIds ++
      diagnoseTiming observed context run.missing

/-- `compare_message_series`. -/
def compareMessageSeries (expected : MessageGraphDefinition) (observed : ObservedMessageSeries)
    (context : MessageSeriesComparisonContext) : MessageSeriesComparison :=
  let result := compareRun expected observed
  let diagnostics := sortBy (fun d => toLex (d.path, toLex (d.code, d.message)))
    (finalDiagnostics observed context result)
  { status := if diagnostics = [] then .passed else .failed
    matched := (result.2.matched.keys.sort (· ≤ ·)).filterMap fun key =>
      (result.2.matched.lookup key).map (⟨key, ·⟩)
    diagnostics := diagnostics }

/-- The comparison has exceeded its work limit. -/
def workLimitExceeded (expected : MessageGraphDefinition) (observed : ObservedMessageSeries) : Bool :=
  (compareRun expected observed).1

end Rostfrei.Tracer
