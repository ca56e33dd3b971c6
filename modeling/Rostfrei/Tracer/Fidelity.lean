import Rostfrei.Messaging.Topology
import Rostfrei.Tracer.Correlation
import Rostfrei.Tracer.Window

/-!
# Fidelity

What the tracer says of the links of a series: *exact*, if the identities are complete, or only
*grouped*.

- `messageSeriesFidelity` (`service.rs`) of an operation and its evidence is exact exactly for a
  tree of messages with their outcomes (`messageSeriesFidelity_eq_exact`).
- `FeedState.flow` (`observation.rs`) asks for the cause of every message, and for every cause among
  the messages. A series with messages does not have both (`not_completeIdentities`), so that every
  flow is grouped, and `flow_fidelity` says for which flows this is right.
-/

namespace Rostfrei.Tracer

open Lib Messaging

inductive MessageSeriesFidelity where
  | exact
  | grouped
deriving DecidableEq, Repr

/-! ## Operations -/

structure OperationCaptureSnapshot where
  operationId : String
  correlationId : String
  mode : OperationMode
  status : OperationStatus
  latestEventId : Nat
deriving DecidableEq, Repr

structure CorrelationEvidenceSnapshot where
  observed : ObservedMessageSeries
  conflicts : List CorrelationObservationConflict
  failure : Option CorrelationObservationFailure
  revision : Nat

/-- `MessageSeries::roots`. -/
def ObservedMessageSeries.roots (s : ObservedMessageSeries) : List ObservedMessageNode :=
  s.messages.nodes.filter (·.causationId.isNone)

/-- `message_series_fidelity`. -/
def messageSeriesFidelity (operation : OperationCaptureSnapshot)
    (evidence : CorrelationEvidenceSnapshot) (settled : Bool) : MessageSeriesFidelity :=
  let messages := evidence.observed.messages.nodes
  let roots := evidence.observed.roots
  if settled ∧ operation.mode ≠ .simulate ∧ operation.status.isTerminal ∧
      evidence.conflicts.isEmpty ∧ evidence.failure.isNone ∧ roots.length = 1 ∧
      (roots.head?.any fun root => root.kind = .command) ∧
      (messages.all fun message => message.correlationId = operation.correlationId) ∧
      ((messages.filter (·.kind ≠ .command)).all fun message => message.causationId.isSome) ∧
      ((messages.filter (·.kind = .command)).all fun command =>
        (evidence.observed.commandOutcome command.messageId).isSome) ∧
      evidence.observed.messages.topologyIssues.isEmpty ∧ evidence.observed.outcomeIssues.isEmpty
  then .exact else .grouped

namespace ObservedMessageSeries

variable {s : ObservedMessageSeries}

/-- The messages are a tree: the causes of each lead to the only one without a cause, a command. -/
def IsTree (s : ObservedMessageSeries) : Prop :=
  ∃ root ∈ s.messages.nodes, root.causationId = none ∧ root.kind = .command ∧
    ∀ message ∈ s.messages.nodes, Relation.ReflTransGen (CausedBy s.messages.nodes) message root

/-- Every command has one outcome, and every outcome is one of a command. -/
structure OneOutcome (s : ObservedMessageSeries) : Prop where
  commands : ∀ command ∈ s.messages.nodes, command.kind = .command →
    ∃ outcome, s.commandOutcomes.filter (·.commandMessageId = command.messageId) = [outcome]
  outcomes : ∀ outcome ∈ s.commandOutcomes, ∃ command ∈ s.messages.nodes,
    command.kind = .command ∧ command.messageId = outcome.commandMessageId

/-- Every outcome has the correlation of its command. -/
def OutcomesCorrelated (s : ObservedMessageSeries) : Prop :=
  ∀ outcome ∈ s.commandOutcomes, ∀ command ∈ s.messages.nodes,
    command.messageId = outcome.commandMessageId → outcome.correlationId = command.correlationId

/-- The only message without a cause is the root that every message leads to. -/
theorem roots_of_isTree {root : ObservedMessageNode} (hroot : root ∈ s.messages.nodes)
    (hcause : root.causationId = none)
    (hreach : ∀ message ∈ s.messages.nodes,
      Relation.ReflTransGen (CausedBy s.messages.nodes) message root) : s.roots = [root] := by
  have hmem : ∀ message, message ∈ s.roots ↔ message = root := by
    intro message
    simp only [roots, List.mem_filter, Option.isNone_iff_eq_none]
    constructor
    · rintro ⟨hmessage, hnone⟩
      rcases Relation.ReflTransGen.cases_head (hreach message hmessage) with rfl | ⟨parent, hcaused, -⟩
      · rfl
      · exact absurd hnone hcaused.ne_root
    · rintro rfl
      exact ⟨hroot, hcause⟩
  have hnodup : s.roots.Nodup := (List.Nodup.of_map _ s.messages.ids_nodup).filter _
  have hperm : s.roots.Perm [root] := (List.perm_ext_iff_of_nodup hnodup (by simp)).mpr (by simpa using hmem)
  exact List.perm_singleton.mp hperm

/-- One root, and links that are complete. -/
theorem isTree_iff (hsame : ∀ a ∈ s.messages.nodes, ∀ b ∈ s.messages.nodes,
      a.correlationId = b.correlationId) :
    s.IsTree ↔ (∃ root, s.roots = [root] ∧ root.kind = .command) ∧ s.messages.LinksComplete := by
  constructor
  · rintro ⟨root, hroot, hcause, hkind, hreach⟩
    have hdepth : ∀ node ∈ s.messages.nodes, ∃ d, AtDepth s.messages.nodes node d := fun node hnode =>
      atDepth_of_reaches hroot hcause (hreach node hnode)
    refine ⟨⟨root, roots_of_isTree hroot hcause hreach, hkind⟩, fun child hchild id hid => ?_,
      MessageSeries.acyclic_of_atDepth hdepth⟩
    obtain ⟨d, hd⟩ := hdepth child hchild
    cases hd with
    | root _ hnone => simp [hnone] at hid
    | @child _ parent _ hcaused _ =>
      exact ⟨parent, hcaused.2.1, Option.some.inj (hcaused.2.2.symm.trans hid),
        hsame child hchild parent hcaused.2.1⟩
  · rintro ⟨⟨root, hroots, hkind⟩, hlinks⟩
    have hroot : root ∈ s.messages.nodes ∧ root.causationId = none := by
      have : root ∈ s.roots := by rw [hroots]; exact List.mem_singleton_self root
      simpa [roots] using this
    refine ⟨root, hroot.1, hroot.2, hkind, fun message hmessage => ?_⟩
    obtain ⟨d, hd⟩ := hlinks.exists_atDepth hmessage
    obtain ⟨top, htop, hcause, hreach⟩ := hd.reaches
    -- the way up ends at a message without a cause, and there is only one
    have : top ∈ s.roots := List.mem_filter.mpr ⟨htop, Option.isNone_iff_eq_none.mpr hcause⟩
    rw [hroots] at this
    obtain rfl := List.mem_singleton.mp this
    exact hreach

theorem outcomeIssue_eq_none {outcome : ObservedCommandOutcome} :
    s.outcomeIssue outcome = none ↔ ∃ command ∈ s.messages.nodes, command.kind = .command ∧
      command.messageId = outcome.commandMessageId ∧
      outcome.correlationId = command.correlationId := by
  unfold outcomeIssue
  rcases hget : s.messages.get outcome.commandMessageId with _ | message
  · simp only [reduceCtorEq, false_iff, not_exists, not_and]
    exact fun command hcommand _ hid => absurd hid (s.messages.get_eq_none.mp hget command hcommand)
  · obtain ⟨hmem, hid⟩ := s.messages.get_eq_some.mp hget
    simp only
    constructor
    · intro h
      split at h
      · cases h
      split at h
      · cases h
      · next hkind hcorrelation =>
        exact ⟨message, hmem, not_not.mp hkind, hid, (not_not.mp hcorrelation).symm⟩
    · rintro ⟨command, hcommand, hkind, hid', hcorrelation⟩
      obtain rfl := s.messages.eq_of_messageId hmem hcommand (hid.trans hid'.symm)
      rw [if_neg (not_not.mpr hkind), if_neg (not_not.mpr hcorrelation.symm)]

theorem outcomeIssues_eq_nil :
    s.outcomeIssues = [] ↔ s.OutcomesCorrelated ∧ ∀ outcome ∈ s.commandOutcomes,
      ∃ command ∈ s.messages.nodes, command.kind = .command ∧
        command.messageId = outcome.commandMessageId := by
  simp only [outcomeIssues, List.filterMap_eq_nil_iff, outcomeIssue_eq_none]
  constructor
  · intro h
    refine ⟨fun outcome houtcome message hmessage hid => ?_, fun outcome houtcome => ?_⟩
    · obtain ⟨command, hcommand, -, hid', hcorrelation⟩ := h outcome houtcome
      rw [s.messages.eq_of_messageId hmessage hcommand (hid.trans hid'.symm)]
      exact hcorrelation
    · obtain ⟨command, hcommand, hkind, hid, -⟩ := h outcome houtcome
      exact ⟨command, hcommand, hkind, hid⟩
  · rintro ⟨hcorrelated, hcommands⟩ outcome houtcome
    obtain ⟨command, hcommand, hkind, hid⟩ := hcommands outcome houtcome
    exact ⟨command, hcommand, hkind, hid, hcorrelated outcome houtcome command hcommand hid⟩

/-- A recorded outcome is the only one of its command. -/
theorem isSome_commandOutcome {id : String} :
    (s.commandOutcome id).isSome ↔
      ∃ outcome, s.commandOutcomes.filter (·.commandMessageId = id) = [outcome] := by
  constructor
  · intro h
    obtain ⟨outcome, houtcome⟩ := Option.isSome_iff_exists.mp h
    have hid : outcome.commandMessageId = id := by simpa using List.find?_some houtcome
    refine ⟨outcome, List.perm_singleton.mp ((List.perm_ext_iff_of_nodup
      ((List.Nodup.of_map _ s.commands_nodup).filter _) (by simp)).mpr fun other => ?_)⟩
    simp only [List.mem_filter, decide_eq_true_eq, List.mem_singleton]
    constructor
    · rintro ⟨hother, hid'⟩
      exact List.inj_on_of_nodup_map s.commands_nodup hother (List.mem_of_find?_eq_some houtcome)
        (hid'.trans hid.symm)
    · rintro rfl
      exact ⟨List.mem_of_find?_eq_some houtcome, hid⟩
  · rintro ⟨outcome, hfilter⟩
    have : outcome ∈ s.commandOutcomes.filter (·.commandMessageId = id) := by simp [hfilter]
    obtain ⟨hmem, hid⟩ := List.mem_filter.mp this
    exact List.find?_isSome.mpr ⟨outcome, hmem, hid⟩

end ObservedMessageSeries

/-- An exact capture: a tree of messages of the operation's correlation with one outcome for each
command, and nothing that contradicts it. -/
structure CorrelationEvidenceSnapshot.Complete (evidence : CorrelationEvidenceSnapshot)
    (correlationId : String) : Prop where
  tree : evidence.observed.IsTree
  correlation : ∀ message ∈ evidence.observed.messages.nodes, message.correlationId = correlationId
  outcome : evidence.observed.OneOutcome
  conflicts : evidence.conflicts = []
  failure : evidence.failure = none

/-- The fidelity of a capture is exact exactly if it is settled, of an operation that has ended and
was no simulation, its evidence is complete and the outcomes have the correlation of their
commands. -/
theorem messageSeriesFidelity_eq_exact (operation : OperationCaptureSnapshot)
    (evidence : CorrelationEvidenceSnapshot) (settled : Bool) :
    messageSeriesFidelity operation evidence settled = .exact ↔
      settled = true ∧ operation.status.isTerminal = true ∧ operation.mode ≠ .simulate ∧
        evidence.Complete operation.correlationId ∧ evidence.observed.OutcomesCorrelated := by
  have hif : ∀ c : Prop, ∀ [Decidable c],
      (if c then MessageSeriesFidelity.exact else .grouped) = .exact ↔ c := by
    intro c hc
    split <;> simp_all
  simp only [messageSeriesFidelity, hif, List.isEmpty_iff, Option.isNone_iff_eq_none,
    List.all_eq_true, List.mem_filter, decide_eq_true_eq, and_imp,
    ObservedMessageSeries.isSome_commandOutcome, MessageSeries.topologyIssues_eq_nil,
    ObservedMessageSeries.outcomeIssues_eq_nil]
  have hroots : ∀ roots : List ObservedMessageNode, (roots.length = 1 ∧
      (roots.head?.any fun root => decide (root.kind = .command)) = true) ↔
      ∃ root, roots = [root] ∧ root.kind = .command := by
    intro roots
    rw [List.length_eq_one_iff]
    constructor
    · rintro ⟨⟨root, rfl⟩, hkind⟩
      exact ⟨root, rfl, by simpa using hkind⟩
    · rintro ⟨root, rfl, hkind⟩
      exact ⟨⟨root, rfl⟩, by simpa using hkind⟩
  constructor
  · rintro ⟨hsettled, hmode, hterminal, hconflicts, hfailure, hone, hcommand, hcorrelation, -,
      hcommands, hlinks, hcorrelated, houtcomes⟩
    refine ⟨hsettled, hterminal, hmode, ⟨?_, hcorrelation, ⟨hcommands, houtcomes⟩, hconflicts,
      hfailure⟩, hcorrelated⟩
    exact (ObservedMessageSeries.isTree_iff fun a ha b hb =>
      (hcorrelation a ha).trans (hcorrelation b hb).symm).mpr ⟨(hroots _).mp ⟨hone, hcommand⟩, hlinks⟩
  · rintro ⟨hsettled, hterminal, hmode, ⟨htree, hcorrelation, ⟨hcommands, houtcomes⟩, hconflicts,
      hfailure⟩, hcorrelated⟩
    obtain ⟨hroot, hlinks⟩ := (ObservedMessageSeries.isTree_iff fun a ha b hb =>
      (hcorrelation a ha).trans (hcorrelation b hb).symm).mp htree
    obtain ⟨hone, hcommand⟩ := (hroots _).mpr hroot
    refine ⟨hsettled, hmode, hterminal, hconflicts, hfailure, hone, hcommand, hcorrelation,
      fun message hmessage hkind => ?_, hcommands, hlinks, hcorrelated, houtcomes⟩
    -- a message without a cause is the root, which is a command
    by_contra hnone
    obtain ⟨root, hroots, hroot⟩ := hroot
    have : message ∈ evidence.observed.roots := by
      simpa [ObservedMessageSeries.roots] using And.intro hmessage (by simpa using hnone)
    rw [hroots] at this
    obtain rfl := List.mem_singleton.mp this
    exact hkind hroot

/-- The outcome of the only command is recorded under another correlation. -/
theorem outcome_of_other_correlation : ∃ (operation : OperationCaptureSnapshot)
    (evidence : CorrelationEvidenceSnapshot), operation.status.isTerminal = true ∧
      operation.mode ≠ .simulate ∧ evidence.Complete operation.correlationId ∧
      messageSeriesFidelity operation evidence true = .grouped := by
  let command : ObservedMessageNode :=
    .command "command-1" "correlation-1" none 0 "PlaceOrder" 1 "orders" none
  let outcome : ObservedCommandOutcome :=
    ⟨"response-1", "command-1", "correlation-2", 1, .accepted⟩
  let observed : ObservedMessageSeries :=
    ⟨⟨[command], by simp, by simp [maxMessageSeriesNodes]⟩, [outcome], 2, by simp, by simp⟩
  refine ⟨⟨"operation-1", "correlation-1", .test, .completed, 3⟩, ⟨observed, [], none, 2⟩, rfl,
    by simp, ⟨⟨command, by simp [observed], rfl, rfl, ?_⟩, ?_, ⟨?_, ?_⟩, rfl, rfl⟩, ?_⟩
  · simp [observed, Relation.ReflTransGen.refl]
  · simp [observed, command, ObservedMessageNode.correlationId]
  · simp [observed, command, outcome, ObservedMessageNode.messageId]
  · simp [observed, command, outcome, ObservedMessageNode.messageId, ObservedMessageNode.kind]
  · have hissue : observed.outcomeIssues ≠ [] := by
      rw [Ne, ObservedMessageSeries.outcomeIssues_eq_nil]
      rintro ⟨hcorrelated, -⟩
      have := hcorrelated outcome (by simp [observed]) command (by simp [observed]) rfl
      exact absurd this (by decide)
    simp [messageSeriesFidelity, hissue]

/-! ## Flows -/

structure ObservedFlow where
  summary : ObservedFlowSummary
  application : String
  scope : ObservationScope
  generation : String
  messageSeries : ObservedMessageSeries
  fidelity : MessageSeriesFidelity
  isPartial : Bool

namespace FlowRecord

/-- `complete_identities`. -/
def completeIdentities (flow : FlowRecord) : Bool :=
  !flow.summary.conflicted && !flow.summary.truncated && !flow.series.messages.nodes.isEmpty &&
    flow.series.messages.topologyIssues.isEmpty &&
    flow.series.messages.nodes.all fun message => message.causationId.isSome

/-- A flow of which nothing is known to be missing. -/
structure Complete (flow : FlowRecord) : Prop where
  consistent : flow.summary.conflicted = false
  whole : flow.summary.truncated = false
  ne_nil : flow.series.messages.nodes ≠ []
  links : flow.series.messages.LinksComplete

/-- The causes of the messages are not all among them. -/
theorem not_completeIdentities (flow : FlowRecord) : flow.completeIdentities = false := by
  rw [Bool.eq_false_iff]
  intro h
  simp only [completeIdentities, Bool.and_eq_true, Bool.not_eq_true', List.isEmpty_iff,
    MessageSeries.topologyIssues_eq_nil, List.all_eq_true] at h
  obtain ⟨⟨⟨-, hne⟩, hlinks⟩, hcaused⟩ := h
  obtain ⟨root, hroot, hcause⟩ := hlinks.exists_root (by simpa using hne)
  have hsome := hcaused root hroot
  rw [show root.causationId = none from hcause] at hsome
  cases hsome

end FlowRecord

/-- `flow`. -/
def FeedState.flow (application : String) (scope : ObservationScope) (s : FeedState) (id : String) :
    Except ObservationError ObservedFlow := do
  let flow ← okOr .expired (s.flows.find? (·.summary.id = id))
  return {
    summary := flow.summary
    application := application
    scope := scope
    generation := s.generation
    messageSeries := flow.series
    fidelity := if flow.completeIdentities then .exact else .grouped
    isPartial := true }

/-- A flow that is found is reported as grouped. -/
theorem FeedState.flow_of_find {application : String} {scope : ObservationScope} {s : FeedState}
    {id : String} {flow : FlowRecord} (h : s.flows.find? (·.summary.id = id) = some flow) :
    s.flow application scope id =
      .ok ⟨flow.summary, application, scope, s.generation, flow.series, .grouped, true⟩ := by
  rw [FeedState.flow, h]
  simp [okOr, flow.not_completeIdentities]

section

variable [Crates] {policy : Json → Option Json} {scope : ObservationScope}

/-- In every state of a feed, the flow that is found for a retained flow, which is this flow as long
as its identities are distinct, has the fidelity of its links exactly if they are not complete. -/
theorem flow_fidelity (application : String) {s : FeedState}
    (hreachable : (feedMachine policy scope).Reachable s) (flow : FlowRecord) (hflow : flow ∈ s.flows) :
    ∃ found ∈ s.flows, found.summary.id = flow.summary.id ∧
      (s.revision < counterMax → found = flow) ∧
      ∃ observed, s.flow application scope flow.summary.id = .ok observed ∧
        observed.summary = found.summary ∧ observed.messageSeries = found.series ∧
        (((found.Complete → observed.fidelity = .exact) ∧
          (¬ found.Complete → observed.fidelity = .grouped)) ↔ ¬ found.Complete) := by
  obtain ⟨s₀, labels, hstart, hrun⟩ := hreachable
  have hkept := (feed_kept hstart hrun).1
  obtain ⟨found, hfound⟩ : ∃ found, s.flows.find? (·.summary.id = flow.summary.id) = some found :=
    Option.isSome_iff_exists.mp (List.find?_isSome.mpr ⟨flow, hflow, by simp⟩)
  have hmem := List.mem_of_find?_eq_some hfound
  have hid : found.summary.id = flow.summary.id := by simpa using List.find?_some hfound
  refine ⟨found, hmem, hid, fun hrevision => ?_, _, FeedState.flow_of_find hfound, rfl, rfl, ?_⟩
  · exact List.inj_on_of_nodup_map (hkept.window.distinct hrevision) hmem hflow hid
  · simp

end

section Orders

attribute [local instance] Crates.concrete

/-- What is retained of the event of an order and of what it caused. -/
def orderFlow : List ObservedMessageNode :=
  [.domainEvent "event-1" "correlation-1" none 0 "OrderPlaced" 1 none none,
    .integrationEvent "integration-1" "correlation-1" (some "event-1") 1 "order-placed" 1 none]

/-- The event of an order is observed. -/
def orderObserved : FeedState := (FeedState.new "1").observe (fun _ => none) .test orderPlaced

/-- The event that it caused. -/
def orderPublished : ObservedMessageNode :=
  .integrationEvent "integration-1" "correlation-1" (some "event-1") 0 "order-placed" 1 none

theorem orderObserved_run :
    (feedMachine (fun _ => none) .test).Run (.new "1") [.observe orderPlaced] orderObserved :=
  .cons ⟨rfl, nofun⟩ (.nil _)

/-- An event without a cause and the event that it caused: every cause is retained. -/
theorem complete_flow_grouped : ∃ (s : FeedState) (flow : FlowRecord) (observed : ObservedFlow),
    (feedMachine (fun _ => none) .test).Reachable s ∧ flow ∈ s.flows ∧ flow.Complete ∧
      s.flow "orders" .test flow.summary.id = .ok observed ∧ observed.fidelity = .grouped := by
  obtain ⟨s, hs⟩ : ∃ s, s = orderObserved.observe (fun _ => none) .test orderPublished := ⟨_, rfl⟩
  have hflows : s.flows.map (fun flow => (flow.summary.conflicted, flow.summary.truncated,
      flow.series.messages.nodes)) = [(false, false, orderFlow)] := by
    rw [hs]
    decide +kernel
  obtain ⟨flow, hflow, hcontent⟩ := List.map_eq_singleton_iff.mp hflows
  obtain ⟨hconsistent, hwhole, hnodes⟩ : flow.summary.conflicted = false ∧
      flow.summary.truncated = false ∧ flow.series.messages.nodes = orderFlow := by
    simpa using hcontent
  have hrun : (feedMachine (fun _ => none) .test).Run orderObserved [.observe orderPublished] s :=
    .cons ⟨hs, nofun⟩ (.nil _)
  have hreachable : (feedMachine (fun _ => none) .test).Reachable s :=
    hrun.reachable ⟨.new "1", [.observe orderPlaced], ⟨"1", rfl⟩, orderObserved_run⟩
  have hmem : flow ∈ s.flows := by simp [hflow]
  have hcaused : CausedBy flow.series.messages.nodes
      (.integrationEvent "integration-1" "correlation-1" (some "event-1") 1 "order-placed" 1 none)
      (.domainEvent "event-1" "correlation-1" none 0 "OrderPlaced" 1 none none) := by
    rw [hnodes]
    exact ⟨by simp [orderFlow], by simp [orderFlow], rfl⟩
  have hroot : AtDepth flow.series.messages.nodes
      (.domainEvent "event-1" "correlation-1" none 0 "OrderPlaced" 1 none none) 0 :=
    .root hcaused.2.1 rfl
  have hcomplete : flow.Complete := by
    refine ⟨hconsistent, hwhole, by simp [hnodes, orderFlow], fun child hchild id hid => ?_,
      MessageSeries.acyclic_of_atDepth fun node hnode => ?_⟩
    · rw [hnodes] at hchild ⊢
      simp only [orderFlow, List.mem_cons, List.not_mem_nil, or_false] at hchild
      rcases hchild with rfl | rfl
      · cases hid
      · exact ⟨_, List.mem_cons_self, Option.some.inj hid, rfl⟩
    · have hnode' := hnode
      rw [hnodes] at hnode'
      simp only [orderFlow, List.mem_cons, List.not_mem_nil, or_false] at hnode'
      rcases hnode' with rfl | rfl
      · exact ⟨0, hroot⟩
      · exact ⟨1, .child hcaused hroot⟩
  have hfound : s.flows.find? (·.summary.id = flow.summary.id) = some flow := by simp [hflow]
  exact ⟨s, flow, _, hreachable, hmem, hcomplete, FeedState.flow_of_find hfound, rfl⟩

/-- The flow of the event of an order. -/
theorem flow_fidelity_placed : ∃ flow found : FlowRecord, orderObserved.flows = [flow] ∧
    found.summary.id = flow.summary.id ∧ ∃ observed : ObservedFlow,
      orderObserved.flow "orders" .test flow.summary.id = .ok observed ∧
        observed.summary = found.summary := by
  have hlength : orderObserved.flows.length = 1 := by decide +kernel
  obtain ⟨flow, hflow⟩ := List.length_eq_one_iff.mp hlength
  obtain ⟨found, -, hid, -, observed, hobserved, hsummary, -⟩ :=
    flow_fidelity "orders" ⟨_, _, ⟨"1", rfl⟩, orderObserved_run⟩ flow (by simp [hflow])
  exact ⟨flow, found, hflow, hid, observed, hobserved, hsummary⟩

end Orders

end Rostfrei.Tracer
