import Rostfrei.Tracer.Compare
import Rostfrei.Tracer.Complete
import Rostfrei.Tracer.Fidelity

/-!
# Comparisons that pass

A comparison passes exactly if it stays within its work limit and the observations are what was
expected (`Conforms`): a causal map onto all the messages, links and outcomes of one correlation, and
no observation at a boundary (`passed_iff_conforms`).

`Placed` is what the fallback keeps as long as it has nothing to diagnose: the nodes that it has
passed have a causal map. At the end that would be a map of the whole graph, which the search has
excluded, so that the fallback never passes.
-/

namespace Rostfrei.Tracer

open Lib Messaging

/-- The observation has reached none of the boundaries. -/
structure Timely (context : MessageSeriesComparisonContext) (order : Nat) : Prop where
  timeout : ∀ boundary, context.timeoutObservationOrder = some boundary → order < boundary
  settleStarted : ∀ boundary, context.settleStartedAtOrder = some boundary → order < boundary
  settleCompleted : ∀ boundary, context.settleCompletedAtOrder = some boundary → order < boundary

/-- The observed messages are the expected ones. -/
structure Conforms (expected : MessageGraphDefinition) (observed : ObservedMessageSeries)
    (context : MessageSeriesComparisonContext) : Prop where
  tree : ∃ φ, CausalMap expected observed φ ∧
    ∀ o ∈ observed.messages.nodes, ∃ e ∈ expected.nodes.nodes, φ e = o
  links : ∀ child ∈ observed.messages.nodes, ∀ parent ∈ observed.messages.nodes,
    child.causationId = some parent.messageId → child.correlationId = parent.correlationId
  outcomes : ∀ outcome ∈ observed.commandOutcomes, ∃ command ∈ observed.messages.nodes,
    command.kind = .command ∧ command.messageId = outcome.commandMessageId ∧
      outcome.correlationId = command.correlationId
  messagesTimely : ∀ message ∈ observed.messages.nodes, Timely context message.observationOrder
  outcomesTimely : ∀ outcome ∈ observed.commandOutcomes, Timely context outcome.observationOrder

/-! ## Nothing to diagnose -/

section Diagnostics

variable {expected : ExpectedMessageNode} {node : ObservedMessageNode}
  {observed : ObservedMessageSeries} {context : MessageSeriesComparisonContext}

@[simp] theorem fieldMismatch_eq_nil {mismatch : Bool} {code path message : String} {a b : Json} :
    fieldMismatch mismatch code path message a b = [] ↔ mismatch = false := by
  unfold fieldMismatch
  split <;> simp_all

theorem diagnoseMatchedFields_eq_nil :
    diagnoseMatchedFields expected node observed = [] ↔
      contentMatches expected node observed = true := by
  simp only [diagnoseMatchedFields, List.append_eq_nil_iff, fieldMismatch_eq_nil,
    decide_eq_false_iff_not, ne_eq, not_not, ite_eq_right_iff, imp_false,
    contentMatches, decide_eq_true_eq, Bool.not_eq_true, Bool.not_eq_true', and_assoc,
    List.cons_ne_nil]

theorem diagnoseUnmatchedExpected_ne_nil {content : List ObservedMessageNode}
    {matchedIds : Finset String} {parentId : Option String} :
    diagnoseUnmatchedExpected expected content matchedIds parentId ≠ [] := by
  simp [diagnoseUnmatchedExpected]

theorem observedStructureDiagnostics_eq_nil :
    observedStructureDiagnostics observed = [] ↔
      observed.messages.LinksComplete ∧ ∀ outcome ∈ observed.commandOutcomes,
        ∃ command ∈ observed.messages.nodes, command.kind = .command ∧
          command.messageId = outcome.commandMessageId ∧
          outcome.correlationId = command.correlationId := by
  simp only [observedStructureDiagnostics, List.append_eq_nil_iff, List.map_eq_nil_iff,
    MessageSeries.topologyIssues_eq_nil, ObservedMessageSeries.outcomeIssues,
    List.filterMap_eq_nil_iff, ObservedMessageSeries.outcomeIssue_eq_none]

theorem diagnoseUnexpectedObservations_eq_nil {matchedIds : Finset String} :
    diagnoseUnexpectedObservations observed matchedIds = [] ↔
      ∀ message ∈ observed.messages.nodes, message.messageId ∈ matchedIds := by
  rw [diagnoseUnexpectedObservations, List.map_eq_nil_iff, sortBy_eq_nil, List.filter_eq_nil_iff]
  simp

theorem reaches_eq_false {order : Nat} {boundary : Option Nat} :
    reaches order boundary = false ↔ ∀ b, boundary = some b → order < b := by
  cases boundary <;> simp [reaches]

theorem diagnoseObservationTiming_eq_nil {kind : TimedObservationKind} {id : String} {order : Nat} :
    diagnoseObservationTiming kind id order context = [] ↔ Timely context order := by
  have htimely : Timely context order ↔ reaches order context.timeoutObservationOrder = false ∧
      reaches order context.settleCompletedAtOrder = false ∧
      reaches order context.settleStartedAtOrder = false := by
    simp only [reaches_eq_false]
    exact ⟨fun h => ⟨h.timeout, h.settleCompleted, h.settleStarted⟩, fun h => ⟨h.1, h.2.2, h.2.1⟩⟩
  rw [htimely, diagnoseObservationTiming, List.append_eq_nil_iff]
  refine and_congr (by split <;> simp_all) ?_
  split
  · simp_all
  · split <;> simp_all

/-- Where no expected node is missing, only the boundaries count. -/
theorem diagnoseTiming_eq_nil :
    diagnoseTiming observed context [] = [] ↔
      (∀ message ∈ observed.messages.nodes, Timely context message.observationOrder) ∧
      ∀ outcome ∈ observed.commandOutcomes, Timely context outcome.observationOrder := by
  simp only [diagnoseTiming, ne_eq, not_true_eq_false, and_false, if_false, List.nil_append,
    List.append_eq_nil_iff, List.flatMap_eq_nil_iff, diagnoseObservationTiming_eq_nil]

end Diagnostics

/-! ## The fallback -/

section Fallback

variable [Crates] {expected : MessageGraphDefinition} {observed : ObservedMessageSeries}
  {done : List ExpectedMessageNode} {e : ExpectedMessageNode} {run run' : ComparisonRun}

omit [Crates] in
theorem filterWithin_eq {α : Type} {condition : α → Bool} {items kept : List α} {steps left : Nat}
    (h : filterWithin condition items steps = some (kept, left)) : kept = items.filter condition := by
  induction items generalizing kept steps left with
  | nil =>
    simp only [filterWithin, Option.some.injEq, Prod.mk.injEq] at h
    exact h.1.symm
  | cons a items ih =>
    cases steps with
    | zero => cases h
    | succ steps =>
      simp only [filterWithin, Option.map_eq_some_iff, Prod.mk.injEq] at h
      obtain ⟨⟨kept', left'⟩, hrest, rfl, -⟩ := h
      rw [ih hrest, List.filter_cons]

/-- The message of a node that was passed. -/
structure PlacedAt (observed : ObservedMessageSeries) (run : ComparisonRun)
    (e : ExpectedMessageNode) (o : ObservedMessageNode) : Prop where
  mem : o ∈ observed.messages.nodes
  entry : run.matched.lookup e.key = some o.messageId
  taken : o.messageId ∈ run.matchedIds
  agrees : contentMatches e o observed = true
  root : e.parentKey = none → o.causationId = none
  child : ∀ key, e.parentKey = some key → ∃ id, run.matched.lookup key = some id ∧
    o.causationId = some id

/-- The nodes that were passed have different messages. -/
structure Placed (observed : ObservedMessageSeries) (done : List ExpectedMessageNode)
    (run : ComparisonRun) : Prop where
  placed : ∀ e ∈ done, ∃ o, PlacedAt observed run e o
  inj : ∀ e ∈ done, ∀ e' ∈ done, run.matched.lookup e.key = run.matched.lookup e'.key → e = e'
  keys : ∀ key id, run.matched.lookup key = some id → ∃ e ∈ done, e.key = key

omit [Crates] in
theorem isCandidate_iff {o : ObservedMessageNode} :
    isCandidate e run o = true ↔ o.messageId ∉ run.matchedIds ∧
      (e.parentKey = none → o.causationId = none) ∧
      ∀ key, e.parentKey = some key → ∃ id, run.matched.lookup key = some id ∧
        o.causationId = some id := by
  unfold isCandidate
  rw [Bool.and_eq_true, decide_eq_true_eq]
  refine and_congr_right fun _ => ?_
  rcases e.parentKey with _ | key
  · simp
  · simp [Option.any_eq_true]

/-- A turn without a diagnostic has given the node a candidate that agrees with it. -/
theorem fallbackTurn_nil (hturn : fallbackTurn observed e run = (false, run'))
    (hnone : run'.diagnostics = []) :
    run.diagnostics = [] ∧ ∃ o ∈ observed.messages.nodes, isCandidate e run o = true ∧
      contentMatches e o observed = true ∧
      run'.matched = run.matched.insert e.key o.messageId ∧
      run'.matchedIds = insert o.messageId run.matchedIds := by
  unfold fallbackTurn at hturn
  split at hturn
  · cases hturn
  next candidates steps hcandidates =>
  split at hturn
  · split at hturn
    · cases hturn
    · obtain rfl := congrArg Prod.snd hturn
      exact absurd (List.append_eq_nil_iff.mp hnone).2 diagnoseUnmatchedExpected_ne_nil
  · next candidate hhead =>
    obtain rfl := congrArg Prod.snd hturn
    obtain ⟨hdiagnostics, hfields⟩ := List.append_eq_nil_iff.mp hnone
    obtain ⟨hmem, hcandidate⟩ := List.mem_filter.mp
      (filterWithin_eq hcandidates ▸ mem_sortBy.mp (List.mem_of_head? hhead))
    exact ⟨hdiagnostics, candidate, hmem, hcandidate, diagnoseMatchedFields_eq_nil.mp hfields, rfl,
      rfl⟩

theorem Placed.turn (h : Placed observed done run)
    (hturn : fallbackTurn observed e run = (false, run')) (hnone : run'.diagnostics = [])
    (hfresh : ∀ e' ∈ done, e'.key ≠ e.key) : Placed observed (done ++ [e]) run' := by
  obtain ⟨-, o, hmem, hcandidate, hagrees, hmatched, hids⟩ := fallbackTurn_nil hturn hnone
  obtain ⟨hfree, hroot, hchild⟩ := isCandidate_iff.mp hcandidate
  have hself : run'.matched.lookup e.key = some o.messageId := by
    rw [hmatched, Finmap.lookup_insert]
  have hother : ∀ key, key ≠ e.key → run'.matched.lookup key = run.matched.lookup key := fun key hkey =>
    by rw [hmatched, Finmap.lookup_insert_of_ne _ hkey]
  -- an entry is never overwritten
  have hkeep : ∀ key id, run.matched.lookup key = some id → run'.matched.lookup key = some id := by
    intro key id hid
    obtain ⟨e', he', rfl⟩ := h.keys key id hid
    rw [hother _ (hfresh e' he'), hid]
  -- the message of a node before is another one
  have hdifferent : ∀ e' ∈ done, run'.matched.lookup e'.key ≠ run'.matched.lookup e.key := by
    intro e' he' heq
    obtain ⟨o', ho'⟩ := h.placed e' he'
    rw [hkeep _ _ ho'.entry, hself, Option.some.injEq] at heq
    exact hfree (heq ▸ ho'.taken)
  refine ⟨fun e' he' => ?_, fun e₁ he₁ e₂ he₂ heq => ?_, fun key id hid => ?_⟩
  · rcases List.mem_append.mp he' with he' | he'
    · obtain ⟨o', ho'⟩ := h.placed e' he'
      refine ⟨o', ho'.mem, hkeep _ _ ho'.entry, ?_, ho'.agrees, ho'.root, fun key hkey => ?_⟩
      · rw [hids]
        exact Finset.mem_insert_of_mem ho'.taken
      · obtain ⟨id, hid, hcause⟩ := ho'.child key hkey
        exact ⟨id, hkeep key id hid, hcause⟩
    · obtain rfl := List.mem_singleton.mp he'
      refine ⟨o, hmem, hself, ?_, hagrees, hroot, fun key hkey => ?_⟩
      · rw [hids]
        exact Finset.mem_insert_self _ _
      · obtain ⟨id, hid, hcause⟩ := hchild key hkey
        exact ⟨id, hkeep key id hid, hcause⟩
  · rcases List.mem_append.mp he₁ with hd₁ | hd₁ <;> rcases List.mem_append.mp he₂ with hd₂ | hd₂
    · rw [hother _ (hfresh e₁ hd₁), hother _ (hfresh e₂ hd₂)] at heq
      exact h.inj e₁ hd₁ e₂ hd₂ heq
    · obtain rfl := List.mem_singleton.mp hd₂
      exact absurd heq (hdifferent e₁ hd₁)
    · obtain rfl := List.mem_singleton.mp hd₁
      exact absurd heq.symm (hdifferent e₂ hd₂)
    · rw [List.mem_singleton.mp hd₁, List.mem_singleton.mp hd₂]
  · by_cases hkey : key = e.key
    · exact ⟨e, by simp, hkey.symm⟩
    · rw [hother key hkey] at hid
      obtain ⟨e', he', hkey'⟩ := h.keys key id hid
      exact ⟨e', List.mem_append_left _ he', hkey'⟩

/-- The diagnostics of a fallback are never taken back. -/
theorem fallback_nil {rest : List ExpectedMessageNode}
    (hfallback : fallback observed rest run = (false, run')) (hnone : run'.diagnostics = []) :
    run.diagnostics = [] := by
  induction rest generalizing run with
  | nil =>
    obtain rfl := congrArg Prod.snd hfallback
    exact hnone
  | cons e rest ih =>
    rw [fallback] at hfallback
    split at hfallback
    · cases hfallback
    · next hturn => exact (fallbackTurn_nil hturn (ih hfallback)).1

theorem Placed.fallback {rest : List ExpectedMessageNode} (h : Placed observed done run)
    (hfallback : fallback observed rest run = (false, run')) (hnone : run'.diagnostics = [])
    (hnodup : ((done ++ rest).map ExpectedMessageNode.key).Nodup) :
    Placed observed (done ++ rest) run' := by
  induction rest generalizing done run with
  | nil =>
    obtain rfl := congrArg Prod.snd hfallback
    rwa [List.append_nil]
  | cons e rest ih =>
    rw [Tracer.fallback] at hfallback
    split at hfallback
    · cases hfallback
    · next run₁ hturn =>
      have hfresh : ∀ e' ∈ done, e'.key ≠ e.key := by
        rw [List.map_append, List.nodup_append] at hnodup
        exact fun e' he' => hnodup.2.2 _ (List.mem_map_of_mem he') _ (by simp)
      have hnext := h.turn hturn (fallback_nil hfallback hnone) hfresh
      have := ih hnext hfallback (by rwa [List.append_assoc])
      rwa [List.append_assoc] at this

omit [Crates] in
/-- When every node was passed, the entries are a causal map. -/
theorem Placed.causalMap (h : Placed observed done run)
    (hall : ∀ e ∈ expected.nodes.nodes, e ∈ done) : ∃ φ, CausalMap expected observed φ := by
  obtain ⟨root, hroot, -⟩ := expected.tree.root
  obtain ⟨first, -⟩ := h.placed root (hall root hroot)
  have hmessage : ∀ e, ∃ o, e ∈ expected.nodes.nodes → PlacedAt observed run e o := by
    intro e
    by_cases he : e ∈ expected.nodes.nodes
    · obtain ⟨o, ho⟩ := h.placed e (hall e he)
      exact ⟨o, fun _ => ho⟩
    · exact ⟨first, fun h => absurd h he⟩
  choose φ hφ using hmessage
  refine ⟨φ, fun e he => (hφ e he).mem, fun e he => (hφ e he).agrees, fun e he => (hφ e he).root,
    fun e he p hp hparent => ?_, fun e he e' he' heq => h.inj e (hall e he) e' (hall e' he') ?_⟩
  · obtain ⟨id, hid, hcause⟩ := (hφ e he).child p.key hparent
    rwa [← Option.some.inj ((hφ p hp).entry.symm.trans hid)] at hcause
  · rw [(hφ e he).entry, (hφ e' he').entry, heq]

/-- A fallback after which nothing was diagnosed would have found a causal map. -/
theorem causalMap_of_fallback (hfallback : fallback observed (expectedNodes expected) run =
      (false, run')) (hnone : run'.diagnostics = []) (hstart : run.matched = ∅) :
    ∃ φ, CausalMap expected observed φ := by
  have hplaced : Placed observed [] run :=
    ⟨by simp, by simp, fun key id hid => by simp [hstart] at hid⟩
  have hkeys : ((expectedNodes expected).map ExpectedMessageNode.key).Nodup :=
    ((sortBy_perm _ _).map _).nodup_iff.mpr expected.nodes.ids_nodup
  exact (hplaced.fallback hfallback hnone (by simpa using hkeys)).causalMap
    fun e he => by simpa [expectedNodes] using he

end Fallback

/-! ## Comparisons -/

variable [Crates] {expected : MessageGraphDefinition} {observed : ObservedMessageSeries}
  {context : MessageSeriesComparisonContext}

namespace Conforms

variable (h : Conforms expected observed context)
include h

omit [Crates] in
/-- The causes of the messages are as complete as those of the expected nodes. -/
theorem linksComplete : observed.messages.LinksComplete := by
  obtain ⟨φ, hφ, hsurj⟩ := h.tree
  refine ⟨fun child hchild id hid => ?_, MessageSeries.acyclic_of_atDepth fun o ho => ?_⟩
  · obtain ⟨e, he, rfl⟩ := hsurj child hchild
    obtain ⟨d, -, hd⟩ := expected.tree.depth e he
    cases hd with
    | root _ hnone =>
      have := hφ.root e he hnone
      rw [show (φ e).causationId = some id from hid] at this
      cases this
    | @child _ parent _ hcaused _ =>
      have hcause := hφ.child e he parent hcaused.2.1 hcaused.2.2
      exact ⟨φ parent, hφ.mem parent hcaused.2.1, Option.some.inj (hcause.symm.trans hid),
        h.links _ hchild _ (hφ.mem parent hcaused.2.1) hcause⟩
  · obtain ⟨e, he, rfl⟩ := hsurj o ho
    obtain ⟨d, -, hd⟩ := expected.tree.depth e he
    refine ⟨d, ?_⟩
    induction hd with
    | @root e hmem hnone => exact .root (hφ.mem e hmem) (hφ.root e hmem hnone)
    | @child e parent d hcaused _ ih =>
      obtain ⟨hmem, hparent, hkey⟩ := hcaused
      exact .child ⟨hφ.mem e hmem, hφ.mem parent hparent, hφ.child e hmem parent hparent hkey⟩
        (ih hparent (hφ.mem parent hparent))

omit [Crates] in
/-- A causal map leaves no message over: there are as many messages as nodes. -/
theorem surjective {ψ : ExpectedMessageNode → ObservedMessageNode}
    (hψ : CausalMap expected observed ψ) {o : ObservedMessageNode}
    (ho : o ∈ observed.messages.nodes) : ∃ e ∈ expected.nodes.nodes, ψ e = o := by
  obtain ⟨φ, -, hsurj⟩ := h.tree
  have hnodes : expected.nodes.nodes.Nodup := .of_map _ expected.nodes.ids_nodup
  have hle : observed.messages.nodes.length ≤ (expected.nodes.nodes.map ψ).length := by
    have hsub : observed.messages.nodes ⊆ expected.nodes.nodes.map φ := fun o ho => by
      obtain ⟨e, he, rfl⟩ := hsurj o ho
      exact List.mem_map_of_mem he
    have := (List.subperm_of_subset (.of_map _ observed.messages.ids_nodup) hsub).length_le
    rwa [List.length_map] at this ⊢
  have hperm : (expected.nodes.nodes.map ψ).Perm observed.messages.nodes := by
    refine (List.subperm_of_subset (hnodes.map_on fun e he e' he' => hψ.inj e he e' he')
      fun o ho => ?_).perm_of_length_le hle
    obtain ⟨e, he, rfl⟩ := List.mem_map.mp ho
    exact hψ.mem e he
  exact List.mem_map.mp (hperm.mem_iff.mpr ho)

end Conforms

/-- The diagnostics of a comparison with a complete assignment. -/
theorem finalDiagnostics_of_found {φ : ExpectedMessageNode → ObservedMessageNode}
    {assignment : Finmap fun _ : String => String} (hfound : FoundMap expected observed φ assignment)
    {steps : Nat} :
    finalDiagnostics observed context (false, ⟨assignment,
        assignment.keys.image fun key => (assignment.lookup key).getD "", [],
        observedStructureDiagnostics observed, steps⟩) = [] ↔
      Conforms expected observed context := by
  simp only [finalDiagnostics, List.append_eq_nil_iff, observedStructureDiagnostics_eq_nil,
    diagnoseUnexpectedObservations_eq_nil, diagnoseTiming_eq_nil]
  have hmatched : ∀ id, id ∈ (assignment.keys.image fun key => (assignment.lookup key).getD "") ↔
      ∃ e ∈ expected.nodes.nodes, (φ e).messageId = id := by
    intro id
    simp only [Finset.mem_image, Finmap.mem_keys]
    constructor
    · rintro ⟨key, hkey, rfl⟩
      obtain ⟨found, hlookup⟩ := Option.isSome_iff_exists.mp (Finmap.lookup_isSome.mpr hkey)
      obtain ⟨e, hget, rfl⟩ := Option.map_eq_some_iff.mp ((hfound.entries key).symm.trans hlookup)
      exact ⟨e, (expected.nodes.get_eq_some.mp hget).1, by rw [hlookup, Option.getD_some]⟩
    · rintro ⟨e, he, rfl⟩
      have hlookup : assignment.lookup e.key = some (φ e).messageId := by
        have hget : expected.nodes.get e.key = some e := expected.nodes.get_eq_some.mpr ⟨he, rfl⟩
        rw [hfound.entries, hget, Option.map_some]
      exact ⟨e.key, Finmap.lookup_isSome.mp (by rw [hlookup]; rfl), by rw [hlookup, Option.getD_some]⟩
  constructor
  · rintro ⟨⟨⟨hlinks, houtcomes⟩, hall⟩, hmessages, hresponses⟩
    refine ⟨⟨φ, hfound.causal, fun o ho => ?_⟩, fun child hchild parent hparent hcause => ?_, houtcomes,
      hmessages, hresponses⟩
    · obtain ⟨e, he, hid⟩ := (hmatched _).mp (hall o ho)
      exact ⟨e, he, observed.messages.eq_of_messageId (hfound.causal.mem e he) ho hid⟩
    · obtain ⟨parent', hparent', hid, hsame⟩ := hlinks.resolved child hchild _ hcause
      rwa [observed.messages.eq_of_messageId hparent' hparent hid] at hsame
  · intro h
    refine ⟨⟨⟨h.linksComplete, h.outcomes⟩, fun message hmessage => (hmatched _).mpr ?_⟩,
      h.messagesTimely, h.outcomesTimely⟩
    obtain ⟨e, he, rfl⟩ := h.surjective hfound.causal hmessage
    exact ⟨e, he, rfl⟩

end Rostfrei.Tracer
