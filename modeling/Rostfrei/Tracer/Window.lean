import Rostfrei.Concrete
import Rostfrei.Tracer.Feed

/-!
# What the window holds

`FlowRecord.Holds` says what a flow retains, in terms of the messages that were observed; `Window` is
the invariant of the queue. Every branch of `observe` leaves the feed as it was or puts a changed
flow last (`Observes`), so the invariant is proved for that (`Window.push`).

The counters of the feed saturate. Up to that, flow identities differ and every change increases the
revision.
-/

namespace Rostfrei.Tracer

open Lib Messaging FeedState

section

variable [Crates] {policy : Json → Option Json} {scope : ObservationScope}

/-! ## Messages -/

namespace ObservedMessageNode

variable (message : ObservedMessageNode)

omit [Crates] in
@[simp] theorem messageId_redact : (message.redact policy).messageId = message.messageId := by
  cases message <;> rfl

omit [Crates] in
@[simp] theorem name_redact : (message.redact policy).name = message.name := by
  cases message <;> rfl

omit [Crates] in
theorem validate_redact :
    validateObservedMessage (message.redact policy) = validateObservedMessage message := by
  cases message <;> rfl

end ObservedMessageNode

omit [Crates] in
/-- A message goes into an empty series if it is valid. -/
theorem isOk_insertMessage_empty (message : ObservedMessageNode) :
    (ObservedMessageSeries.empty.insertMessage message).isOk = true ↔
      validateObservedMessage message = .ok () := by
  constructor
  · intro h
    cases hinsert : ObservedMessageSeries.empty.insertMessage message with
    | ok r => exact (ObservedMessageSeries.insertMessage_eq_ok hinsert).1
    | error e => simp [hinsert, Except.isOk, Except.toBool] at h
  · intro hvalid
    obtain ⟨s, hinsert⟩ := @ObservedMessageSeries.insertMessage_new .empty message hvalid rfl
      (by decide) (by decide)
    rw [hinsert]
    rfl

omit [Crates] in
theorem acceptable_iff {message : ObservedMessageNode} :
    acceptable message = true ↔
      strLen message.name ≤ maxIdentifierBytes ∧ validateObservedMessage message = .ok () := by
  rw [← isOk_insertMessage_empty]
  simp [acceptable]

/-! ## Flows -/

/-- What a flow retains: messages that were observed, redacted and numbered; their size; and the
fingerprints of what they were. -/
structure FlowRecord.Holds (policy : Json → Option Json) (flow : FlowRecord)
    (observed : List ObservedMessageNode) : Prop where
  messages : List.Forall₂
    (fun raw message => message = (raw.redact policy).setObservationOrder message.observationOrder)
    observed flow.series.messages.nodes
  bytes : flow.bytes = (observed.map fun raw => bytesOf (raw.redact policy)).sum
  fingerprints : ∀ id, flow.fingerprints.lookup id =
    (observed.find? (·.messageId = id)).map fingerprintOf
  acceptable : ∀ raw ∈ observed, acceptable raw = true

structure FlowRecord.Bounded (flow : FlowRecord) : Prop where
  messages_le : flow.series.messages.nodes.length ≤ maximumFlowMessages
  bytes_le : flow.bytes ≤ maximumFlowBytes

namespace FlowRecord

variable {flow flow' : FlowRecord} {observed : List ObservedMessageNode}
  {message : ObservedMessageNode}

/-- The identities of the retained messages are those of the observed ones. -/
theorem Holds.ids (h : flow.Holds policy observed) :
    flow.series.messages.nodes.map ObservedMessageNode.messageId =
      observed.map ObservedMessageNode.messageId := by
  have hforall := h.messages
  clear h
  generalize flow.series.messages.nodes = nodes at hforall
  induction hforall with
  | nil => rfl
  | @cons raw m _ _ heq _ ih =>
    rw [List.map_cons, List.map_cons, ih, heq]
    simp

theorem Holds.get_eq_none (h : flow.Holds policy observed) {id : String}
    (hget : flow.series.messages.get id = none) : ∀ raw ∈ observed, raw.messageId ≠ id := by
  intro raw hraw heq
  have hmem : id ∈ flow.series.messages.nodes.map ObservedMessageNode.messageId := by
    rw [h.ids, ← heq]
    exact List.mem_map_of_mem hraw
  obtain ⟨node, hnode, hid⟩ := List.mem_map.mp hmem
  exact flow.series.messages.get_eq_none.mp hget node hnode hid

/-- What `admitMessage` does: a message that is discarded changes flags only, and one that is inserted is
retained within the bounds. -/
inductive Admits (flow : FlowRecord) (message : ObservedMessageNode)
    (fingerprint : ContentFingerprint) (bytes : Nat) : FlowChange → Prop where
  | discarded {flow' : FlowRecord} (hid : flow'.summary.id = flow.summary.id)
      (hcorrelation : flow'.summary.correlationId = flow.summary.correlationId)
      (hseries : flow'.series = flow.series) (hbytes : flow'.bytes = flow.bytes)
      (hfingerprints : flow'.fingerprints = flow.fingerprints) :
      Admits flow message fingerprint bytes (.discarded flow')
  | inserted {series : ObservedMessageSeries}
      (hget : flow.series.messages.get message.messageId = none)
      (hroom : flow.series.messages.nodes.length < maximumFlowMessages)
      (hsize : bytes + flow.bytes ≤ maximumFlowBytes)
      (hinsert : flow.series.InsertsMessage message .inserted series) :
      Admits flow message fingerprint bytes (.inserted { flow with
        series := series
        bytes := flow.bytes + bytes
        fingerprints := flow.fingerprints.insert message.messageId fingerprint })
  | duplicate {existing : ObservedMessageNode}
      (hget : flow.series.messages.get message.messageId = some existing) :
      Admits flow message fingerprint bytes .duplicate

omit [Crates] in
theorem saturatingAdd_of_le {a b n : Nat} (h : saturatingAdd a b ≤ n) (hn : n < counterMax) :
    a + b ≤ n ∧ saturatingAdd a b = a + b := by
  unfold saturatingAdd at h ⊢
  omega

omit [Crates] in
theorem admit_admits (flow : FlowRecord) (message : ObservedMessageNode)
    (fingerprint : ContentFingerprint) (bytes : Nat) :
    Admits flow message fingerprint bytes (flow.admitMessage message fingerprint bytes) := by
  unfold admitMessage
  dsimp only
  split
  · exact .discarded rfl rfl rfl rfl rfl
  split
  · exact .discarded rfl rfl rfl rfl rfl
  next hroom =>
  split
  · next series hinsert =>
    obtain ⟨-, hinserts⟩ := ObservedMessageSeries.insertMessage_eq_ok hinsert
    cases hinserts with
    | duplicate hget => exact .duplicate hget
  · next series hinsert =>
    obtain ⟨-, hinserts⟩ := ObservedMessageSeries.insertMessage_eq_ok hinsert
    have hget : flow.series.messages.get message.messageId = none := by
      cases hinserts with
      | inserted hget => exact hget
    simp only [hget, Option.isSome_none, Bool.not_false, true_and, not_or, ge_iff_le, not_le,
      gt_iff_lt, not_lt] at hroom
    obtain ⟨hsum, -⟩ := saturatingAdd_of_le hroom.2 (by decide)
    have hexact : saturatingAdd flow.bytes bytes = flow.bytes + bytes := by
      unfold saturatingAdd
      have : maximumFlowBytes < counterMax := by decide
      omega
    rw [hexact]
    exact .inserted hget hroom.1 hsum hinserts
  · exact .discarded rfl rfl rfl rfl rfl

/-- A message that is inserted is retained. -/
theorem Holds.insert (h : flow.Holds policy observed)
    {series : ObservedMessageSeries} (hacceptable : FeedState.acceptable message = true)
    (hget : flow.series.messages.get message.messageId = none)
    (hroom : flow.series.messages.nodes.length < maximumFlowMessages)
    (hsize : bytesOf (message.redact policy) + flow.bytes ≤ maximumFlowBytes)
    (hnodes : series.messages.nodes = flow.series.messages.nodes ++
      [(message.redact policy).setObservationOrder flow.series.nextObservationOrder]) :
    Holds policy { flow with
      series := series
      bytes := flow.bytes + bytesOf (message.redact policy)
      fingerprints := flow.fingerprints.insert message.messageId (fingerprintOf message) }
      (observed ++ [message]) ∧
    Bounded { flow with
      series := series
      bytes := flow.bytes + bytesOf (message.redact policy)
      fingerprints := flow.fingerprints.insert message.messageId (fingerprintOf message) } := by
  refine ⟨⟨?_, ?_, fun id => ?_, fun raw hraw => ?_⟩, ?_, ?_⟩
  · rw [hnodes]
    refine List.rel_append h.messages (.cons ?_ .nil)
    cases message <;> rfl
  · simp [h.bytes]
  · have hnew := h.get_eq_none hget
    by_cases hid : id = message.messageId
    · subst hid
      have hnone : observed.find? (·.messageId = message.messageId) = none := by
        simpa [List.find?_eq_none] using hnew
      rw [Finmap.lookup_insert, List.find?_append, hnone]
      simp
    · rw [Finmap.lookup_insert_of_ne _ hid, h.fingerprints, List.find?_append]
      have hlast : ([message].find? (·.messageId = id)) = none := by
        simpa [List.find?_eq_none] using fun heq => hid heq.symm
      rw [hlast, Option.or_none]
  · rcases List.mem_append.mp hraw with hold | hnew
    · exact h.acceptable raw hold
    · rwa [List.mem_singleton.mp hnew]
  · simp only [hnodes, List.length_append, List.length_singleton]
    omega
  · dsimp only
    omega

/-- The flow retains a message as it was observed: its fingerprint, and its redacted form. -/
def Retains (policy : Json → Option Json) (flow : FlowRecord) (raw : ObservedMessageNode) : Prop :=
  flow.summary.correlationId = raw.correlationId ∧
    flow.fingerprints.lookup raw.messageId = some (fingerprintOf raw) ∧
    ∃ message ∈ flow.series.messages.nodes,
      message.sameObservation (raw.redact policy) = true

/-- A flow of the queue: within its bounds, with the number of its messages, each of which was
observed in the flow's correlation. -/
structure Kept (policy : Json → Option Json) (Seen : ObservedMessageNode → Prop)
    (flow : FlowRecord) : Prop where
  bounded : flow.Bounded
  count : flow.summary.messageCount = flow.series.messages.nodes.length
  retained : ∃ observed, flow.Holds policy observed ∧
    ∀ raw ∈ observed, Seen raw ∧ raw.correlationId = flow.summary.correlationId

omit [Crates] in
/-- The observation that a message was retained for. -/
theorem Holds.exists_raw [Crates] (h : flow.Holds policy observed) {message : ObservedMessageNode}
    (hmessage : message ∈ flow.series.messages.nodes) : ∃ raw ∈ observed,
      message = (raw.redact policy).setObservationOrder message.observationOrder := by
  have hforall := h.messages
  clear h
  generalize flow.series.messages.nodes = nodes at hforall hmessage
  induction hforall with
  | nil => simp at hmessage
  | @cons raw m raws ms heq _ ih =>
    rcases List.mem_cons.mp hmessage with rfl | hrest
    · exact ⟨raw, List.mem_cons_self, heq⟩
    · obtain ⟨raw, hraw, heq⟩ := ih hrest
      exact ⟨raw, List.mem_cons_of_mem _ hraw, heq⟩

theorem Holds.exists_message (h : flow.Holds policy observed) {raw : ObservedMessageNode}
    (hraw : raw ∈ observed) : ∃ message ∈ flow.series.messages.nodes,
      message = (raw.redact policy).setObservationOrder message.observationOrder := by
  have hforall := h.messages
  clear h
  generalize flow.series.messages.nodes = nodes at hforall
  induction hforall with
  | nil => simp at hraw
  | @cons raw' m raws ms heq _ ih =>
    rcases List.mem_cons.mp hraw with rfl | hrest
    · exact ⟨m, List.mem_cons_self, heq⟩
    · obtain ⟨m, hm, heq⟩ := ih hrest
      exact ⟨m, List.mem_cons_of_mem _ hm, heq⟩

omit [Crates] in
theorem find?_id_of_mem {l : List ObservedMessageNode}
    (hnodup : (l.map ObservedMessageNode.messageId).Nodup) {raw : ObservedMessageNode}
    (hraw : raw ∈ l) : l.find? (·.messageId = raw.messageId) = some raw := by
  cases hfind : l.find? (·.messageId = raw.messageId) with
  | none => exact absurd (by simp) (List.find?_eq_none.mp hfind raw hraw)
  | some found =>
    have hid : found.messageId = raw.messageId := by simpa using List.find?_some hfind
    exact congrArg some (List.inj_on_of_nodup_map hnodup (List.mem_of_find?_eq_some hfind) hraw hid)

/-- Every observed message is retained. -/
theorem Holds.retains (h : flow.Holds policy observed) {raw : ObservedMessageNode}
    (hraw : raw ∈ observed) (hcorrelation : raw.correlationId = flow.summary.correlationId) :
    flow.Retains policy raw := by
  have hnodup : (observed.map ObservedMessageNode.messageId).Nodup := by
    rw [← h.ids]
    exact flow.series.messages.ids_nodup
  obtain ⟨message, hmessage, heq⟩ := h.exists_message hraw
  refine ⟨hcorrelation.symm, ?_, message, hmessage, ?_⟩
  · rw [h.fingerprints, find?_id_of_mem hnodup hraw]
    rfl
  · rw [heq]
    exact ObservedMessageNode.sameObservation_setObservationOrder _ _

/-- The validity of a message does not depend on its payload or its number. -/
theorem Retains.acceptable (h : flow.Holds policy observed) (hretains : flow.Retains policy message) :
    FeedState.acceptable message = true := by
  obtain ⟨-, -, kept, hkept, hsame⟩ := hretains
  obtain ⟨raw, hraw, heq⟩ := h.exists_raw hkept
  obtain ⟨hname, hvalid⟩ := acceptable_iff.mp (h.acceptable raw hraw)
  have hsame : kept.setObservationOrder 0 = (message.redact policy).setObservationOrder 0 :=
    of_decide_eq_true hsame
  have hkeptName : kept.name = raw.name := by rw [heq]; simp
  have hkeptValid : validateObservedMessage kept = .ok () := by
    rw [heq, ObservedMessageNode.validate_setObservationOrder, ObservedMessageNode.validate_redact,
      hvalid]
  refine acceptable_iff.mpr ⟨?_, ?_⟩
  · have := congrArg ObservedMessageNode.name hsame
    simp only [ObservedMessageNode.name_setObservationOrder, ObservedMessageNode.name_redact] at this
    rwa [← this, hkeptName]
  · have := congrArg validateObservedMessage hsame
    rw [ObservedMessageNode.validate_setObservationOrder,
      ObservedMessageNode.validate_setObservationOrder, ObservedMessageNode.validate_redact] at this
    rw [← this, hkeptValid]

/-- A message that is retained is a duplicate. -/
theorem Retains.admitMessage (h : flow.Holds policy observed) (hretains : flow.Retains policy message)
    (bytes : Nat) :
    flow.admitMessage (message.redact policy) (fingerprintOf message) bytes = .duplicate := by
  have hvalid : validateObservedMessage (message.redact policy) = .ok () := by
    rw [ObservedMessageNode.validate_redact]
    exact (acceptable_iff.mp (hretains.acceptable h)).2
  obtain ⟨-, hlookup, kept, hkept, hsame⟩ := hretains
  have hid : kept.messageId = (message.redact policy).messageId := by
    have := of_decide_eq_true hsame
    rw [← ObservedMessageSeries.messageId_setObservationOrder 0, this,
      ObservedMessageSeries.messageId_setObservationOrder]
  have hget : flow.series.messages.get (message.redact policy).messageId = some kept := by
    rw [← hid]
    exact find?_id_of_mem flow.series.messages.ids_nodup hkept
  have hinsert : flow.series.insertMessage (message.redact policy) = .ok (.duplicate, flow.series) := by
    rw [ObservedMessageSeries.insertMessage, hvalid]
    simp only [ok_bind, hget, hsame, if_true]
    rfl
  have hlookup' : flow.fingerprints.lookup (message.redact policy).messageId =
      some (fingerprintOf message) := by
    rw [ObservedMessageNode.messageId_redact]
    exact hlookup
  unfold FlowRecord.admitMessage
  simp [hlookup', hget, hinsert, -ObservedMessageNode.messageId_redact]

/-- One flow changed before the other. -/
def ChangedBefore (flow flow' : FlowRecord) : Prop :=
  ∃ r r' : Nat, flow.summary.revision = toString r ∧ flow'.summary.revision = toString r' ∧ r < r'

end FlowRecord

/-! ## The queue -/

/-- The queue of a feed whose identities and revisions have come so far. -/
structure Window (policy : Json → Option Json) (Seen : ObservedMessageNode → Prop)
    (generation : String) (identity revision : Nat) (flows : List FlowRecord) : Prop where
  length_le : flows.length ≤ maximumFlows
  correlations : (flows.map (·.summary.correlationId)).Nodup
  kept : ∀ flow ∈ flows, flow.Kept policy Seen
  ids : ∀ flow ∈ flows, ∃ n ≤ identity, flow.summary.id = generation ++ "-" ++ toString n
  revisions : ∀ flow ∈ flows, ∃ r ≤ revision, flow.summary.revision = toString r
  distinct : revision < counterMax → (flows.map (·.summary.id)).Nodup
  order : revision < counterMax → flows.Pairwise FlowRecord.ChangedBefore

namespace Window

variable {Seen : ObservedMessageNode → Prop} {generation : String} {identity identity' revision : Nat}
  {flows flows' : List FlowRecord} {flow : FlowRecord}

theorem nil : Window policy Seen generation identity revision [] where
  length_le := by simp
  correlations := by simp
  kept := by simp
  ids := by simp
  revisions := by simp
  distinct _ := by simp
  order _ := by simp

/-- What is left of a queue. -/
theorem sublist (h : Window policy Seen generation identity revision flows)
    (hsub : flows'.Sublist flows) : Window policy Seen generation identity revision flows' where
  length_le := hsub.length_le.trans h.length_le
  correlations := h.correlations.sublist (hsub.map _)
  kept flow hflow := h.kept flow (hsub.mem hflow)
  ids flow hflow := h.ids flow (hsub.mem hflow)
  revisions flow hflow := h.revisions flow (hsub.mem hflow)
  distinct hr := (h.distinct hr).sublist (hsub.map _)
  order hr := (h.order hr).sublist hsub

/-- The counters go on. -/
theorem mono (h : Window policy Seen generation identity revision flows) {revision' : Nat}
    (hidentity : identity ≤ identity') (hrevision : revision ≤ revision') :
    Window policy Seen generation identity' revision' flows where
  length_le := h.length_le
  correlations := h.correlations
  kept := h.kept
  ids flow hflow := by
    obtain ⟨n, hn, hid⟩ := h.ids flow hflow
    exact ⟨n, hn.trans hidentity, hid⟩
  revisions flow hflow := by
    obtain ⟨r, hr, heq⟩ := h.revisions flow hflow
    exact ⟨r, hr.trans hrevision, heq⟩
  distinct hr := h.distinct (hrevision.trans_lt hr)
  order hr := h.order (hrevision.trans_lt hr)

omit [Crates] in
theorem le_saturatingAdd (h : revision ≤ counterMax) : revision ≤ saturatingAdd revision 1 := by
  unfold saturatingAdd
  omega

omit [Crates] in
theorem lt_of_saturatingAdd_lt (h : saturatingAdd revision 1 < counterMax) :
    revision < counterMax ∧ saturatingAdd revision 1 = revision + 1 := by
  unfold saturatingAdd at h ⊢
  omega

/-- A flow with the next revision is put last. -/
theorem push (h : Window policy Seen generation identity revision flows)
    (hrevision : revision ≤ counterMax) (hroom : flows.length < maximumFlows)
    (hcorrelation : ∀ other ∈ flows, other.summary.correlationId ≠ flow.summary.correlationId)
    (hkept : flow.Kept policy Seen)
    (hid : ∃ n ≤ identity, flow.summary.id = generation ++ "-" ++ toString n)
    (hfresh : revision < counterMax → ∀ other ∈ flows, other.summary.id ≠ flow.summary.id)
    (hlast : flow.summary.revision = toString (saturatingAdd revision 1)) :
    Window policy Seen generation identity (saturatingAdd revision 1) (flows ++ [flow]) where
  length_le := by
    rw [List.length_append, List.length_singleton]
    exact hroom
  correlations := by
    rw [List.map_append, List.nodup_append]
    refine ⟨h.correlations, by simp, fun a ha b hb => ?_⟩
    obtain ⟨other, hother, rfl⟩ := List.mem_map.mp ha
    obtain rfl : b = flow.summary.correlationId := by simpa using hb
    exact hcorrelation other hother
  kept other hother := by
    rcases List.mem_append.mp hother with hold | hnew
    · exact h.kept other hold
    · exact List.mem_singleton.mp hnew ▸ hkept
  ids other hother := by
    rcases List.mem_append.mp hother with hold | hnew
    · exact h.ids other hold
    · exact List.mem_singleton.mp hnew ▸ hid
  revisions other hother := by
    rcases List.mem_append.mp hother with hold | hnew
    · obtain ⟨r, hr, heq⟩ := h.revisions other hold
      exact ⟨r, hr.trans (le_saturatingAdd hrevision), heq⟩
    · exact ⟨_, le_rfl, List.mem_singleton.mp hnew ▸ hlast⟩
  distinct hr := by
    obtain ⟨hlt, -⟩ := lt_of_saturatingAdd_lt hr
    rw [List.map_append, List.nodup_append]
    refine ⟨h.distinct hlt, by simp, fun a ha b hb => ?_⟩
    obtain ⟨other, hother, rfl⟩ := List.mem_map.mp ha
    obtain rfl : b = flow.summary.id := by simpa using hb
    exact hfresh hlt other hother
  order hr := by
    obtain ⟨hlt, hnext⟩ := lt_of_saturatingAdd_lt hr
    rw [List.pairwise_append]
    refine ⟨h.order hlt, List.pairwise_singleton _ _, fun other hother last hnew => ?_⟩
    obtain ⟨r, hr, heq⟩ := h.revisions other hother
    obtain rfl := List.mem_singleton.mp hnew
    exact ⟨r, revision + 1, heq, hnext ▸ hlast, Nat.lt_succ_of_le hr⟩

end Window

/-- The invariant of a feed. -/
structure FeedState.Kept (policy : Json → Option Json) (Seen : ObservedMessageNode → Prop)
    (s : FeedState) : Prop where
  window : Window policy Seen s.generation s.nextIdentity s.revision s.flows
  identity_le : s.nextIdentity ≤ s.revision
  revision_le : s.revision ≤ counterMax
  idle : s.resetting = true ∨ s.resetFailed = true → s.flows = []

/-! ## One observation -/

/-- A flow is taken out of the queue for a message, or a new one is made. -/
inductive Takes (scope : ObservationScope) (s : FeedState) (message : ObservedMessageNode) :
    FlowRecord → FeedState → Prop where
  | existing {flow : FlowRecord} {before after : List FlowRecord}
      (hflows : s.flows = before ++ flow :: after)
      (hcorrelation : flow.summary.correlationId = message.correlationId) :
      Takes scope s message flow { s with flows := before ++ after }
  | new (hnone : ∀ flow ∈ s.flows, flow.summary.correlationId ≠ message.correlationId) :
      Takes scope s message (s.newFlow scope message).1 (s.newFlow scope message).2

/-- What `observe` does. -/
inductive Observes (policy : Json → Option Json) (scope : ObservationScope) (s : FeedState)
    (message : ObservedMessageNode) : FeedState → Prop where
  | refused (hacceptable : acceptable message = false) : Observes policy scope s message s.discard
  | same : Observes policy scope s message s
  | inserted {flow flow' : FlowRecord} {left : FeedState} (hacceptable : acceptable message = true)
      (hrunning : s.resetting = false ∧ s.resetFailed = false)
      (htakes : Takes scope s message flow left)
      (hadmission : flow.admitMessage (message.redact policy) (fingerprintOf message)
        (bytesOf (message.redact policy)) = .inserted flow') :
      Observes policy scope s message (left.keepFlow flow')
  | discarded {flow flow' : FlowRecord} {left : FeedState}
      (hacceptable : acceptable message = true)
      (hrunning : s.resetting = false ∧ s.resetFailed = false)
      (htakes : Takes scope s message flow left)
      (hadmission : flow.admitMessage (message.redact policy) (fingerprintOf message)
        (bytesOf (message.redact policy)) = .discarded flow') :
      Observes policy scope s message (left.countDiscarded.keepFlow flow')

omit [Crates] in
/-- The queue around the flow that a search has found. -/
theorem split_of_findIdx? {α : Type} {l : List α} {p : α → Bool} {i : Nat}
    (h : l.findIdx? p = some i) : ∃ before a after, l = before ++ a :: after ∧ before.length = i ∧
      p a = true ∧ ∀ b ∈ before, p b = false := by
  induction l generalizing i with
  | nil => simp at h
  | cons x xs ih =>
    rw [List.findIdx?_cons] at h
    split at h
    · next hx =>
      obtain rfl := Option.some.inj h
      exact ⟨[], x, xs, rfl, rfl, hx, by simp⟩
    · next hx =>
      obtain ⟨j, hj, rfl⟩ := Option.map_eq_some_iff.mp h
      obtain ⟨before, a, after, rfl, rfl, ha, hbefore⟩ := ih hj
      refine ⟨x :: before, a, after, rfl, rfl, ha, fun b hb => ?_⟩
      rcases List.mem_cons.mp hb with rfl | hb
      · simpa using hx
      · exact hbefore b hb

omit [Crates] in
theorem eraseIdx_around {α : Type} (before after : List α) (a : α) :
    (before ++ a :: after).eraseIdx before.length = before ++ after := by
  rw [List.eraseIdx_append_of_length_le le_rfl]
  simp

omit [Crates] in
theorem insertIdx_around {α : Type} (before after : List α) (a : α) :
    (before ++ after).insertIdx before.length a = before ++ a :: after := by
  induction before with
  | nil => rfl
  | cons b before ih => simp [ih]

/-- The flow of a message's correlation, in its place. -/
theorem observe_existing {s : FeedState} {message : ObservedMessageNode} {flow : FlowRecord}
    {before after : List FlowRecord} (hacceptable : acceptable message = true)
    (hrunning : s.resetting = false ∧ s.resetFailed = false)
    (hflows : s.flows = before ++ flow :: after)
    (hfind : s.flows.findIdx? (·.summary.correlationId = message.correlationId) =
      some before.length) :
    s.observe policy scope message =
      observeIn policy message flow (some before.length) { s with flows := before ++ after } := by
  have hget : s.flows[before.length]? = some flow := by rw [hflows]; simp
  have herase : s.flows.eraseIdx before.length = before ++ after := by
    rw [hflows, eraseIdx_around]
  rw [observe]
  simp only [hacceptable, Bool.not_true, Bool.false_eq_true, if_false, hrunning.1, hrunning.2,
    Bool.or_self, hfind, Option.bind_some, hget, Option.getD_some, herase]

/-- A flow that gets the message again goes back to its place. -/
theorem observeIn_duplicate {s : FeedState} {message : ObservedMessageNode} {flow : FlowRecord}
    {before after : List FlowRecord} (hflows : s.flows = before ++ flow :: after)
    (hadmission : flow.admitMessage (message.redact policy) (fingerprintOf message)
      (bytesOf (message.redact policy)) = .duplicate) :
    observeIn policy message flow (some before.length) { s with flows := before ++ after } = s := by
  simp only [observeIn, hadmission, Option.getD_some, insertIdx_around, ← hflows]

theorem observe_observes (s : FeedState) (message : ObservedMessageNode) :
    Observes policy scope s message (s.observe policy scope message) := by
  cases hacceptable : acceptable message with
  | false =>
    rw [observe, hacceptable]
    exact .refused hacceptable
  | true =>
    by_cases hstopped : (s.resetting || s.resetFailed) = true
    · rw [observe]
      simp only [hacceptable, Bool.not_true, Bool.false_eq_true, if_false, hstopped, if_true]
      exact .same
    have hrunning : s.resetting = false ∧ s.resetFailed = false := by simpa using hstopped
    rcases hfind : s.flows.findIdx? (·.summary.correlationId = message.correlationId) with _ | i
    · have hnone : ∀ flow ∈ s.flows, flow.summary.correlationId ≠ message.correlationId := by
        simpa using List.findIdx?_eq_none_iff.mp hfind
      have hobserve : s.observe policy scope message =
          observeIn policy message (s.newFlow scope message).1 none
            (s.newFlow scope message).2 := by
        rw [observe]
        simp only [hacceptable, Bool.not_true, Bool.false_eq_true, if_false, hrunning.1,
          hrunning.2, Bool.or_self, hfind, Option.bind_none]
      rw [hobserve, observeIn]
      split
      · next flow' hadmission => exact .inserted hacceptable hrunning (.new hnone) hadmission
      · next flow' hadmission => exact .discarded hacceptable hrunning (.new hnone) hadmission
      · next hadmission =>
        -- a new flow has no message yet
        have hadmits := FlowRecord.admit_admits (s.newFlow scope message).1
          (message.redact policy) (fingerprintOf message) (bytesOf (message.redact policy))
        rw [hadmission] at hadmits
        cases hadmits with
        | duplicate hget => cases hget
    · obtain ⟨before, flow, after, hflows, rfl, hcorrelation, -⟩ := split_of_findIdx? hfind
      have htakes : Takes scope s message flow { s with flows := before ++ after } :=
        .existing hflows (by simpa using hcorrelation)
      rw [observe_existing hacceptable hrunning hflows hfind]
      cases hadmission : flow.admitMessage (message.redact policy) (fingerprintOf message)
          (bytesOf (message.redact policy)) with
      | duplicate =>
        rw [observeIn_duplicate hflows hadmission]
        exact .same
      | inserted flow' =>
        simp only [observeIn, hadmission]
        exact .inserted hacceptable hrunning htakes hadmission
      | discarded flow' =>
        simp only [observeIn, hadmission]
        exact .discarded hacceptable hrunning htakes hadmission

/-- A flow that was taken for a message of a correlation, and what is left of the feed. -/
structure Taken (policy : Json → Option Json) (Seen : ObservedMessageNode → Prop)
    (correlation : String) (flow : FlowRecord) (left : FeedState) : Prop where
  window : Window policy Seen left.generation left.nextIdentity left.revision left.flows
  revision_le : left.revision ≤ counterMax
  identity_le : left.nextIdentity ≤ saturatingAdd left.revision 1
  running : left.resetting = false ∧ left.resetFailed = false
  room : left.flows.length < maximumFlows
  others : ∀ other ∈ left.flows, other.summary.correlationId ≠ correlation
  correlation : flow.summary.correlationId = correlation
  id : ∃ n ≤ left.nextIdentity, flow.summary.id = left.generation ++ "-" ++ toString n
  fresh : left.revision < counterMax → ∀ other ∈ left.flows, other.summary.id ≠ flow.summary.id
  bounded : flow.Bounded
  retained : ∃ observed, flow.Holds policy observed ∧
    ∀ raw ∈ observed, Seen raw ∧ raw.correlationId = flow.summary.correlationId

section

variable {Seen : ObservedMessageNode → Prop} {s left : FeedState} {flow flow' : FlowRecord}
  {message : ObservedMessageNode} {correlation : String}

omit [Crates] in
theorem id_ne_of_lt {generation : String} {n m : Nat} (h : n < m) :
    generation ++ "-" ++ toString n ≠ generation ++ "-" ++ toString m := by
  intro heq
  have := String.append_right_inj (generation ++ "-") |>.mp heq
  have := Nat.repr_injective this
  omega

/-- Only the queue and its count differ after `evict`. -/
structure SameBut (s s' : FeedState) : Prop where
  generation : s'.generation = s.generation
  revision : s'.revision = s.revision
  nextIdentity : s'.nextIdentity = s.nextIdentity
  resetting : s'.resetting = s.resetting
  resetFailed : s'.resetFailed = s.resetFailed

omit [Crates] in
theorem sameBut_evict (s : FeedState) : SameBut s s.evict := by
  unfold FeedState.evict
  split <;> exact ⟨rfl, rfl, rfl, rfl, rfl⟩

omit [Crates] in
/-- What `evict` leaves has room for one flow. -/
theorem evict_left (h : s.flows.length ≤ maximumFlows) :
    s.evict.flows.length < maximumFlows ∧ s.evict.flows.Sublist s.flows := by
  unfold FeedState.evict
  split
  · next hfull =>
    refine ⟨?_, List.tail_sublist _⟩
    simp only [List.length_tail, hfull]
    decide
  · next hroom => exact ⟨lt_of_le_of_ne h hroom, .refl _⟩

theorem Takes.taken (hkept : s.Kept policy Seen)
    (hrunning : s.resetting = false ∧ s.resetFailed = false)
    (h : Takes scope s message flow left) :
    Taken policy Seen message.correlationId flow left := by
  cases h with
  | @existing _ before after hflows hcorrelation =>
    have hsub : (before ++ after).Sublist s.flows := by
      rw [hflows]
      exact (List.Sublist.refl before).append (List.sublist_cons_self _ _)
    have hmem : flow ∈ s.flows := by rw [hflows]; simp
    have hcorrelations := hkept.window.correlations
    rw [hflows, List.map_append, List.map_cons, List.nodup_middle, List.nodup_cons] at hcorrelations
    exact {
      window := hkept.window.sublist hsub
      revision_le := hkept.revision_le
      identity_le := hkept.identity_le.trans (Window.le_saturatingAdd hkept.revision_le)
      running := hrunning
      room := by
        have hlength := hkept.window.length_le
        rw [hflows, List.length_append, List.length_cons] at hlength
        rw [List.length_append]
        omega
      others := fun other hother heq => hcorrelations.1 (by
        rw [hcorrelation, ← heq, ← List.map_append]
        exact List.mem_map_of_mem hother)
      correlation := hcorrelation
      id := hkept.window.ids flow hmem
      fresh := fun hr other hother heq => by
        have hids := hkept.window.distinct hr
        rw [hflows, List.map_append, List.map_cons, List.nodup_middle, List.nodup_cons] at hids
        refine hids.1 ?_
        rw [← heq, ← List.map_append]
        exact List.mem_map_of_mem hother
      bounded := (hkept.window.kept flow hmem).bounded
      retained := (hkept.window.kept flow hmem).retained }
  | new hnone =>
    obtain ⟨hroom, hsub⟩ := evict_left hkept.window.length_le
    obtain ⟨hgeneration, hrevision, hidentity, hresetting, hfailed⟩ := sameBut_evict s
    have hnext : s.nextIdentity ≤ saturatingAdd s.nextIdentity 1 :=
      Window.le_saturatingAdd (hkept.identity_le.trans hkept.revision_le)
    have hmono : saturatingAdd s.nextIdentity 1 ≤ saturatingAdd s.revision 1 := by
      have := hkept.identity_le
      unfold saturatingAdd
      omega
    simp only [newFlow, hgeneration, hidentity]
    exact {
      window := by
        simp only [hrevision]
        exact (hkept.window.sublist hsub).mono hnext le_rfl
      revision_le := hrevision ▸ hkept.revision_le
      identity_le := by
        simp only [hrevision]
        exact hmono
      running := ⟨hresetting ▸ hrunning.1, hfailed ▸ hrunning.2⟩
      room := hroom
      others := fun other hother => hnone other (hsub.mem hother)
      correlation := rfl
      id := ⟨_, le_rfl, rfl⟩
      fresh := fun hr other hother => by
        simp only [hrevision] at hr
        obtain ⟨n, hn, hid⟩ := hkept.window.ids other (hsub.mem hother)
        rw [hid]
        exact id_ne_of_lt (lt_min (Nat.lt_succ_of_le hn) (hn.trans_lt (hkept.identity_le.trans_lt hr)))
      bounded := ⟨Nat.zero_le _, Nat.zero_le _⟩
      retained := ⟨[], ⟨.nil, rfl, fun _ => rfl, by simp⟩, by simp⟩ }

/-- A flow that was taken, changed and put last. -/
theorem Taken.keepFlow (h : Taken policy Seen correlation flow left)
    (hid : flow'.summary.id = flow.summary.id)
    (hcorrelation : flow'.summary.correlationId = flow.summary.correlationId)
    (hbounded : flow'.Bounded)
    (hretained : ∃ observed, flow'.Holds policy observed ∧
      ∀ raw ∈ observed, Seen raw ∧ raw.correlationId = flow.summary.correlationId) :
    (left.keepFlow flow').Kept policy Seen := by
  have hfresh : left.revision < counterMax →
      ∀ other ∈ left.flows, other.summary.id ≠ flow'.summary.id := by
    rw [hid]
    exact h.fresh
  obtain ⟨observed, hholds, hseen⟩ := hretained
  refine ⟨h.window.push h.revision_le h.room ?_ ?_ ?_ hfresh rfl, h.identity_le, min_le_right _ _, ?_⟩
  · intro other hother
    exact (hcorrelation.trans h.correlation) ▸ h.others other hother
  · exact ⟨⟨hbounded.messages_le, hbounded.bytes_le⟩, rfl, observed,
      ⟨hholds.messages, hholds.bytes, hholds.fingerprints, hholds.acceptable⟩, fun raw hraw =>
      ⟨(hseen raw hraw).1, (hseen raw hraw).2.trans hcorrelation.symm⟩⟩
  · exact hid ▸ h.id
  · simp [FeedState.keepFlow, notify, h.running.1, h.running.2]

/-- One more message was discarded. -/
theorem Taken.countDiscarded (h : Taken policy Seen correlation flow left) :
    Taken policy Seen correlation flow left.countDiscarded := by
  obtain ⟨hwindow, hrevision, hidentity, hrunning, hroom, hothers, hcorrelation, hid, hfresh,
    hbounded, hretained⟩ := h
  exact ⟨hwindow, hrevision, hidentity, hrunning, hroom, hothers, hcorrelation, hid, hfresh,
    hbounded, hretained⟩

/-! ## Steps -/

/-- The queue and the guards of resets are as before, and the counters have gone on. -/
theorem FeedState.Kept.advance {s' : FeedState} (hkept : s.Kept policy Seen)
    (hgeneration : s'.generation = s.generation) (hflows : s'.flows = s.flows)
    (hguards : s'.resetting = s.resetting ∧ s'.resetFailed = s.resetFailed)
    (hidentity : s.nextIdentity ≤ s'.nextIdentity ∧ s'.nextIdentity ≤ s'.revision)
    (hrevision : s.revision ≤ s'.revision ∧ s'.revision ≤ counterMax) : s'.Kept policy Seen where
  window := by
    rw [hgeneration, hflows]
    exact hkept.window.mono hidentity.1 hrevision.1
  identity_le := hidentity.2
  revision_le := hrevision.2
  idle := by
    rw [hguards.1, hguards.2, hflows]
    exact hkept.idle

theorem FeedState.Kept.discard (hkept : s.Kept policy Seen) : s.discard.Kept policy Seen := by
  have hnext := Window.le_saturatingAdd hkept.revision_le
  exact hkept.advance rfl rfl ⟨rfl, rfl⟩ ⟨le_rfl, hkept.identity_le.trans hnext⟩
    ⟨hnext, min_le_right _ _⟩

theorem FeedState.Kept.setStatus (hkept : s.Kept policy Seen) (name : String) (identity : Nat)
    (status : ObservationStatus) : (s.setStatus name identity status).Kept policy Seen := by
  have hnext := Window.le_saturatingAdd hkept.revision_le
  unfold FeedState.setStatus
  split
  · exact hkept
  split
  · exact hkept.advance rfl rfl ⟨rfl, rfl⟩ ⟨le_rfl, hkept.identity_le.trans hnext⟩
      ⟨hnext, min_le_right _ _⟩
  · exact hkept

omit [Crates] in
/-- A new source has the next identity. -/
theorem source_eq_ok {name : String} {identity : Nat} {s' : FeedState}
    (h : s.source name = .ok (identity, s')) :
    s' = { s with
      nextIdentity := saturatingAdd s.nextIdentity 1
      sources := s.sources.insert name ⟨saturatingAdd s.nextIdentity 1, .connecting⟩ }.notify := by
  unfold FeedState.source at h
  rw [bind_unit_eq_ok] at h
  obtain ⟨-, h⟩ := h
  cases hlookup : s.sources.lookup name with
  | some existing =>
    simp only [hlookup, bind_unit_eq_ok, pure_eq_ok, Prod.mk.injEq] at h
    obtain ⟨-, rfl, rfl⟩ := h
    rfl
  | none =>
    simp only [hlookup, bind_unit_eq_ok, pure_eq_ok, Prod.mk.injEq] at h
    obtain ⟨-, rfl, rfl⟩ := h
    rfl

theorem FeedState.Kept.source (hkept : s.Kept policy Seen) {name : String} {identity : Nat}
    {s' : FeedState} (h : s.source name = .ok (identity, s')) : s'.Kept policy Seen := by
  have hmono : saturatingAdd s.nextIdentity 1 ≤ saturatingAdd s.revision 1 :=
    min_le_min_right _ (Nat.succ_le_succ hkept.identity_le)
  rw [source_eq_ok h]
  exact hkept.advance rfl rfl ⟨rfl, rfl⟩
    ⟨Window.le_saturatingAdd (hkept.identity_le.trans hkept.revision_le), hmono⟩
    ⟨Window.le_saturatingAdd hkept.revision_le, min_le_right _ _⟩

theorem FeedState.Kept.reset (hkept : s.Kept policy Seen) (resetting : Bool) (generation : String) :
    (s.reset resetting generation).Kept policy Seen where
  window := .nil
  identity_le := hkept.identity_le.trans (Window.le_saturatingAdd hkept.revision_le)
  revision_le := min_le_right _ _
  idle _ := rfl

theorem FeedState.Kept.failReset (hkept : s.Kept policy Seen) (hresetting : s.resetting = true) :
    s.failReset.Kept policy Seen where
  window := hkept.window.mono le_rfl (Window.le_saturatingAdd hkept.revision_le)
  identity_le := hkept.identity_le.trans (Window.le_saturatingAdd hkept.revision_le)
  revision_le := min_le_right _ _
  idle _ := hkept.idle (.inl hresetting)

theorem FeedState.Kept.observe (hkept : s.Kept policy Seen) (hseen : Seen message) :
    (s.observe policy scope message).Kept policy Seen := by
  have hobserves := @observe_observes _ policy scope s message
  generalize s.observe policy scope message = s' at hobserves
  cases hobserves with
  | refused => exact hkept.discard
  | same => exact hkept
  | @inserted flow flow' left hacceptable hrunning htakes hadmission =>
    have htaken := htakes.taken hkept hrunning
    have hadmits := flow.admit_admits (message.redact policy) (fingerprintOf message)
      (bytesOf (message.redact policy))
    rw [hadmission] at hadmits
    obtain ⟨observed, hholds, hobserved⟩ := htaken.retained
    cases hadmits with
    | inserted hget hroom hsize hinsert =>
      cases hinsert with
      | inserted _ _ hnodes =>
        rw [ObservedMessageNode.messageId_redact] at hget ⊢
        obtain ⟨hholds', hbounded'⟩ := hholds.insert hacceptable hget hroom hsize hnodes
        refine htaken.keepFlow rfl rfl hbounded' ⟨_, hholds', fun raw hraw => ?_⟩
        rcases List.mem_append.mp hraw with hold | hnew
        · exact hobserved raw hold
        · obtain rfl := List.mem_singleton.mp hnew
          exact ⟨hseen, htaken.correlation.symm⟩
  | @discarded flow flow' left hacceptable hrunning htakes hadmission =>
    have htaken := (htakes.taken hkept hrunning).countDiscarded
    have hadmits := flow.admit_admits (message.redact policy) (fingerprintOf message)
      (bytesOf (message.redact policy))
    rw [hadmission] at hadmits
    obtain ⟨observed, hholds, hobserved⟩ := htaken.retained
    cases hadmits with
    | discarded hid hcorrelation hseries hbytes hfingerprints =>
      refine htaken.keepFlow hid hcorrelation ?_ ⟨observed, ?_, hobserved⟩
      · exact ⟨hseries ▸ htaken.bounded.messages_le, hbytes ▸ htaken.bounded.bytes_le⟩
      · exact ⟨hseries ▸ hholds.messages, hbytes ▸ hholds.bytes, hfingerprints ▸ hholds.fingerprints,
          hholds.acceptable⟩

theorem FeedState.Kept.step {s' : FeedState} {label : FeedStep} (hkept : s.Kept policy Seen)
    (hseen : ∀ raw, label = .observe raw → Seen raw)
    (h : (feedMachine policy scope).step s label s') : s'.Kept policy Seen := by
  obtain ⟨rfl, hguard⟩ := h
  cases label with
  | observe message => exact hkept.observe (hseen message rfl)
  | discard => exact hkept.discard
  | reset resetting generation => exact hkept.reset resetting generation
  | failReset => exact hkept.failReset (hguard rfl)
  | source name =>
    simp only [FeedState.apply]
    split
    · next identity s' hsource => exact hkept.source hsource
    · exact hkept
  | setStatus name identity status => exact hkept.setStatus name identity status

theorem FeedState.Kept.run {s' : FeedState} {labels : List FeedStep} (hkept : s.Kept policy Seen)
    (hseen : ∀ raw, .observe raw ∈ labels → Seen raw)
    (h : (feedMachine policy scope).Run s labels s') : s'.Kept policy Seen := by
  induction h with
  | nil => exact hkept
  | cons hstep _ ih =>
    refine ih (hkept.step ?_ hstep) fun raw hraw => hseen raw (List.mem_cons_of_mem _ hraw)
    rintro raw rfl
    exact hseen raw List.mem_cons_self

theorem FeedState.Kept.start (h : (feedMachine policy scope).start s) : s.Kept policy Seen := by
  obtain ⟨generation, rfl⟩ := h
  exact ⟨.nil, le_rfl, Nat.zero_le _, fun _ => rfl⟩

/-! ## Runs -/

/-- A message that is retained is observed again: nothing changes. -/
theorem observe_retained (hkept : s.Kept policy Seen) (hflow : flow ∈ s.flows)
    (hretains : flow.Retains policy message) : s.observe policy scope message = s := by
  obtain ⟨observed, hholds, -⟩ := (hkept.window.kept flow hflow).retained
  have hrunning : s.resetting = false ∧ s.resetFailed = false := by
    have hne : s.flows ≠ [] := List.ne_nil_of_mem hflow
    have := mt hkept.idle hne
    simpa using this
  cases hfind : s.flows.findIdx? (·.summary.correlationId = message.correlationId) with
  | none => exact absurd hretains.1 (by simpa using List.findIdx?_eq_none_iff.mp hfind flow hflow)
  | some i =>
    obtain ⟨before, found, after, hflows, rfl, hcorrelation, -⟩ := split_of_findIdx? hfind
    have hfound : found ∈ s.flows := by rw [hflows]; simp
    -- the queue has one flow of each correlation
    obtain rfl : found = flow := List.inj_on_of_nodup_map hkept.window.correlations hfound hflow
      ((of_decide_eq_true hcorrelation).trans hretains.1.symm)
    rw [observe_existing (hretains.acceptable hholds) hrunning hflows hfind,
      observeIn_duplicate hflows (hretains.admitMessage hholds _)]

/-- The changed flow is last, and no other flow has moved. -/
def Requeued (flows flows' : List FlowRecord) : Prop :=
  flows' = flows ∨ flows' = [] ∨ ∃ rest flow, rest.Sublist flows ∧ flows' = rest ++ [flow]

omit [Crates] in
theorem Takes.sublist (h : Takes scope s message flow left) :
    left.revision = s.revision ∧ left.flows.Sublist s.flows := by
  cases h with
  | existing hflows =>
    rw [hflows]
    exact ⟨rfl, (List.Sublist.refl _).append (List.sublist_cons_self _ _)⟩
  | new =>
    refine ⟨(sameBut_evict s).revision, ?_⟩
    change s.evict.flows.Sublist s.flows
    unfold FeedState.evict
    split
    · exact List.tail_sublist _
    · exact .refl _

/-- Every change is a new revision. -/
theorem step_changes {label : FeedStep} {s' : FeedState}
    (h : (feedMachine policy scope).step s label s') :
    s' = s ∨ s'.revision = saturatingAdd s.revision 1 ∧ Requeued s.flows s'.flows := by
  obtain ⟨rfl, -⟩ := h
  cases label with
  | observe message =>
    have hobserves := @observe_observes _ policy scope s message
    simp only [FeedState.apply]
    generalize s.observe policy scope message = s' at hobserves
    cases hobserves with
    | refused => exact .inr ⟨rfl, .inl rfl⟩
    | same => exact .inl rfl
    | inserted _ _ htakes =>
      obtain ⟨hrevision, hsub⟩ := htakes.sublist
      exact .inr ⟨congrArg (saturatingAdd · 1) hrevision, .inr (.inr ⟨_, _, hsub, rfl⟩)⟩
    | discarded _ _ htakes =>
      obtain ⟨hrevision, hsub⟩ := htakes.sublist
      exact .inr ⟨congrArg (saturatingAdd · 1) hrevision, .inr (.inr ⟨_, _, hsub, rfl⟩)⟩
  | discard => exact .inr ⟨rfl, .inl rfl⟩
  | reset resetting generation => exact .inr ⟨rfl, .inr (.inl rfl)⟩
  | failReset => exact .inr ⟨rfl, .inl rfl⟩
  | source name =>
    simp only [FeedState.apply]
    split
    · next identity s' hsource =>
      rw [source_eq_ok hsource]
      exact .inr ⟨rfl, .inl rfl⟩
    · exact .inl rfl
  | setStatus name identity status =>
    simp only [FeedState.apply, FeedState.setStatus]
    split
    · exact .inl rfl
    split
    · exact .inr ⟨rfl, .inl rfl⟩
    · exact .inl rfl

end

section

variable {s₀ s : FeedState} {labels : List FeedStep}

/-- A run of a feed: the queue keeps its invariant for the messages that were observed; a message
that is retained changes nothing when it is observed again; and every change has the next revision
and puts the changed flow last. -/
theorem feed_kept (hstart : (feedMachine policy scope).start s₀)
    (hrun : (feedMachine policy scope).Run s₀ labels s) :
    s.Kept policy (fun raw => .observe raw ∈ labels) ∧
    (∀ flow ∈ s.flows, ∃ observed, flow.Holds policy observed ∧
      ∀ raw ∈ observed, flow.Retains policy raw) ∧
    (∀ flow ∈ s.flows, ∀ raw, flow.Retains policy raw → s.observe policy scope raw = s) ∧
    ∀ label s', (feedMachine policy scope).step s label s' → s' ≠ s →
      s'.revision = saturatingAdd s.revision 1 ∧ Requeued s.flows s'.flows := by
  have hkept : s.Kept policy (fun raw => .observe raw ∈ labels) :=
    (FeedState.Kept.start hstart).run (fun _ hraw => hraw) hrun
  refine ⟨hkept, fun flow hflow => ?_, fun flow hflow raw hretains =>
    observe_retained hkept hflow hretains, fun label s' hstep hne => ?_⟩
  · obtain ⟨observed, hholds, hobserved⟩ := (hkept.window.kept flow hflow).retained
    exact ⟨observed, hholds, fun raw hraw => hholds.retains hraw (hobserved raw hraw).2⟩
  · exact (step_changes hstep).resolve_left hne

/-- After as many discarded messages the revision has this value. -/
theorem discards_run {generation : String} {n : Nat} (hn : n ≤ counterMax) :
    ∃ s labels, (feedMachine policy scope).Run (.new generation) labels s ∧ s.revision = n ∧
      s.generation = generation := by
  induction n with
  | zero => exact ⟨_, [], .nil _, rfl, rfl⟩
  | succ n ih =>
    obtain ⟨s, labels, hrun, hrevision, hgeneration⟩ := ih (Nat.le_of_succ_le hn)
    refine ⟨s.discard, labels ++ [.discard], hrun.append (.cons ⟨rfl, nofun⟩ (.nil _)), ?_,
      hgeneration⟩
    simp only [FeedState.discard, notify, FeedState.countDiscarded, hrevision, saturatingAdd]
    omega

end

end

section Orders

attribute [local instance] Crates.concrete

/-- An event of an order, with a payload. -/
def orderPlaced : ObservedMessageNode :=
  .domainEvent "event-1" "correlation-1" none 0 "OrderPlaced" 1 none (some (.str "secret"))

/-- The only message is observed a second time. -/
theorem feed_kept_observed :
    ((FeedState.new "1").observe (fun _ => none) .test orderPlaced).flows.length = 1 ∧
      FeedState.Kept (fun _ => none)
        (fun raw => FeedStep.observe raw ∈ [FeedStep.observe orderPlaced, .discard])
        ((FeedState.new "1").observe (fun _ => none) .test orderPlaced).discard := by
  refine ⟨by decide +kernel, (@feed_kept _ (fun _ => none) .test _ _ _ ⟨"1", rfl⟩ ?_).1⟩
  exact .cons ⟨rfl, nofun⟩ (.cons ⟨rfl, nofun⟩ (.nil _))

/-- At its maximum the revision is the same after a change. -/
theorem revision_saturated : ∃ s s' : FeedState,
    (feedMachine (fun _ => none) .test).Reachable s ∧
      (feedMachine (fun _ => none) .test).step s (.reset true "2") s' ∧ s' ≠ s ∧
      ¬ s.revision < s'.revision := by
  obtain ⟨s, labels, hrun, hrevision, hgeneration⟩ :=
    @discards_run _ (fun _ => none) .test "1" counterMax le_rfl
  refine ⟨s, _, ⟨_, labels, ⟨"1", rfl⟩, hrun⟩, ⟨rfl, nofun⟩, fun heq => ?_, ?_⟩
  · have := congrArg FeedState.generation heq
    rw [hgeneration] at this
    exact absurd (show "2" = "1" from this) (by decide)
  · rw [hrevision]
    exact Nat.not_lt.mpr (min_le_right _ _)

end Orders

end Rostfrei.Tracer
