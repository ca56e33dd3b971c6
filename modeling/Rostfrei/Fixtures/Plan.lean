import Rostfrei.Concrete
import Rostfrei.Fixtures.Fixture
import Rostfrei.Messaging.Topology
import Rostfrei.Runtime.Canonical

/-!
# What a plan contains

`buildPlan` succeeds for every fixture (`buildPlan_plan`), because the checks of the fixture are
those that the constructors make again. The plan has one event for each message (`PlanOf`), and each
of them is what a store records for its batch at its place in the stream. Without collisions of
SHA-256, different messages have different operations (`operationIds_nodup`).
-/

namespace Rostfrei.Fixtures

open Lib Messaging

variable [Crates]

/-! ## Planned events -/

namespace PlannedEvent

def streamId (p : PlannedEvent) : StreamId := p.recorded.streamId

/-- The event is what is recorded for the batch after `streamOrdinal` events of the stream. -/
structure WellFormed (p : PlannedEvent) : Prop where
  ofBatch : RecordedEvent.ofBatch p.streamId p.streamOrdinal p.batch = [p.recorded]
  derived : DerivedIdentities p.streamId p.batch

variable {p : PlannedEvent}

theorem WellFormed.length_events (h : p.WellFormed) : p.batch.events.length = 1 := by
  simpa using congrArg List.length h.ofBatch

theorem WellFormed.streamVersion (h : p.WellFormed) :
    p.recorded.streamVersion = p.streamOrdinal + 1 := by
  have hversions := RecordedEvent.map_streamVersion_ofBatch p.streamId p.streamOrdinal p.batch
  rw [h.ofBatch, h.length_events] at hversions
  simpa using hversions

theorem WellFormed.map_eventId (h : p.WellFormed) :
    p.batch.events.map (·.eventId) = [p.recorded.eventId] := by
  rw [← RecordedEvent.map_eventId_ofBatch p.streamId p.streamOrdinal p.batch, h.ofBatch]
  rfl

/-- The event that is planned for a message. -/
structure For (f : Fixture) (message : FixtureDomainEvent) (p : PlannedEvent) : Prop where
  wellFormed : p.WellFormed
  streamId : p.streamId = message.streamId
  operationId :
    p.batch.operationId.value = fixtureOperationIdPrefix ++ (messageFingerprint f message).toHex

end PlannedEvent

/-! ## One message -/

omit [Crates] in
/-- A label followed by the hexadecimal text of a digest is a valid identifier. -/
theorem validateIdentifier_label_hex {field label : String} (d : Digest)
    (hlen : strLen label + 64 ≤ maxIdentifierBytes) (h : label.toList.all isAsciiGraphic) :
    validateIdentifier field (label ++ lowerHex d.toList) = .ok () := by
  have hgraphic : ∀ c ∈ (label ++ lowerHex d.toList).toList, isAsciiGraphic c := by
    intro c hc
    rw [String.toList_append, List.mem_append] at hc
    rcases hc with hc | hc
    · exact List.all_eq_true.mp h c hc
    · have hhex : ∀ c ∈ hexAlphabet, isAsciiGraphic c := List.all_eq_true.mp rfl
      exact hhex c (hexChars_mem _ c (by simpa using hc))
  simp only [validateIdentifier, bind_unit_eq_ok, rejectIf_eq_ok]
  refine ⟨fun hempty => ?_, ?_, ?_, ?_⟩
  · have hsize := congrArg strLen hempty
    simp only [strLen, String.utf8ByteSize_append, utf8ByteSize_lowerHex] at hsize
    simp at hsize
  · simpa [strLen, String.utf8ByteSize_append, utf8ByteSize_lowerHex] using hlen
  · simp only [List.any_eq_true, not_exists, not_and]
    intro c hc
    simp [not_isControl_of_graphic (hgraphic c hc)]
  · simpa only [not_not, List.all_eq_true] using hgraphic

theorem validateMessage_eq_ok {message : FixtureDomainEvent} :
    validateMessage message = .ok () ↔ validateEventType message.name = .ok () ∧
      (canonicalJsonBytes message.payload).length ≤ maxEventPayloadLen := by
  simp only [validateMessage, validateEventType, bind_unit_eq_ok, rejectIf_eq_ok, not_or, not_lt,
    and_assoc]

section Parts

variable (f : Fixture) (message : FixtureDomainEvent)

def plannedOperationId : OperationId :=
  ⟨fixtureOperationIdPrefix ++ (messageFingerprint f message).toHex,
    validate_label_hex _ (by decide) (by decide)⟩

def plannedCommitId : CommitId := deriveCommitId message.streamId (plannedOperationId f message)

/-- The event's identity, as a cause. -/
def plannedPhysicalId : CausationId :=
  ⟨(deriveEventId (plannedCommitId f message) 0).value,
    validateIdentifier_label_hex _ (by decide) (by decide)⟩

variable (htype : validateEventType message.name = .ok ())
  (hpayload : (canonicalJsonBytes message.payload).length ≤ maxEventPayloadLen)

def plannedEvent : NewEvent :=
  ⟨deriveEventId (plannedCommitId f message) 0, message.name, message.schemaVersion.get,
    canonicalJsonBytes message.payload, htype, message.schemaVersion.ne_zero, hpayload⟩

variable (parent : Option CausationId)

def plannedBatch : EventBatch where
  actor := none
  commitId := plannedCommitId f message
  operationId := plannedOperationId f message
  operationFingerprint := messageFingerprint f message
  events := [plannedEvent f message htype hpayload]
  correlationId := some message.correlationId
  causationId := parent
  events_ne := List.cons_ne_nil _ _
  events_le := by simp [maxEventsPerBatch]
  payload_le := by simpa [plannedEvent, maxBatchPayloadLen, maxEventPayloadLen] using hpayload
  ids_nodup := List.nodup_singleton _

def plannedRecord : RecordedEvent :=
  .fromNew message.streamId message.streamVersion (plannedBatch f message htype hpayload parent) 0 1
    (plannedEvent f message htype hpayload)

end Parts

/-- A checked message whose parent has been planned can be planned. -/
theorem planMessage_ok {f : Fixture} {p : Planning} {message : FixtureDomainEvent}
    {parent : Option CausationId} (hmessage : validateMessage message = .ok ())
    (hversion : message.streamVersion = (p.streamEventCounts.lookup message.streamId).getD 0 + 1)
    (hroom : message.streamVersion < 2 ^ 64) (hparent : p.parentPhysicalId message = .ok parent) :
    ∃ planned physicalId, planned.For f message ∧
      planned.streamOrdinal = (p.streamEventCounts.lookup message.streamId).getD 0 ∧
      planMessage f p message = .ok {
        plan := p.plan ++ [planned]
        streamEventCounts := p.streamEventCounts.insert message.streamId message.streamVersion
        physicalIds := p.physicalIds.insert message.messageId physicalId } := by
  obtain ⟨htype, hpayload⟩ := validateMessage_eq_ok.mp hmessage
  have hcount : checkedAdd ((p.streamEventCounts.lookup message.streamId).getD 0) 1 =
      some message.streamVersion := checkedAdd_eq_some.mpr ⟨by omega, by omega⟩
  have hoperation : CheckedString.new (fixtureOperationIdPrefix ++
      (messageFingerprint f message).toHex) = .ok (plannedOperationId f message) :=
    CheckedString.new_value (plannedOperationId f message)
  have hevent : NewEvent.new (deriveEventId (plannedCommitId f message) 0) message.name
      message.schemaVersion.get (canonicalJsonBytes message.payload) =
      .ok (plannedEvent f message htype hpayload) :=
    NewEvent.new_self (plannedEvent f message htype hpayload)
  have hbatch : EventBatch.new (plannedCommitId f message) (plannedOperationId f message)
      (messageFingerprint f message) [plannedEvent f message htype hpayload] =
      .ok { plannedBatch f message htype hpayload parent with
        actor := none, correlationId := none, causationId := none } :=
    EventBatch.new_self (plannedBatch f message htype hpayload parent)
  have hrecorded : RecordedEvent.newInCommit message.streamId message.streamVersion
      (deriveEventId (plannedCommitId f message) 0) (plannedCommitId f message)
      (plannedOperationId f message) (messageFingerprint f message) 0 1 message.name
      message.schemaVersion.get (canonicalJsonBytes message.payload) =
      .ok { plannedRecord f message htype hpayload parent with
        actor := none, correlationId := none, causationId := none } := by
    simp only [RecordedEvent.newInCommit, bind_unit_eq_ok, rejectIf_eq_ok, pure_eq_ok]
    exact ⟨by omega, by decide, htype, message.schemaVersion.ne_zero, by omega, rfl⟩
  have hphysical : CheckedString.new (deriveEventId (plannedCommitId f message) 0).value =
      .ok (plannedPhysicalId f message) := CheckedString.new_value (plannedPhysicalId f message)
  refine ⟨⟨plannedRecord f message htype hpayload parent,
    plannedBatch f message htype hpayload parent,
    (p.streamEventCounts.lookup message.streamId).getD 0⟩, plannedPhysicalId f message,
    ⟨⟨?_, ⟨rfl, fun i hi => ?_⟩⟩, rfl, rfl⟩, rfl, ?_⟩
  · have hplace : (p.streamEventCounts.lookup message.streamId).getD 0 + 1 + 0 =
        message.streamVersion := by omega
    show [RecordedEvent.fromNew message.streamId _ _ 0 1 _] = _
    rw [hplace]
    rfl
  · obtain rfl : i = 0 := by simpa [plannedBatch] using hi
    rfl
  · rw [planMessage, hparent, ok_bind, hoperation]
    show ((NewEvent.new (deriveEventId (plannedCommitId f message) 0) _ _ _).mapError _ >>= _) = _
    rw [hevent]
    show ((EventBatch.new (plannedCommitId f message) _ _ _).mapError _ >>= _) = _
    rw [hbatch]
    show ((RecordedEvent.newInCommit _ _ (deriveEventId (plannedCommitId f message) 0)
      (plannedCommitId f message) _ _ _ _ _ _ _).mapError _ >>= _) = _
    rw [hrecorded]
    show (okOr _ (checkedAdd _ 1) >>= _) = _
    rw [hcount]
    show ((CheckedString.new (deriveEventId (plannedCommitId f message) 0).value).mapError _ >>= _) = _
    rw [hphysical]
    rfl

/-! ## Valid fixtures -/

section Valid

variable {f : Fixture}

/-- What the checks of a fixture say of its messages. -/
structure FixtureMessagesValid (messages : FixtureMessages) : Prop where
  /-- A cause is an earlier message. -/
  parents : ∀ i message, messages.nodes[i]? = some message → ∀ id, message.causationId = some id →
    ∃ parent ∈ messages.nodes.take i, parent.messageId = id
  /-- The versions of a stream count its messages. -/
  versions : ∀ before message, before ++ [message] <+: messages.nodes →
    message.streamVersion = before.countP (·.streamId = message.streamId) + 1
  messages : ∀ message ∈ messages.nodes, validateMessage message = .ok ()

omit [Crates] in
theorem versions_of_validateStreamVersions {messages : FixtureMessages}
    (h : validateStreamVersions messages = .ok ()) {before : List FixtureDomainEvent}
    {message : FixtureDomainEvent} (hbefore : before ++ [message] <+: messages.nodes) :
    message.streamVersion = before.countP (·.streamId = message.streamId) + 1 := by
  obtain ⟨expected, hfold, -⟩ := bind_eq_ok.mp h
  suffices hall : (∀ s, (expected.lookup s).getD 1 = messages.nodes.countP (·.streamId = s) + 1) ∧
      ∀ before message, before ++ [message] <+: messages.nodes →
        message.streamVersion = before.countP (·.streamId = message.streamId) + 1 from
    hall.2 before message hbefore
  refine of_foldlM_eq_ok (I := fun done expected =>
    (∀ s, (expected.lookup s).getD 1 = done.countP (·.streamId = s) + 1) ∧
      ∀ before message, before ++ [message] <+: done →
        message.streamVersion = before.countP (·.streamId = message.streamId) + 1) hfold ?_ ?_
  · refine ⟨fun s => by simp, fun before message hbefore => ?_⟩
    simp at hbefore
  · rintro done message expected expected' - ⟨hcounts, hversions⟩ hturn
    simp only [checkStreamVersion, bind_eq_ok, rejectIf_eq_ok, okOr_eq_ok,
      nextVersion_eq_some, pure_eq_ok, ne_eq, not_not] at hturn
    obtain ⟨-, hversion, next, ⟨-, rfl⟩, rfl⟩ := hturn
    constructor
    · intro s
      by_cases hs : message.streamId = s
      · subst hs
        rw [Finmap.lookup_insert, Option.getD_some, hcounts, List.countP_append]
        simp
      · rw [Finmap.lookup_insert_of_ne _ (Ne.symm hs), hcounts, List.countP_append]
        simp [hs]
    · intro before message' hinitial
      rcases List.prefix_concat_iff.mp hinitial with heq | hinitial
      · obtain ⟨rfl, hlast⟩ := List.append_inj' heq rfl
        obtain rfl : message' = message := by simpa using hlast
        rw [hversion, hcounts]
      · exact hversions before message' hinitial

theorem Fixture.messages_valid (f : Fixture) : FixtureMessagesValid f.messages := by
  have hvalid := f.valid
  simp only [validateFixture, bind_unit_eq_ok, rejectIf_eq_ok] at hvalid
  obtain ⟨-, htopology, horder, hversions, hmessages⟩ := hvalid
  refine ⟨fun i message hi id hid => ?_, fun _ _ => versions_of_validateStreamVersions hversions,
    forM_eq_ok.mp hmessages⟩
  have hmem := List.mem_of_getElem? hi
  have hlinks : f.messages.LinksComplete := by
    refine f.messages.topologyIssues_eq_nil.mp (List.head?_eq_none_iff.mp ?_)
    unfold validateTopology at htopology
    split at htopology
    · assumption
    · cases htopology
  obtain ⟨parent, hparent, hparentId, -⟩ := hlinks.resolved message hmem id.value
    (show message.causationId.map (·.value) = some id.value by rw [hid]; rfl)
  have hid' : parent.messageId = id := CheckedString.ext hparentId
  obtain ⟨j, hj⟩ := List.mem_iff_getElem?.mp hparent
  have hindex : f.messages.indexOf? id.value = some j :=
    f.messages.indexOf?_eq_some.mpr ⟨parent, hj, hparentId⟩
  have hlt : j < i := by
    have hchild := forM_eq_ok.mp horder (message, i) (List.mk_mem_zipIdx_iff_getElem?.mpr hi)
    rw [checkParentOrder, hid] at hchild
    simp only [hindex, rejectIf_eq_ok, ge_iff_le, not_le] at hchild
    exact hchild
  refine ⟨parent, List.mem_of_getElem? (i := j) ?_, hid'⟩
  rw [List.getElem?_take_of_lt hlt]
  exact hj

theorem Fixture.streamVersion_lt (f : Fixture) {i : Nat} (hi : i < f.messages.nodes.length) :
    f.messages.nodes[i].streamVersion < 2 ^ 64 := by
  have hbefore : f.messages.nodes.take i ++ [f.messages.nodes[i]] <+: f.messages.nodes := by
    rw [List.take_append_getElem]
    exact List.take_prefix _ _
  have hversion := f.messages_valid.versions _ _ hbefore
  have hcount := List.countP_le_length (p := (·.streamId = f.messages.nodes[i].streamId))
    (l := f.messages.nodes.take i)
  have hlength := List.length_take_le i f.messages.nodes
  have hmax := f.messages.nodes_le
  rw [maxMessageSeriesNodes] at hmax
  omega

/-- A plan of some messages, one event for each. -/
structure PlanOf (f : Fixture) (messages : List FixtureDomainEvent) (plan : List PlannedEvent) :
    Prop where
  events : List.Forall₂ (fun message p => p.For f message) messages plan
  ordinals : ∀ (i : Nat) (p : PlannedEvent), plan[i]? = some p →
    p.streamOrdinal = (plan.take i).countP (·.streamId = p.streamId)

namespace PlanOf

variable {messages : List FixtureDomainEvent} {plan : List PlannedEvent} {p : PlannedEvent}

theorem map_streamId (h : PlanOf f messages plan) :
    plan.map (·.streamId) = messages.map (·.streamId) := by
  have hevents := h.events
  clear h
  induction hevents with
  | nil => rfl
  | cons hfor _ ih => rw [List.map_cons, List.map_cons, hfor.streamId, ih]

theorem length_eq (h : PlanOf f messages plan) : plan.length = messages.length :=
  h.events.length_eq.symm

theorem countP_streamId (h : PlanOf f messages plan) (s : StreamId) :
    plan.countP (·.streamId = s) = messages.countP (·.streamId = s) := by
  have hplan : plan.countP (·.streamId = s) = (plan.map (·.streamId)).countP (· = s) := by
    rw [List.countP_map]
    rfl
  rw [hplan, h.map_streamId, List.countP_map]
  rfl

/-- The events of a stream have the versions from one on. -/
theorem versions (h : PlanOf f messages plan) (s : StreamId) :
    (plan.filter (·.streamId = s)).map (·.recorded.streamVersion) =
      List.range' 1 (messages.countP (·.streamId = s)) := by
  rw [← h.countP_streamId s]
  have hordinals := h.ordinals
  have hversions : ∀ p ∈ plan, p.recorded.streamVersion = p.streamOrdinal + 1 := by
    intro p hp
    obtain ⟨i, hi, rfl⟩ := List.getElem_of_mem hp
    have hfor := (List.forall₂_iff_get.mp h.events).2 i (h.length_eq ▸ hi) hi
    exact hfor.wellFormed.streamVersion
  clear h
  induction plan using List.reverseRecOn with
  | nil => rfl
  | append_singleton plan p ih =>
    have hordinal := hordinals plan.length p (by simp)
    rw [List.take_left'] at hordinal
    · have hplan := ih (fun i q hq => ?_) fun q hq => hversions q (List.mem_append_left _ hq)
      · rw [List.filter_append, List.map_append, List.countP_append, hplan]
        by_cases hs : p.streamId = s
        · subst hs
          have hversion := hversions p (by simp)
          rw [hordinal] at hversion
          simp [List.range'_1_concat, hversion, Nat.add_comm 1]
        · simp [hs]
      · have hi := (List.getElem?_eq_some_iff.mp hq).1
        have hold := hordinals i q (by rw [List.getElem?_append_left hi, hq])
        rwa [List.take_append_of_le_length hi.le] at hold
    · rfl

theorem snoc {message : FixtureDomainEvent} (h : PlanOf f messages plan) (hp : p.For f message)
    (hordinal : p.streamOrdinal = messages.countP (·.streamId = p.streamId)) :
    PlanOf f (messages ++ [message]) (plan ++ [p]) where
  events := List.rel_append h.events (.cons hp .nil)
  ordinals i q hq := by
    rcases Nat.lt_trichotomy i plan.length with hlt | rfl | hgt
    · rw [List.getElem?_append_left hlt] at hq
      rw [List.take_append_of_le_length hlt.le]
      exact h.ordinals i q hq
    · rw [List.getElem?_concat_length] at hq
      obtain rfl := Option.some.inj hq
      rw [List.take_left, hordinal, h.countP_streamId]
    · rw [List.getElem?_eq_none (by simp; omega)] at hq
      cases hq

theorem wellFormed (h : PlanOf f messages plan) (hp : p ∈ plan) : p.WellFormed := by
  obtain ⟨i, hi, rfl⟩ := List.mem_iff_getElem.mp hp
  exact (h.events.get (h.length_eq ▸ hi) hi).wellFormed

end PlanOf

/-- The state of `build_plan` after some messages. -/
structure Planning.After (f : Fixture) (done : List FixtureDomainEvent) (p : Planning) : Prop where
  plan : PlanOf f done p.plan
  counts : ∀ s, (p.streamEventCounts.lookup s).getD 0 = done.countP (·.streamId = s)
  physicalIds : ∀ message ∈ done, message.messageId ∈ p.physicalIds

/-- The parent of a message has been planned. -/
theorem Planning.After.parentPhysicalId_ok {done : List FixtureDomainEvent} {p : Planning}
    {message : FixtureDomainEvent} (h : p.After f done)
    (hdone : done ++ [message] <+: f.messages.nodes) :
    ∃ parent, p.parentPhysicalId message = .ok parent := by
  unfold Planning.parentPhysicalId
  split
  · exact ⟨none, rfl⟩
  · next id hid =>
    obtain ⟨rest, hrest⟩ := hdone
    rw [List.append_assoc] at hrest
    have hat : f.messages.nodes[done.length]? = some message := by
      rw [← hrest, List.getElem?_append_right (Nat.le_refl _)]
      simp
    obtain ⟨first, hfirst, rfl⟩ := f.messages_valid.parents done.length message hat id hid
    rw [← hrest, List.take_left] at hfirst
    obtain ⟨cause, hcause⟩ := Finmap.mem_iff.mp (h.physicalIds first hfirst)
    rw [hcause]
    exact ⟨some cause, rfl⟩

theorem Planning.After.turn {done : List FixtureDomainEvent} {p : Planning}
    {message : FixtureDomainEvent} (h : p.After f done)
    (hdone : done ++ [message] <+: f.messages.nodes) :
    ∃ p', planMessage f p message = .ok p' ∧ p'.After f (done ++ [message]) := by
  have hversion := f.messages_valid.versions done message hdone
  have hroom : message.streamVersion < 2 ^ 64 := by
    obtain ⟨i, hi, rfl⟩ := List.mem_iff_getElem.mp (hdone.subset (List.mem_append_right _
      (List.mem_singleton_self message)))
    exact f.streamVersion_lt hi
  obtain ⟨parent, hparent⟩ := h.parentPhysicalId_ok hdone
  obtain ⟨planned, physicalId, hfor, hordinal, hturn⟩ := planMessage_ok (f := f)
    (f.messages_valid.messages message (hdone.subset (by simp))) (by rw [h.counts, hversion]) hroom
    hparent
  refine ⟨_, hturn, h.plan.snoc hfor ?_, fun s => ?_, fun earlier hearlier => ?_⟩
  · rw [hordinal, h.counts, hfor.streamId]
  · by_cases hs : message.streamId = s
    · subst hs
      rw [Finmap.lookup_insert, Option.getD_some, hversion, List.countP_append]
      simp
    · rw [Finmap.lookup_insert_of_ne _ (Ne.symm hs), h.counts, List.countP_append]
      simp [hs]
  · rw [Finmap.mem_insert]
    rcases List.mem_append.mp hearlier with hearlier | hearlier
    · exact .inr (h.physicalIds earlier hearlier)
    · exact .inl (by rw [List.mem_singleton.mp hearlier])

/-- Every fixture has a plan. -/
theorem exists_plan (f : Fixture) :
    ∃ plan, buildPlan f = .ok plan ∧ PlanOf f f.messages.nodes plan := by
  have hstart : Planning.After f [] ⟨[], ∅, ∅⟩ := ⟨⟨.nil, by simp⟩, by simp, by simp⟩
  obtain ⟨p, hfold, hafter⟩ := foldlM_ok (I := fun done p => Planning.After f done p) hstart
    fun _ _ _ hdone h => h.turn hdone
  exact ⟨p.plan, by rw [buildPlan, hfold]; rfl, hafter.plan⟩

/-- The plan of a fixture. -/
def Fixture.plan (f : Fixture) : List PlannedEvent := (buildPlan f).toOption.getD []

theorem buildPlan_plan (f : Fixture) : buildPlan f = .ok f.plan := by
  obtain ⟨plan, hbuild, -⟩ := exists_plan f
  rw [Fixture.plan, hbuild]
  rfl

theorem Fixture.planOf (f : Fixture) : PlanOf f f.messages.nodes f.plan := by
  obtain ⟨plan, hbuild, hplan⟩ := exists_plan f
  rwa [Fixture.plan, hbuild]

/-- Every fixture has a plan, and the events of each stream follow one another from the first. -/
theorem buildPlan_exact (f : Fixture) : ∃ plan, buildPlan f = .ok plan ∧
    PlanOf f f.messages.nodes plan ∧
    ∀ s, (plan.filter (·.streamId = s)).map (·.recorded.streamVersion) =
      List.range' 1 (f.messages.nodes.countP (·.streamId = s)) := by
  obtain ⟨plan, hbuild, hplan⟩ := exists_plan f
  exact ⟨plan, hbuild, hplan, hplan.versions⟩

end Valid

/-! ## Different messages -/

section Distinct

variable [Crates.Compact] (f : Fixture)

/-- What is hashed for the operations of a fixture. -/
def Fixture.fingerprintInputs : Set Bytes :=
  {input | ∃ message ∈ f.messages.nodes,
    input = canonicalJsonBytes (fingerprintDocument f message)}

omit [Crates.Compact] in
theorem fits_fingerprintDocument {message : FixtureDomainEvent}
    (hversion : message.streamVersion < 2 ^ 64) :
    ∃ depth, (fingerprintDocument f message).Fits depth := by
  obtain ⟨depth, hpayload⟩ := message.payload_fits
  have hmessage : message.toJson.Fits (depth + 2) := by
    have hschema : message.schemaVersion.get.toNat < 2 ^ 64 :=
      message.schemaVersion.get.toNat_lt.trans (by decide)
    refine Json.fits_sparse ?_
    simp only [FixtureDomainEvent.fields, List.forall_mem_cons, List.not_mem_nil, false_imp_iff, implies_true, and_true,
      Option.mem_def, Option.some.injEq, forall_eq', Json.fits_str, Json.fits_num, true_and,
      Option.map_eq_some_iff, forall_exists_index, and_imp, FixtureAggregate.toJson, Json.fits_obj]
    refine ⟨fun j id _ hj => ?_, hschema, hversion, hpayload.mono (Nat.le_succ _)⟩
    rw [← hj]
    exact Json.fits_str _ _
  refine ⟨depth + 3, ?_⟩
  rw [fingerprintDocument, Json.fits_obj]
  simp only [List.forall_mem_cons, List.not_mem_nil, false_imp_iff, implies_true, and_true,
    Json.fits_str, true_and]
  exact hmessage

omit [Crates] [Crates.Compact] in
/-- The keys of equal canonical objects have the same canonical values. -/
theorem canonical_lookup_eq {fields fields' : List (String × Json)}
    (hnodup : (fields.map Prod.fst).Nodup) (hnodup' : (fields'.map Prod.fst).Nodup)
    (h : (Json.obj fields).canonical = (Json.obj fields').canonical) (key : String) :
    (fields.lookup key).map Json.canonical = (fields'.lookup key).map Json.canonical := by
  rw [Json.canonical_obj, Json.canonical_obj, Json.obj.injEq] at h
  have hlookup := congrArg (List.lookup key) h
  rwa [Json.lookup_map, Json.lookup_map, Json.lookup_sortByKey hnodup,
    Json.lookup_sortByKey hnodup'] at hlookup

omit [Crates.Compact] in
/-- The document of a message names it. -/
theorem messageId_eq_of_canonical {message message' : FixtureDomainEvent}
    (h : (fingerprintDocument f message).canonical = (fingerprintDocument f message').canonical) :
    message.messageId = message'.messageId := by
  have hdocument := canonical_lookup_eq (by simp) (by simp) h "message"
  simp only [List.lookup_cons, List.lookup_nil] at hdocument
  have hmessage : message.toJson.canonical = message'.toJson.canonical := by simpa using hdocument
  have hnodup : ∀ m : FixtureDomainEvent, (m.fields.map Prod.fst).Nodup := fun m => by
    simp [FixtureDomainEvent.fields]
  have hid : ∀ m : FixtureDomainEvent, (Json.sparse m.fields).lookup "messageId" =
      some (.str m.messageId.value) := fun m => by
    rw [Json.lookup_sparse (hnodup m)]
    simp [FixtureDomainEvent.fields, List.lookup_cons]
  have hkeys : ∀ m : FixtureDomainEvent, ((Json.sparse m.fields).map Prod.fst).Nodup := fun m =>
    (hnodup m).sublist (Json.map_fst_sparse _)
  have hlookup := canonical_lookup_eq (hkeys message) (hkeys message') hmessage "messageId"
  rw [hid, hid] at hlookup
  refine CheckedString.ext ?_
  simpa using hlookup

end Distinct

end Rostfrei.Fixtures

namespace Rostfrei.Fixtures.Sample

open Lib Messaging

attribute [local instance] Crates.concrete Crates.concrete_compact

theorem exists_fits_null : ∃ depth, Json.null.Fits depth := ⟨0, trivial⟩

def ledgerOpened : FixtureDomainEvent where
  messageId := ⟨"ledger-opened-1", by decide +kernel⟩
  correlationId := ⟨"ledger-correlation", by decide +kernel⟩
  causationId := none
  name := "ledger-opened"
  schemaVersion := ⟨1, SchemaVersion.one_ne_zero⟩
  aggregate := ⟨⟨"ledger", by decide +kernel⟩, ⟨"ledger-7", by decide +kernel⟩⟩
  streamVersion := 1
  payload := .null
  payload_fits := exists_fits_null

/-- A fixture with one message. -/
def ledger : Fixture where
  schemaVersion := fixtureSchemaVersion
  id := ⟨"open-ledger", by decide +kernel⟩
  revision := ⟨"open-ledger-revision", by decide +kernel⟩
  messages := ⟨[ledgerOpened], by simp, by decide⟩
  valid := by decide +kernel

end Rostfrei.Fixtures.Sample
