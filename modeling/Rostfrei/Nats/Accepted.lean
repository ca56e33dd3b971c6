import Rostfrei.Nats.RoundTrip
import Rostfrei.Lib.BinarySearch

/-!
# Histories that the builder accepts

The builder and `validateHistory` are two checkers of the same streams. What the builder accepts of
decoded events is a concatenation of complete commits (`HistoryBuilder.Accepted`), so
`validateHistory` accepts it, the first versions of its commits go up, and the search for a commit
by its first version finds what a search through all commits would (`history_of_builder`).

The builder does not compare the sequences of different commits: it keeps those it is given, and
the readers give it sequences that go up.
-/

namespace Rostfrei.Nats

open Lib

section Accepted

variable [Crates]

/-! ## Decoded events -/

/-- What decoding guarantees of an event of a stream. -/
structure WireEvent (streamId : StreamId) (e : DecodedStoredEvent) : Prop where
  stream : e.decoded.recorded.streamId = streamId
  built : e.decoded.recorded.streamVersion < 2 ^ 64 → e.decoded.recorded.Built
  commitId : e.decoded.recorded.commitId = deriveCommitId streamId e.decoded.recorded.operationId
  eventId : e.decoded.recorded.eventId =
    deriveEventId e.decoded.recorded.commitId e.decoded.recorded.commitEventOrdinal
  ordinal : e.decoded.eventOrdinal = e.decoded.recorded.commitEventOrdinal
  count : e.decoded.eventCount = e.decoded.recorded.commitEventCount
  commit : e.decoded.commitId = e.decoded.recorded.commitId
  operation : e.decoded.operationId = e.decoded.recorded.operationId
  fingerprint : e.decoded.operationFingerprint = e.decoded.recorded.operationFingerprint

/-- The recorded event of a wire content. -/
theorem decodeRecorded_eq_ok {wire : StoredEventContentWire} {streamId : StreamId}
    {recorded : RecordedEvent} (h : decodeRecorded wire streamId = .ok recorded) :
    recorded.streamId = streamId ∧ recorded.streamVersion = wire.streamVersion ∧
      recorded.commitEventOrdinal = wire.commitEventOrdinal ∧
      recorded.commitEventCount = wire.commitEventCount ∧
      recorded.commitId = deriveCommitId streamId recorded.operationId ∧
      recorded.eventId = deriveEventId recorded.commitId recorded.commitEventOrdinal ∧
      (recorded.streamVersion < 2 ^ 64 → recorded.Built) := by
  simp only [decodeRecorded, bind_eq_ok, mapError_eq_ok, okOr_eq_ok, rejectIf_eq_ok, pure_eq_ok,
    not_or, not_not] at h
  obtain ⟨commitId, -, operationId, -, fingerprint, -, correlationId, -, causationId, -, eventId, -,
    payload, -, -, ⟨hcommit, hevent⟩, base, hbase, rfl⟩ := h
  have hbuilt : base.streamVersion < 2 ^ 64 → base.Built := fun hlt => by
    refine RecordedEvent.built_of_newInCommit ?_ hbase
    simp only [RecordedEvent.newInCommit, bind_unit_eq_ok, pure_eq_ok] at hbase
    obtain ⟨-, -, -, -, -, rfl⟩ := hbase
    exact hlt
  simp only [RecordedEvent.newInCommit, bind_unit_eq_ok, pure_eq_ok] at hbase
  obtain ⟨-, -, -, -, -, rfl⟩ := hbase
  refine ⟨rfl, rfl, rfl, rfl, hcommit.symm, ?_, fun hlt => ?_⟩
  · rw [← hevent, hcommit]
  · obtain ⟨h₁, h₂, h₃, h₄, h₅, h₆, h₇⟩ := hbuilt hlt
    exact ⟨h₁, h₂, h₃, h₄, h₅, h₆, h₇⟩

theorem wireEvent_of_decode {config : NatsEventStoreConfig} {subject : String}
    {expectedStream : Option StreamId} {expected : Option Nat} {headers : HeaderMap}
    {payload : Bytes} {e : DecodedStoredEvent} (sequence : Nat)
    (h : decodeEventInner config subject expectedStream expected headers payload = .ok e) :
    WireEvent e.decoded.recorded.streamId { e with globalStreamSequence := sequence } := by
  simp only [decodeEventInner, bind_eq_ok, pure_eq_ok] at h
  obtain ⟨-, -, wire, -, -, -, -, -, streamId, -, -, -, coordinates, -, -, -, recorded, hrecorded,
    batchId, -, rfl⟩ := h
  obtain ⟨hstream, -, hordinal, hcount, hcommit, hevent, hbuilt⟩ := decodeRecorded_eq_ok hrecorded
  exact ⟨rfl, hbuilt, by rw [hstream]; exact hcommit, hevent, hordinal.symm, hcount.symm, rfl, rfl,
    rfl⟩

/-- The event was read from a message, with some sequence, and belongs to the stream. -/
def DecodedFrom (config : NatsEventStoreConfig) (streamId : StreamId) (e : DecodedStoredEvent) :
    Prop :=
  ∃ subject expectedStream expected headers payload d,
    decodeEventInner config subject expectedStream expected headers payload = .ok d ∧
      e = { d with globalStreamSequence := e.globalStreamSequence } ∧
      d.decoded.recorded.streamId = streamId

theorem DecodedFrom.wireEvent {config : NatsEventStoreConfig} {streamId : StreamId}
    {e : DecodedStoredEvent} (h : DecodedFrom config streamId e) : WireEvent streamId e := by
  obtain ⟨_, _, _, _, _, d, hdecode, heq, rfl⟩ := h
  rw [heq]
  exact wireEvent_of_decode _ hdecode

/-! ## Commits -/

/-- The events of a pending commit are the first ones of a commit. -/
structure PendingCommit.Begun (streamId : StreamId) (p : PendingCommit) : Prop where
  part : CommitPart SameDecision streamId p.eventCount p.events
  ne : p.events ≠ []
  operation : ∀ e ∈ p.events, e.operationId = p.operationId
  commit : ∀ e ∈ p.events, e.commitId = p.commitId
  fingerprint : ∀ e ∈ p.events, e.operationFingerprint = p.operationFingerprint
  length : p.globalStreamSequences.length = p.events.length

theorem PendingCommit.begun_of_new {streamId : StreamId} {stored : DecodedStoredEvent}
    {p : PendingCommit} (hwire : WireEvent streamId stored)
    (hopens : stored.decoded.eventOrdinal = 0)
    (h : new stored.decoded stored.globalStreamSequence stored.isTransactional = .ok p) :
    p.Begun streamId := by
  obtain ⟨transaction, -, rfl⟩ := new_eq_ok.mp h
  have hordinal : stored.decoded.recorded.commitEventOrdinal = 0 := by
    rw [← hwire.ordinal, hopens]
  refine ⟨⟨?_, ?_, ?_, ?_, by simp [hordinal], ?_, ?_⟩, by simp, ?_, ?_, ?_, rfl⟩ <;>
    simp only [List.forall_mem_singleton]
  · exact hwire.stream
  · exact ⟨rfl, rfl⟩
  · exact hwire.count.symm
  · exact hwire.commitId
  · exact hwire.eventId
  · exact hwire.operation.symm
  · exact hwire.commit.symm
  · exact hwire.fingerprint.symm

theorem PendingCommit.Begun.push {streamId : StreamId} {stored : DecodedStoredEvent}
    {p p' : PendingCommit} (hbegun : p.Begun streamId) (hwire : WireEvent streamId stored)
    (h : p.push stored.decoded stored.globalStreamSequence stored.isTransactional = .ok p') :
    p'.Begun streamId := by
  obtain ⟨first, hfirst, hcontinues, rfl⟩ := push_eq_ok.mp h
  have hmem : first ∈ p.events := List.mem_of_mem_head? hfirst
  have hcount : stored.decoded.recorded.commitEventCount = p.eventCount := by
    rw [← hwire.count, hcontinues.count]
  have hoperation : stored.decoded.recorded.operationId = p.operationId := by
    rw [← hwire.operation, hcontinues.operationId]
  have hfingerprint : stored.decoded.recorded.operationFingerprint = p.operationFingerprint := by
    rw [← hwire.fingerprint, hcontinues.fingerprint]
  have hshares : ∀ x ∈ p.events, SameDecision x stored.decoded.recorded := fun x hx =>
    ⟨by rw [hbegun.fingerprint x hx, hfingerprint],
      ((hbegun.part.shares x hx first hmem).2).trans hcontinues.actor.symm⟩
  have hpart := hbegun.part.snoc (fun _ => hcount) hwire.stream
    (fun x hx => by rw [hbegun.operation x hx, hoperation]) hshares
    (by rw [← hwire.ordinal, hcontinues.ordinal]) hwire.commitId hwire.eventId
  rw [hcount] at hpart
  refine ⟨hpart, by simp, ?_, ?_, ?_, by simp [hbegun.length]⟩ <;>
    simp only [List.forall_mem_append, List.forall_mem_singleton]
  · exact ⟨hbegun.operation, hoperation⟩
  · exact ⟨hbegun.commit, by rw [← hwire.commit, hcontinues.commitId]⟩
  · exact ⟨hbegun.fingerprint, hfingerprint⟩

/-- A stored commit is complete, and its messages follow each other. -/
structure StoredCommit.Whole (streamId : StreamId) (c : StoredCommit) : Prop where
  complete : CompleteCommit SameDecision streamId c.events
  operation : ∀ e ∈ c.events, e.operationId = c.batch.operationId
  commit : ∀ e ∈ c.events, e.commitId = c.batch.commitId
  sequences : ∃ first, c.globalStreamSequences = List.range' first c.events.length

omit [Crates] in
theorem eq_range_of_consecutive {sequences : List Nat} {first : Nat}
    (h : PendingCommit.consecutive sequences first = true) :
    sequences = List.range' first sequences.length := by
  refine List.ext_getElem (by simp) fun i hi hi' => ?_
  have hat := List.all_eq_true.mp h (sequences[i], i)
    (List.mem_zipIdx_iff_getElem?.mpr (List.getElem?_eq_getElem hi))
  have hsum := (checkedAdd_eq_some.mp (beq_iff_eq.mp hat)).2
  rw [List.getElem_range', Nat.one_mul]
  exact hsum.symm

theorem PendingCommit.Begun.finish {streamId : StreamId} {p : PendingCommit} {c : StoredCommit}
    (hbegun : p.Begun streamId) (hcomplete : p.isComplete = true) (h : p.Finishes c) :
    c.Whole streamId := by
  have hlength : p.events.length = p.eventCount := by simpa [isComplete] using hcomplete
  obtain ⟨first, -, hconsecutive⟩ := h.consecutive
  refine ⟨⟨?_, ?_⟩, ?_, ?_, first, ?_⟩
  · rw [h.events, hlength]
    exact hbegun.part
  · rw [h.events]
    exact hbegun.ne
  · rw [h.events, h.operationId]
    exact hbegun.operation
  · rw [h.events, h.commitId]
    exact hbegun.commit
  · rw [h.sequences, h.events, ← hbegun.length]
    exact eq_range_of_consecutive hconsecutive

/-! ## The builder -/

namespace HistoryBuilder

variable {streamId : StreamId} {b b' : HistoryBuilder} {pushed : List DecodedStoredEvent}
  {stored : DecodedStoredEvent} {pending : PendingCommit}

/-- The builder holds the events that were pushed, as complete commits and a pending one. -/
structure Accepted (streamId : StreamId) (b : HistoryBuilder) (pushed : List DecodedStoredEvent) :
    Prop where
  restored : b.Restored
  events : b.history.events ++ b.pendingEvents = pushed.map (·.decoded.recorded)
  sequences : b.history.globalStreamSequences ++ b.pending.elim [] (·.globalStreamSequences) =
    pushed.map (·.globalStreamSequence)
  concat : (b.history.commits.map (·.events)).flatten = b.history.events
  whole : ∀ c ∈ b.history.commits, c.Whole streamId
  begun : ∀ p ∈ b.pending, p.Begun streamId
  operations : (b.history.commits.map (·.batch.operationId) ++
    b.pending.toList.map (·.operationId)).Nodup
  commits : (b.history.commits.map (·.batch.commitId) ++ b.pending.toList.map (·.commitId)).Nodup
  version : b.currentVersion = pushed.length
  versions : pushed.map (·.decoded.recorded.streamVersion) = List.range' 1 pushed.length
  eventIds : (pushed.map (·.decoded.recorded.eventId)).Nodup
  built : ∀ e ∈ pushed, e.decoded.recorded.Built
  nonzero : ∀ e ∈ pushed, e.globalStreamSequence ≠ 0

theorem accepted_default (streamId : StreamId) : Accepted streamId {} [] :=
  ⟨restored_default, rfl, rfl, rfl, by simp, by simp, List.nodup_nil, List.nodup_nil, rfl, rfl,
    List.nodup_nil, by simp, by simp⟩

/-- The step: an event that has a place. -/
theorem Accepted.pend (h : Accepted streamId b pushed) (hwire : WireEvent streamId stored)
    (hnext : Next b stored) (hplace : b.place stored = .ok pending) :
    Accepted streamId (b.pend stored.decoded (b.currentVersion + 1) pending)
      (pushed ++ [stored]) := by
  have hnew : stored.decoded.recorded.eventId ∉ pushed.map (·.decoded.recorded.eventId) := by
    have hid := hnext.eventId_new
    rw [h.restored.eventIds, h.events, List.mem_toFinset, List.map_map] at hid
    exact hid
  have hversions : (pushed ++ [stored]).map (·.decoded.recorded.streamVersion) =
      List.range' 1 (pushed ++ [stored]).length := by
    rw [List.map_append, h.versions, List.length_append, List.length_singleton,
      List.range'_concat, Nat.one_mul, List.map_singleton, hnext.version, h.version, Nat.add_comm 1]
  have hids : ((pushed ++ [stored]).map (·.decoded.recorded.eventId)).Nodup := by
    rw [List.map_append, List.map_singleton, List.nodup_append]
    refine ⟨h.eventIds, List.nodup_singleton _, fun x hx y hy heq => hnew ?_⟩
    rw [← List.mem_singleton.mp hy, ← heq]
    exact hx
  have hbuilt : ∀ e ∈ pushed ++ [stored], e.decoded.recorded.Built := by
    rw [List.forall_mem_append, List.forall_mem_singleton]
    refine ⟨h.built, hwire.built ?_⟩
    rw [hnext.version]
    exact hnext.version_lt
  have hnonzero : ∀ e ∈ pushed ++ [stored], e.globalStreamSequence ≠ 0 := by
    rw [List.forall_mem_append, List.forall_mem_singleton]
    exact ⟨h.nonzero, hnext.sequence_ne⟩
  have hversion : b.currentVersion + 1 = (pushed ++ [stored]).length := by
    rw [h.version, List.length_append, List.length_singleton]
  have hrestored := h.restored.pend hnext hplace
  have hevents := h.events
  have hsequences := h.sequences
  have hoperations := h.operations
  have hcommits := h.commits
  rcases place_eq_ok.mp hplace with ⟨hopens, hnone, hop, hcommit, hbegin⟩ |
    ⟨hopens, before, hbefore, hpush⟩
  · have hbegun := PendingCommit.begun_of_new hwire hopens hbegin
    obtain ⟨transaction, -, rfl⟩ := PendingCommit.new_eq_ok.mp hbegin
    rw [h.restored.operationIds, List.mem_toFinset] at hop
    rw [h.restored.commitIds, List.mem_toFinset] at hcommit
    simp only [pendingEvents, hnone, Option.elim_none, List.append_nil, Option.toList_none,
      List.map_nil] at hevents hsequences hoperations hcommits hop hcommit
    refine ⟨hrestored, ?_, ?_, h.concat, h.whole, ?_, ?_, ?_, hversion, hversions, hids, hbuilt,
      hnonzero⟩
    · simp [HistoryBuilder.pend, pendingEvents, hevents]
    · simp [HistoryBuilder.pend, hsequences]
    · simpa [HistoryBuilder.pend] using hbegun
    · simpa [HistoryBuilder.pend, List.nodup_append, hoperations] using hop
    · simpa [HistoryBuilder.pend, List.nodup_append, hcommits] using hcommit
  · have hbegun := (h.begun before hbefore).push hwire hpush
    obtain ⟨first, -, -, rfl⟩ := PendingCommit.push_eq_ok.mp hpush
    simp only [pendingEvents, hbefore, Option.elim_some] at hevents hsequences hoperations hcommits
    refine ⟨hrestored, ?_, ?_, h.concat, h.whole, ?_, hoperations, hcommits, hversion, hversions,
      hids, hbuilt, hnonzero⟩
    · simp [HistoryBuilder.pend, pendingEvents, ← hevents]
    · simp [HistoryBuilder.pend, ← hsequences]
    · simpa [HistoryBuilder.pend] using hbegun

/-- The step: the pending commit is complete. -/
theorem Accepted.settle {c : StoredCommit} (h : Accepted streamId b pushed)
    (hpending : b.pending = some pending) (hcomplete : pending.isComplete = true)
    (hfinish : pending.Finishes c) : Accepted streamId (b.settle c) pushed := by
  have hwhole := (h.begun pending hpending).finish hcomplete hfinish
  have hevents := h.events
  have hsequences := h.sequences
  have hoperations := h.operations
  have hcommits := h.commits
  simp only [pendingEvents, hpending, Option.elim_some, Option.toList_some, List.map_singleton]
    at hevents hsequences hoperations hcommits
  refine ⟨h.restored.settle hpending hfinish, ?_, ?_, ?_, ?_, by simp [HistoryBuilder.settle], ?_,
    ?_, h.version, h.versions, h.eventIds, h.built, h.nonzero⟩
  · simp [HistoryBuilder.settle, extend, pendingEvents, hfinish.events, hevents]
  · simp [HistoryBuilder.settle, extend, hfinish.sequences, hsequences]
  · simp [HistoryBuilder.settle, extend, h.concat]
  · simp only [HistoryBuilder.settle, extend, List.forall_mem_append, List.forall_mem_singleton]
    exact ⟨h.whole, hwhole⟩
  · simpa [HistoryBuilder.settle, extend, hfinish.operationId] using hoperations
  · simpa [HistoryBuilder.settle, extend, hfinish.commitId] using hcommits

theorem Accepted.push (h : Accepted streamId b pushed) (hwire : WireEvent streamId stored)
    (hpush : b.push stored = .ok b') : Accepted streamId b' (pushed ++ [stored]) := by
  obtain ⟨hnext, pending, hplace, hrest⟩ := push_eq_ok.mp hpush
  have hpend := h.pend hwire hnext hplace
  rcases hrest with ⟨hcomplete, c, hfinish, rfl⟩ | ⟨-, rfl⟩
  · exact hpend.settle rfl hcomplete (PendingCommit.finishes_of_finish hfinish)
  · exact hpend

/-- The run. -/
theorem Accepted.pushAll {events : List DecodedStoredEvent} (h : Accepted streamId b pushed)
    (hwire : ∀ e ∈ events, WireEvent streamId e) (hpush : b.pushAll events = .ok b') :
    Accepted streamId b' (pushed ++ events) := by
  induction events generalizing b pushed with
  | nil =>
    cases hpush
    simpa using h
  | cons stored events ih =>
    rw [pushAll_cons, bind_eq_ok] at hpush
    obtain ⟨b₁, hstep, hrest⟩ := hpush
    rw [List.append_cons]
    exact ih (h.push (hwire stored List.mem_cons_self) hstep)
      (fun e he => hwire e (List.mem_cons_of_mem _ he)) hrest

end HistoryBuilder

/-! ## Finished histories -/

omit [Crates] in
/-- The key of the search for a commit: the version of its first event. -/
def StoredCommit.firstVersion (c : StoredCommit) : Nat := c.events.head?.elim 0 (·.streamVersion)

namespace HistoryBuilder

variable {streamId : StreamId} {b : HistoryBuilder} {pushed : List DecodedStoredEvent}

/-- The commits of different operations are different. -/
theorem Accepted.distinct (h : Accepted streamId b pushed) :
    (b.history.commits.map (·.events)).Pairwise fun c c' => ∀ e ∈ c, ∀ e' ∈ c', OtherCommit e e' := by
  have hoperations := (List.nodup_append.mp h.operations).1
  have hcommits := (List.nodup_append.mp h.commits).1
  rw [List.Nodup, List.pairwise_map] at hoperations hcommits
  rw [List.pairwise_map]
  refine (hoperations.and hcommits).imp_of_mem fun hc hc' hne e he e' he' => ?_
  obtain ⟨hoperation, hcommit⟩ := hne
  have hwhole := h.whole _ hc
  have hwhole' := h.whole _ hc'
  refine ⟨?_, ?_⟩
  · rwa [hwhole.operation e he, hwhole'.operation e' he']
  · rwa [hwhole.commit e he, hwhole'.commit e' he']

/-- Between commits, what was pushed is a history of complete commits. -/
theorem Accepted.historyOf (h : Accepted streamId b pushed) (hpending : b.pending = none) :
    HistoryOf SameDecision streamId (b.history.commits.map (·.events)) b.history.events := by
  have hevents := h.events
  rw [pendingEvents, hpending, Option.elim_none, List.append_nil] at hevents
  refine ⟨h.concat, ?_, h.distinct, ?_⟩
  · intro events hmem
    obtain ⟨c, hc, rfl⟩ := List.mem_map.mp hmem
    exact (h.whole c hc).complete
  · rw [hevents, List.map_map, List.length_map]
    exact h.versions

end HistoryBuilder

/-- The first versions of the commits of a history go up. -/
theorem firstVersions_pairwise {streamId : StreamId} {history : History}
    (h : HistoryOf SameDecision streamId (history.commits.map (·.events)) history.events) :
    (history.commits.map StoredCommit.firstVersion).Pairwise (· < ·) := by
  have hsorted : (history.events.map (·.streamVersion)).Pairwise (· < ·) := by
    rw [h.versions]
    exact List.pairwise_lt_range'
  rw [← h.concat, List.pairwise_map, List.pairwise_flatten, List.pairwise_map] at hsorted
  rw [List.pairwise_map]
  refine hsorted.2.imp_of_mem fun {c c'} hc hc' hlt => ?_
  have hfirst : ∀ c ∈ history.commits, ∃ e ∈ c.events, c.firstVersion = e.streamVersion := by
    intro c hc
    obtain ⟨e, rest, heq⟩ := List.exists_cons_of_ne_nil (h.complete _ (List.mem_map_of_mem hc)).ne
    exact ⟨e, by simp [heq], by simp [StoredCommit.firstVersion, heq]⟩
  obtain ⟨e, he, heq⟩ := hfirst c hc
  obtain ⟨e', he', heq'⟩ := hfirst c' hc'
  rw [heq, heq']
  exact hlt e he e' he'

omit [Crates] in
/-- On keys that go up, the binary search and a search from the front find the same. -/
theorem binarySearch_eq_findIdx {history : History} {version : Nat}
    (hsorted : (history.commits.map StoredCommit.firstVersion).Pairwise (· < ·)) :
    binarySearchByKey history.commits version StoredCommit.firstVersion =
      history.commits.findIdx? (·.firstVersion = version) := by
  refine Option.ext fun i => ?_
  rw [binarySearchByKey_eq_some hsorted, List.findIdx?_eq_some_iff_getElem]
  constructor
  · rintro ⟨c, hc, hversion⟩
    obtain ⟨hi, rfl⟩ := List.getElem?_eq_some_iff.mp hc
    refine ⟨hi, by simpa using hversion, fun j hj hsame => ?_⟩
    have hlt := List.pairwise_iff_getElem.mp hsorted j i (by simp; omega) (by simpa using hi) hj
    simp only [List.getElem_map, decide_eq_true_eq] at hlt hsame
    omega
  · rintro ⟨hi, hversion, -⟩
    exact ⟨history.commits[i], List.getElem?_eq_getElem hi, by simpa using hversion⟩

/-- A history that the builder makes of decoded events of a stream is a valid one: its commits tile
the versions from 1 on, and the binary search for a commit finds what a search from the front does.
The sequences are those of the messages, consecutive within a commit; the builder does not compare
those of different commits, so they go up if the messages were given in the order of the journal. -/
theorem history_of_builder {config : NatsEventStoreConfig} {streamId : StreamId}
    {pushed : List DecodedStoredEvent} {lastSequence : Nat} {history : History}
    (hwire : ∀ e ∈ pushed, DecodedFrom config streamId e)
    (h : HistoryBuilder.pushAll {} pushed >>= (·.finish lastSequence) = .ok history) :
    validateHistory streamId history.events = .ok () ∧
      history.events = pushed.map (·.decoded.recorded) ∧
      (history.commits.map fun c => c.events.map (·.streamVersion)).flatten =
        List.range' 1 history.events.length ∧
      (∀ c ∈ history.commits, c.events ≠ []) ∧
      (history.commits.map StoredCommit.firstVersion).Pairwise (· < ·) ∧
      history.globalStreamSequences = pushed.map (·.globalStreamSequence) ∧
      (∀ c ∈ history.commits, ∃ first,
        c.globalStreamSequences = List.range' first c.events.length) ∧
      (pushed.Pairwise (·.globalStreamSequence < ·.globalStreamSequence) →
        history.globalStreamSequences.Pairwise (· < ·)) ∧
      ∀ version, binarySearchByKey history.commits version StoredCommit.firstVersion =
        history.commits.findIdx? (·.firstVersion = version) := by
  obtain ⟨b, hpush, hfinish⟩ := bind_eq_ok.mp h
  have haccepted := (HistoryBuilder.accepted_default streamId).pushAll
    (fun e he => (hwire e he).wireEvent) hpush
  rw [List.nil_append] at haccepted
  obtain ⟨hpending, -, rfl⟩ := HistoryBuilder.finish_eq_ok.mp hfinish
  have hof := haccepted.historyOf hpending
  have hevents := haccepted.events
  rw [HistoryBuilder.pendingEvents, hpending, Option.elim_none, List.append_nil] at hevents
  have hsequences := haccepted.sequences
  rw [hpending, Option.elim_none, List.append_nil] at hsequences
  have hsorted := firstVersions_pairwise hof
  refine ⟨hof.validateHistory ?_ ?_, hevents, ?_,
    fun c hc => (haccepted.whole c hc).complete.ne, hsorted, hsequences,
    fun c hc => (haccepted.whole c hc).sequences, fun hpairwise => ?_,
    fun version => binarySearch_eq_findIdx hsorted⟩
  · rw [hevents]
    simpa using haccepted.built
  · rw [hevents, List.map_map]
    exact haccepted.eventIds
  · rw [← hof.versions, ← hof.concat, List.map_flatten, List.map_map]
    rfl
  · show b.history.globalStreamSequences.Pairwise (· < ·)
    rw [hsequences, List.pairwise_map]
    exact hpairwise

end Accepted

namespace Sample

attribute [local instance] Crates.concrete

open Rostfrei.Sample (stream batch event fingerprint opened batch_derived)

def nextOperation : OperationId := ⟨"op-2", by decide +kernel⟩

/-- A batch of another operation. -/
def nextBatch : EventBatch where
  commitId := deriveCommitId stream nextOperation
  operationId := nextOperation
  operationFingerprint := fingerprint
  correlationId := none
  causationId := none
  actor := none
  events := [{ opened with eventId := deriveEventId (deriveCommitId stream nextOperation) 0 }]
  events_ne := by simp
  events_le := by decide
  payload_le := by decide
  ids_nodup := by simp

theorem nextBatch_derived : DerivedIdentities stream nextBatch := by
  refine ⟨rfl, fun i hi => ?_⟩
  obtain rfl : i = 0 := Nat.lt_one_iff.mp hi
  rfl

def nextEvent : RecordedEvent :=
  .fromNew stream 2 nextBatch 0 1 { opened with eventId := deriveEventId nextBatch.commitId 0 }

/-- The decoded event of a batch that was appended alone, with some sequence. -/
def decodedAt (sequence : Nat) (e : RecordedEvent) : DecodedStoredEvent :=
  storedEvent .direct (lowerHex fingerprint.toList) sequence e

/-- An event that was appended alone can be read with any sequence. -/
theorem decodedFrom_published {base : Nat} {batch : EventBatch} {e : RecordedEvent} (sequence : Nat)
    (hderived : DerivedIdentities stream batch) (hrecorded : recordBatch stream base batch = .ok [e])
    (hcount : batch.events.length = 1)
    (hsize : (encodeEventsInner config stream batch [e] none).toOption.any
      (fun payloads => payloads.all (·.length ≤ config.maxEventBytes))) :
    DecodedFrom config stream (decodedAt sequence e) := by
  have := Crates.concrete_lawful
  obtain ⟨payloads, hencoded, hread⟩ :=
    @published_batch_read_back _ _ config stream base batch .direct [e] [] [] fingerprint none 0 1
      hderived hrecorded trivial ⟨rfl, rfl⟩ (by decide) (by decide) (by simp [hcount])
  rw [show Placement.direct.coordinates = none from rfl] at hencoded
  rw [hencoded] at hsize
  simp only [Except.toOption, Option.any_some, decide_eq_true_eq, List.all_eq_true] at hsize
  obtain ⟨m, -, hdecode⟩ := (hread hsize).1 0 (by simp)
  obtain ⟨-, hbatch⟩ := recordBatch_eq_ok.mp hrecorded
  have hstream : e.streamId = stream := by
    have hmem : e ∈ RecordedEvent.ofBatch stream base batch := by simp [← hbatch]
    obtain ⟨i, hi, rfl⟩ := List.mem_iff_getElem.mp hmem
    simp [RecordedEvent.ofBatch, RecordedEvent.fromNew]
  exact ⟨_, none, none, _, _, _, hdecode none none (by simp) (by simp), rfl, hstream⟩

theorem event_decodedFrom (sequence : Nat) : DecodedFrom config stream (decodedAt sequence event) :=
  decodedFrom_published sequence batch_derived (recordBatch_eq_ok.mpr ⟨by decide, rfl⟩) rfl
    (by decide +kernel)

theorem nextEvent_decodedFrom (sequence : Nat) :
    DecodedFrom config stream (decodedAt sequence nextEvent) :=
  decodedFrom_published sequence nextBatch_derived (recordBatch_eq_ok.mpr ⟨by decide, rfl⟩) rfl
    (by decide +kernel)

theorem accepted_in_order :
    (HistoryBuilder.pushAll {} [decodedAt 5 event, decodedAt 9 nextEvent] >>=
      (·.finish 9)).toOption.isSome = true := by
  decide +kernel

/-- Two appends in the order of the journal, and the search for the second one. -/
theorem history_of_builder_two_commits :
    ∃ history, HistoryBuilder.pushAll {} [decodedAt 5 event, decodedAt 9 nextEvent] >>=
        (·.finish 9) = .ok history ∧
      validateHistory stream history.events = .ok () ∧
      history.globalStreamSequences.Pairwise (· < ·) ∧
      binarySearchByKey history.commits 2 StoredCommit.firstVersion =
        history.commits.findIdx? (·.firstVersion = 2) := by
  cases h : HistoryBuilder.pushAll {} [decodedAt 5 event, decodedAt 9 nextEvent] >>=
      (·.finish 9) with
  | error error =>
    have hsome := accepted_in_order
    rw [h] at hsome
    cases hsome
  | ok history =>
    have hwire : ∀ e ∈ [decodedAt 5 event, decodedAt 9 nextEvent], DecodedFrom config stream e := by
      simp only [List.forall_mem_cons, List.not_mem_nil, false_imp_iff, implies_true, and_true]
      exact ⟨event_decodedFrom 5, nextEvent_decodedFrom 9⟩
    obtain ⟨hvalid, -, -, -, -, -, -, hsorted, hsearch⟩ := history_of_builder hwire h
    refine ⟨history, rfl, hvalid, hsorted ?_, hsearch 2⟩
    simp [decodedAt, storedEvent]

/-- The builder accepts two commits whose sequences go down. -/
theorem sequences_go_down :
    (∀ e ∈ [decodedAt 9 event, decodedAt 5 nextEvent], DecodedFrom config stream e) ∧
      ∃ history, HistoryBuilder.pushAll {} [decodedAt 9 event, decodedAt 5 nextEvent] >>=
          (·.finish 9) = .ok history ∧
        ¬ history.globalStreamSequences.Pairwise (· < ·) := by
  constructor
  · simp only [List.forall_mem_cons, List.not_mem_nil, false_imp_iff, implies_true, and_true]
    exact ⟨event_decodedFrom 9, nextEvent_decodedFrom 5⟩
  · have hsequences : (HistoryBuilder.pushAll {} [decodedAt 9 event, decodedAt 5 nextEvent] >>=
        (·.finish 9)).toOption.map (·.globalStreamSequences) = some [9, 5] := by
      decide +kernel
    cases h : HistoryBuilder.pushAll {} [decodedAt 9 event, decodedAt 5 nextEvent] >>=
        (·.finish 9) with
    | error error =>
      rw [h] at hsequences
      cases hsequences
    | ok history =>
      rw [h] at hsequences
      have heq : history.globalStreamSequences = [9, 5] := Option.some.inj hsequences
      refine ⟨history, rfl, ?_⟩
      rw [heq]
      decide

end Sample

end Rostfrei.Nats
