import Rostfrei.Core.Store

/-!
# Histories

`validateHistory` of `executor.rs` scans the events of a stream once, with the set of event
identities, the set of commits, the operations seen so far and the commit it is inside of. A
stream that is a sequence of whole commits passes (`validateHistory_of_journaled`).
-/

namespace Rostfrei

open Lib

/-- A `HashMap`. -/
abbrev Map (κ α : Type) := Finmap fun _ : κ => α

/-- The state of the scan; `currentCommit` is the commit, the next ordinal and the event count. -/
structure HistoryScan where
  eventIds : Finset EventId
  seenCommits : Finset CommitId
  operations : Map OperationId (CommitId × ContentFingerprint × Option ActorRef)
  currentCommit : Option (CommitId × Nat × Nat)

def HistoryScan.start : HistoryScan := ⟨∅, ∅, ∅, none⟩

/-- The next ordinal and the event count of the commit an event belongs to, and the commits seen
with it. -/
def commitCoordinates (scan : HistoryScan) (event : RecordedEvent) :
    Except EventStoreError ((Nat × Nat) × Finset CommitId) :=
  match scan.currentCommit with
  | some (commitId, expectedOrdinal, eventCount) =>
    if commitId = event.commitId then .ok ((expectedOrdinal, eventCount), scan.seenCommits)
    else .error (corrupt "loaded history contains an incomplete commit")
  | none => do
    rejectIf (event.commitEventOrdinal ≠ 0) (corrupt "loaded history starts inside a commit")
    rejectIf (event.commitId ∈ scan.seenCommits)
      (corrupt "events for one commit are not contiguous")
    return ((0, event.commitEventCount), insert event.commitId scan.seenCommits)

section Scan

variable [Crates]

/-- One event of the scan, at position `index`. -/
def scanEvent (streamId : StreamId) (index : Nat) (scan : HistoryScan) (event : RecordedEvent) :
    Except EventStoreError HistoryScan := do
  rejectIf (event.streamId ≠ streamId)
    (corrupt "loaded history contains an event from another stream")
  let expectedPosition ← okOr (corrupt "loaded history exceeds the supported version range")
    (checkedAdd index 1)
  rejectIf (event.streamVersion ≠ expectedPosition)
    (corrupt "loaded history has non-contiguous stream versions")
  rejectIf (event.eventId ∈ scan.eventIds)
    (corrupt "loaded history contains a duplicate event identity")
  let ((expectedOrdinal, eventCount), seenCommits) ← commitCoordinates scan event
  rejectIf (event.commitEventOrdinal ≠ expectedOrdinal ∨ event.commitEventCount ≠ eventCount)
    (corrupt "loaded history has inconsistent commit coordinates")
  rejectIf (event.commitId ≠ deriveCommitId streamId event.operationId)
    (corrupt "loaded history contains an invalid commit identity")
  rejectIf (event.eventId ≠ deriveEventId event.commitId event.commitEventOrdinal)
    (corrupt "loaded history contains an invalid event identity")
  let nextOrdinal ← okOr (corrupt "a commit exceeds the supported event ordinal range")
    (if event.commitEventOrdinal + 1 < 2 ^ 32 then some (event.commitEventOrdinal + 1) else none)
  let identity := (event.commitId, event.operationFingerprint, event.actor)
  rejectIf ((scan.operations.lookup event.operationId).any (· ≠ identity))
    (corrupt "loaded history reuses an operation identity across different commits")
  return {
    eventIds := insert event.eventId scan.eventIds
    seenCommits := seenCommits
    operations := scan.operations.insert event.operationId identity
    currentCommit :=
      if nextOrdinal = eventCount then none
      else some (event.commitId, nextOrdinal, eventCount) }

/-- The scan of the events from position `index` on. -/
def scanHistory (streamId : StreamId) :
    Nat → HistoryScan → List RecordedEvent → Except EventStoreError HistoryScan
  | _, scan, [] => .ok scan
  | index, scan, event :: rest => do
    let scan ← scanEvent streamId index scan event
    scanHistory streamId (index + 1) scan rest

/-- `validate_history`. -/
def validateHistory (streamId : StreamId) (history : List RecordedEvent) :
    Except EventStoreError Unit := do
  let scan ← scanHistory streamId 0 .start history
  rejectIf scan.currentCommit.isSome (corrupt "loaded history ended inside a commit")

theorem scanHistory_append (streamId : StreamId) (index : Nat) (scan : HistoryScan)
    (xs ys : List RecordedEvent) :
    scanHistory streamId index scan (xs ++ ys) =
      (scanHistory streamId index scan xs >>= fun scan' =>
        scanHistory streamId (index + xs.length) scan' ys) := by
  induction xs generalizing index scan with
  | nil => rfl
  | cons x xs ih =>
    simp only [List.cons_append, scanHistory, List.length_cons]
    cases h : scanEvent streamId index scan x with
    | error e => rfl
    | ok scan' =>
      simp only [ok_bind, ih]
      congr 1
      funext scan''
      congr 1
      omega

/-! ## Sequences of whole commits -/

/-- The commit identity and the event identities of a batch are the derived ones. -/
structure DerivedIdentities (streamId : StreamId) (batch : EventBatch) : Prop where
  commit : batch.commitId = deriveCommitId streamId batch.operationId
  events : ∀ i (h : i < batch.events.length),
    batch.events[i].eventId = deriveEventId batch.commitId i

omit [Crates] in
/-- The events of a stream that starts at `base` and consists of these batches. -/
def journalEvents (streamId : StreamId) : Nat → List EventBatch → List RecordedEvent
  | _, [] => []
  | base, batch :: rest =>
    RecordedEvent.ofBatch streamId base batch ++
      journalEvents streamId (base + batch.events.length) rest

/-- Batches that make up a stream: derived identities, none of them twice, and room for the
versions. -/
structure Journal (streamId : StreamId) (batches : List EventBatch) : Prop where
  derived : ∀ b ∈ batches, DerivedIdentities streamId b
  operations : (batches.map (·.operationId)).Nodup
  commits : (batches.map (·.commitId)).Nodup
  eventIds : (batches.flatMap fun b => b.events.map (·.eventId)).Nodup
  versions : (batches.map (·.events.length)).sum < 2 ^ 64

/-- A batch with new identities extends a journal. -/
theorem Journal.snoc {streamId : StreamId} {batches : List EventBatch} {batch : EventBatch}
    (h : Journal streamId batches) (hd : DerivedIdentities streamId batch)
    (hop : batch.operationId ∉ batches.map (·.operationId))
    (hc : batch.commitId ∉ batches.map (·.commitId))
    (hids : ∀ e ∈ batch.events, e.eventId ∉ batches.flatMap fun b => b.events.map (·.eventId))
    (hv : (batches.map (·.events.length)).sum + batch.events.length < 2 ^ 64) :
    Journal streamId (batches ++ [batch]) where
  derived := by
    rw [List.forall_mem_append, List.forall_mem_singleton]
    exact ⟨h.derived, hd⟩
  operations := by
    rw [List.map_append, List.map_singleton, List.nodup_append]
    refine ⟨h.operations, List.nodup_singleton _, fun x hx y hy hxy => ?_⟩
    exact hop (List.mem_singleton.mp hy ▸ hxy ▸ hx)
  commits := by
    rw [List.map_append, List.map_singleton, List.nodup_append]
    refine ⟨h.commits, List.nodup_singleton _, fun x hx y hy hxy => ?_⟩
    exact hc (List.mem_singleton.mp hy ▸ hxy ▸ hx)
  eventIds := by
    rw [List.flatMap_append, List.flatMap_singleton, List.nodup_append]
    refine ⟨h.eventIds, batch.ids_nodup, fun x hx y hy hxy => ?_⟩
    obtain ⟨e, he, rfl⟩ := List.mem_map.mp hy
    exact hids e he (hxy ▸ hx)
  versions := by simpa using hv

/-- The scan after the first `k` events of a batch. -/
def HistoryScan.after (scan : HistoryScan) (batch : EventBatch) (k : Nat) : HistoryScan where
  eventIds := scan.eventIds ∪ ((batch.events.take k).map (·.eventId)).toFinset
  seenCommits := if k = 0 then scan.seenCommits else insert batch.commitId scan.seenCommits
  operations :=
    if k = 0 then scan.operations
    else scan.operations.insert batch.operationId
      (batch.commitId, batch.operationFingerprint, batch.actor)
  currentCommit :=
    if k = 0 ∨ k = batch.events.length then none
    else some (batch.commitId, k, batch.events.length)

/-- What the scan of a batch needs of the scan before it. -/
structure HistoryScan.Fresh (scan : HistoryScan) (batch : EventBatch) : Prop where
  between : scan.currentCommit = none
  commit : batch.commitId ∉ scan.seenCommits
  operation : scan.operations.lookup batch.operationId = none
  eventIds : ∀ e ∈ batch.events, e.eventId ∉ scan.eventIds

variable {streamId : StreamId}

/-- The step: event `k` of a batch. -/
theorem scanEvent_after {scan : HistoryScan} {batch : EventBatch} {base k : Nat}
    (hd : DerivedIdentities streamId batch) (hf : scan.Fresh batch)
    (hv : base + batch.events.length < 2 ^ 64) (hk : k < batch.events.length) :
    scanEvent streamId (base + k) (scan.after batch k)
        (.fromNew streamId (base + 1 + k) batch k batch.events.length batch.events[k]) =
      .ok (scan.after batch (k + 1)) := by
  have hle : batch.events.length ≤ 100 := batch.events_le
  have hid : batch.events[k].eventId ∉ (scan.after batch k).eventIds := by
    simp only [HistoryScan.after, Finset.mem_union, List.mem_toFinset, not_or]
    refine ⟨hf.eventIds _ (List.getElem_mem hk), ?_⟩
    have hnodup := batch.ids_nodup
    rw [← List.take_append_drop k batch.events, List.map_append, List.nodup_append] at hnodup
    intro hmem
    have hdrop : batch.events[k] ∈ batch.events.drop k := by
      rw [List.drop_eq_getElem_cons hk]
      exact List.mem_cons_self
    exact hnodup.2.2 _ hmem _ (List.mem_map_of_mem hdrop) rfl
  have hcoord : ∃ seen, commitCoordinates (scan.after batch k)
      (.fromNew streamId (base + 1 + k) batch k batch.events.length batch.events[k]) =
        .ok ((k, batch.events.length), seen) ∧ seen = insert batch.commitId scan.seenCommits := by
    by_cases h0 : k = 0
    · subst h0
      refine ⟨_, ?_, rfl⟩
      simp [commitCoordinates, HistoryScan.after, RecordedEvent.fromNew, rejectIf, hf.commit]
    · have hne : k ≠ batch.events.length := by omega
      refine ⟨_, ?_, rfl⟩
      simp [commitCoordinates, HistoryScan.after, RecordedEvent.fromNew, h0, hne]
  obtain ⟨_, hcoord, rfl⟩ := hcoord
  have hop : ¬ ((scan.after batch k).operations.lookup batch.operationId).any
      (· ≠ (batch.commitId, batch.operationFingerprint, batch.actor)) := by
    by_cases h0 : k = 0 <;> simp [HistoryScan.after, h0, hf.operation, Finmap.lookup_insert]
  have hids : insert batch.events[k].eventId (scan.after batch k).eventIds =
      (scan.after batch (k + 1)).eventIds := by
    ext e
    simp only [HistoryScan.after, List.take_add_one, List.getElem?_eq_getElem hk,
      Option.toList_some, List.map_append, List.map_cons, List.map_nil, List.toFinset_append,
      List.toFinset_cons, List.toFinset_nil, Finset.mem_insert, Finset.mem_union,
      Finset.notMem_empty, or_false]
    tauto
  have hops : (scan.after batch k).operations.insert batch.operationId
      (batch.commitId, batch.operationFingerprint, batch.actor) =
      (scan.after batch (k + 1)).operations := by
    by_cases h0 : k = 0 <;> simp [HistoryScan.after, h0]
  simp only [scanEvent, bind_eq_ok, rejectIf_eq_ok, okOr_eq_ok, pure_eq_ok, checkedAdd_eq_some]
  refine ⟨(), by simp [RecordedEvent.fromNew], base + 1 + k, ⟨by omega, by omega⟩, (),
    by simp [RecordedEvent.fromNew], (), hid, _, hcoord, (), by simp [RecordedEvent.fromNew], (),
    by simpa [RecordedEvent.fromNew] using hd.commit, (),
    by simpa [RecordedEvent.fromNew] using hd.events k hk, k + 1, ?_, (), hop, ?_⟩
  · exact if_pos (show k + 1 < 2 ^ 32 by omega)
  · simp only [RecordedEvent.fromNew, hids, hops]
    simp [HistoryScan.after]

/-- The run over a batch, from event `k` on. -/
theorem scanHistory_after {scan : HistoryScan} {batch : EventBatch} {base : Nat}
    (hd : DerivedIdentities streamId batch) (hf : scan.Fresh batch)
    (hv : base + batch.events.length < 2 ^ 64) (k : Nat) (hk : k ≤ batch.events.length) :
    scanHistory streamId (base + k) (scan.after batch k)
        ((RecordedEvent.ofBatch streamId base batch).drop k) =
      .ok (scan.after batch batch.events.length) := by
  -- Induction on the number of events that are left.
  obtain ⟨left, hleft⟩ : ∃ left, left = batch.events.length - k := ⟨_, rfl⟩
  induction left generalizing k with
  | zero =>
    have : k = batch.events.length := by omega
    subst this
    rw [List.drop_of_length_le (by simp)]
    rfl
  | succ left ih =>
    have hlt : k < batch.events.length := by omega
    rw [List.drop_eq_getElem_cons (by simpa using hlt)]
    have hstep := scanEvent_after hd hf hv hlt
    simp only [RecordedEvent.ofBatch, List.getElem_mapIdx, scanHistory, hstep, ok_bind]
    exact ih (k + 1) hlt (by omega)

theorem scanHistory_ofBatch {scan : HistoryScan} {batch : EventBatch} {base : Nat}
    (hd : DerivedIdentities streamId batch) (hf : scan.Fresh batch)
    (hv : base + batch.events.length < 2 ^ 64) :
    scanHistory streamId base scan (RecordedEvent.ofBatch streamId base batch) =
      .ok (scan.after batch batch.events.length) := by
  have h := scanHistory_after hd hf hv 0 (by omega)
  have hstart : scan.after batch 0 = scan := by
    have hnone := hf.between
    cases scan
    simp only at hnone
    simp [HistoryScan.after, hnone]
  simpa [hstart] using h

omit [Crates] in
/-- A batch keeps the scan fresh for the batches that share no identity with it. -/
theorem HistoryScan.Fresh.after {scan : HistoryScan} {batch other : EventBatch}
    (hf : scan.Fresh other) (hcommit : other.commitId ≠ batch.commitId)
    (hop : other.operationId ≠ batch.operationId)
    (hids : ∀ e ∈ other.events, e.eventId ∉ batch.events.map (·.eventId)) :
    (scan.after batch batch.events.length).Fresh other where
  between := by simp [HistoryScan.after]
  commit := by
    have : batch.events.length ≠ 0 := by simpa using batch.events_ne
    simp [HistoryScan.after, this, hcommit, hf.commit]
  operation := by
    have : batch.events.length ≠ 0 := by simpa using batch.events_ne
    simp [HistoryScan.after, this, Finmap.lookup_insert_of_ne _ hop, hf.operation]
  eventIds := by
    intro e he
    simp only [HistoryScan.after, List.take_length, Finset.mem_union, List.mem_toFinset, not_or]
    exact ⟨hf.eventIds e he, hids e he⟩

/-- The run over a sequence of batches. -/
theorem scanHistory_journal {scan : HistoryScan} {base : Nat} {batches : List EventBatch}
    (hj : Journal streamId batches) (hbetween : scan.currentCommit = none)
    (hf : ∀ b ∈ batches, scan.Fresh b)
    (hv : base + (batches.map (·.events.length)).sum < 2 ^ 64) :
    ∃ scan', scanHistory streamId base scan (journalEvents streamId base batches) = .ok scan' ∧
      scan'.currentCommit = none := by
  induction batches generalizing base scan with
  | nil => exact ⟨scan, rfl, hbetween⟩
  | cons b bs ih =>
    simp only [List.map_cons, List.sum_cons] at hv
    obtain ⟨hcs, hops, hids⟩ := And.intro (List.nodup_cons.mp hj.commits)
      (And.intro (List.nodup_cons.mp hj.operations) (List.nodup_append.mp hj.eventIds))
    have hrest : Journal streamId bs :=
      ⟨fun b' hb' => hj.derived b' (by simp [hb']), hops.2, hcs.2, hids.2.1, by omega⟩
    have hfresh : ∀ b' ∈ bs, (scan.after b b.events.length).Fresh b' := by
      intro b' hb'
      refine (hf b' (by simp [hb'])).after ?_ ?_ ?_
      · exact fun h => hcs.1 (List.mem_map.mpr ⟨b', hb', h⟩)
      · exact fun h => hops.1 (List.mem_map.mpr ⟨b', hb', h⟩)
      · intro e he hmem
        exact hids.2.2 _ hmem _ (List.mem_flatMap.mpr ⟨b', hb', List.mem_map_of_mem he⟩) rfl
    have hroom : base + b.events.length + (bs.map (·.events.length)).sum < 2 ^ 64 := by omega
    obtain ⟨scan', hscan, hnone⟩ := ih hrest (by simp [HistoryScan.after]) hfresh hroom
    refine ⟨scan', ?_, hnone⟩
    rw [journalEvents, scanHistory_append,
      scanHistory_ofBatch (hj.derived b (by simp)) (hf b (by simp)) (by omega), ok_bind]
    simpa using hscan

/-- A stream of whole commits passes the check. -/
theorem validateHistory_journal {batches : List EventBatch} (hj : Journal streamId batches) :
    validateHistory streamId (journalEvents streamId 0 batches) = .ok () := by
  have hfresh : ∀ b ∈ batches, HistoryScan.start.Fresh b := fun b _ =>
    ⟨rfl, by simp [HistoryScan.start], by simp [HistoryScan.start], by simp [HistoryScan.start]⟩
  have hv : 0 + (batches.map (·.events.length)).sum < 2 ^ 64 := by simpa using hj.versions
  obtain ⟨scan, hscan, hnone⟩ := scanHistory_journal hj rfl hfresh hv
  simp [validateHistory, hscan, hnone, rejectIf]

end Scan

end Rostfrei
