import Rostfrei.Core.History
import Rostfrei.Concrete

/-!
# Histories as sequences of commits

A declarative grammar for the events of a stream: a concatenation of complete commits
(`HistoryOf`). `validateHistory_iff_commits` says that the scan of `validateHistory` accepts exactly
the lists of this grammar.

The state of the scan is a function of the events it has accepted (`HistoryScan.of`), so the scan
accepts a list if every event of it follows the events before it (`Follows`). The rest of the proof
relates `Follows` to the grammar: forwards with the complete commits so far and the first events of
the commit that is open, backwards with the place of an event within its commit.
-/

namespace Rostfrei

open Lib

/-- What the constructors of a recorded event guarantee. -/
structure RecordedEvent.Built (e : RecordedEvent) : Prop where
  version_ne : e.streamVersion ≠ 0
  version_lt : e.streamVersion < 2 ^ 64
  count_le : e.commitEventCount ≤ maxEventsPerBatch
  ordinal_lt : e.commitEventOrdinal < e.commitEventCount
  eventType_valid : validateEventType e.eventType = .ok ()
  schemaVersion_ne : e.schemaVersion ≠ 0
  payload_le : e.payload.length ≤ maxEventPayloadLen

/-- `new_in_commit` builds such an event; the version is a `u64`. -/
theorem RecordedEvent.built_of_newInCommit {streamId : StreamId} {version : Nat} {eventId : EventId}
    {commitId : CommitId} {operationId : OperationId} {fingerprint : ContentFingerprint}
    {ordinal count : Nat} {eventType : String} {schemaVersion : UInt32} {payload : Bytes}
    {e : RecordedEvent} (hv : version < 2 ^ 64)
    (h : newInCommit streamId version eventId commitId operationId fingerprint ordinal count
      eventType schemaVersion payload = .ok e) : e.Built := by
  simp only [newInCommit, bind_unit_eq_ok, rejectIf_eq_ok, pure_eq_ok, not_or] at h
  obtain ⟨hne, ⟨-, hcount, hordinal⟩, htype, hschema, hpayload, rfl⟩ := h
  exact ⟨hne, hv, by simpa using hcount, by simpa using hordinal, htype, hschema,
    by simpa using hpayload⟩

/-- The events of a batch are such events. -/
theorem RecordedEvent.built_of_mem_ofBatch {streamId : StreamId} {base : Nat} {batch : EventBatch}
    (hv : base + batch.events.length < 2 ^ 64) :
    ∀ e ∈ ofBatch streamId base batch, e.Built := by
  intro e he
  obtain ⟨i, hi, rfl⟩ := List.mem_iff_getElem.mp he
  rw [length_ofBatch] at hi
  simp only [ofBatch, List.getElem_mapIdx]
  refine ⟨?_, ?_, batch.events_le, hi, batch.events[i].eventType_valid,
    batch.events[i].schemaVersion_ne, batch.events[i].payload_le⟩
  · show base + 1 + i ≠ 0
    omega
  · show base + 1 + i < 2 ^ 64
    omega

/-! ## The grammar -/

section Grammar

variable [Crates]

/-- The first events of a commit of `count` events of a stream. -/
structure CommitPart (shares : RecordedEvent → RecordedEvent → Prop) (streamId : StreamId)
    (count : Nat) (events : List RecordedEvent) : Prop where
  stream : ∀ e ∈ events, e.streamId = streamId
  operation : ∀ e ∈ events, ∀ e' ∈ events, e.operationId = e'.operationId
  shares : ∀ e ∈ events, ∀ e' ∈ events, shares e e'
  size : ∀ e ∈ events, e.commitEventCount = count
  ordinals : events.map (·.commitEventOrdinal) = List.range events.length
  commitId : ∀ e ∈ events, e.commitId = deriveCommitId streamId e.operationId
  eventIds : ∀ e ∈ events, e.eventId = deriveEventId e.commitId e.commitEventOrdinal

/-- All the events of a commit: they share stream, operation, commit, size and what `shares` says,
carry the ordinals from 0 on in order, and their identities are derived. -/
structure CompleteCommit (shares : RecordedEvent → RecordedEvent → Prop) (streamId : StreamId)
    (events : List RecordedEvent) : Prop extends
    CommitPart shares streamId events.length events where
  ne : events ≠ []

/-- The operation and the commit of an event are not those of the other one. -/
def OtherCommit (e e' : RecordedEvent) : Prop :=
  e.operationId ≠ e'.operationId ∧ e.commitId ≠ e'.commitId

/-- A history is a concatenation of complete commits with distinct operations and commit
identities, and versions from 1 on without a gap. -/
structure HistoryOf (shares : RecordedEvent → RecordedEvent → Prop) (streamId : StreamId)
    (commits : List (List RecordedEvent)) (history : List RecordedEvent) : Prop where
  concat : commits.flatten = history
  complete : ∀ c ∈ commits, CompleteCommit shares streamId c
  distinct : commits.Pairwise fun c c' => ∀ e ∈ c, ∀ e' ∈ c', OtherCommit e e'
  versions : history.map (·.streamVersion) = List.range' 1 history.length

/-- What the scan compares of two events of one operation, besides the commit. -/
def SameDecision (e e' : RecordedEvent) : Prop :=
  e.operationFingerprint = e'.operationFingerprint ∧ e.actor = e'.actor

end Grammar

/-! ## The scan after the events it accepted -/

/-- What the scan remembers of the operation of an event. -/
def RecordedEvent.operationIdentity (e : RecordedEvent) :
    CommitId × ContentFingerprint × Option ActorRef :=
  (e.commitId, e.operationFingerprint, e.actor)

/-- The operations of the events. -/
def operationsOf (events : List RecordedEvent) :
    Map OperationId (CommitId × ContentFingerprint × Option ActorRef) :=
  events.foldl (fun m e => m.insert e.operationId e.operationIdentity) ∅

/-- The commit that the events end inside of, with its next ordinal and its size. -/
def openCommit (events : List RecordedEvent) : Option (CommitId × Nat × Nat) :=
  events.getLast?.bind fun e =>
    if e.commitEventOrdinal + 1 = e.commitEventCount then none
    else some (e.commitId, e.commitEventOrdinal + 1, e.commitEventCount)

/-- The scan after these events. -/
def HistoryScan.of (events : List RecordedEvent) : HistoryScan where
  eventIds := (events.map (·.eventId)).toFinset
  seenCommits := (events.map (·.commitId)).toFinset
  operations := operationsOf events
  currentCommit := openCommit events

@[simp] theorem operationsOf_snoc (events : List RecordedEvent) (e : RecordedEvent) :
    operationsOf (events ++ [e]) =
      (operationsOf events).insert e.operationId e.operationIdentity := by
  simp [operationsOf]

@[simp] theorem openCommit_nil : openCommit [] = none := rfl

@[simp] theorem openCommit_snoc (events : List RecordedEvent) (e : RecordedEvent) :
    openCommit (events ++ [e]) =
      if e.commitEventOrdinal + 1 = e.commitEventCount then none
      else some (e.commitId, e.commitEventOrdinal + 1, e.commitEventCount) := by
  simp [openCommit]

theorem HistoryScan.of_snoc (events : List RecordedEvent) (e : RecordedEvent) :
    HistoryScan.of (events ++ [e]) =
      { eventIds := insert e.eventId (HistoryScan.of events).eventIds
        seenCommits := ((events ++ [e]).map (·.commitId)).toFinset
        operations := (HistoryScan.of events).operations.insert e.operationId e.operationIdentity
        currentCommit :=
          if e.commitEventOrdinal + 1 = e.commitEventCount then none
          else some (e.commitId, e.commitEventOrdinal + 1, e.commitEventCount) } := by
  have hids : ((events ++ [e]).map (·.eventId)).toFinset =
      insert e.eventId (events.map (·.eventId)).toFinset := by
    ext x
    simp
  simp only [HistoryScan.of, operationsOf_snoc, openCommit_snoc, hids]

/-- An operation that is remembered is one of an event. -/
theorem exists_of_lookup_operationsOf {events : List RecordedEvent} {op : OperationId}
    {x : CommitId × ContentFingerprint × Option ActorRef}
    (h : (operationsOf events).lookup op = some x) :
    ∃ e ∈ events, e.operationId = op ∧ e.operationIdentity = x := by
  induction events using List.reverseRecOn with
  | nil => simp [operationsOf] at h
  | append_singleton events e ih =>
    rw [operationsOf_snoc] at h
    by_cases hop : op = e.operationId
    · subst hop
      rw [Finmap.lookup_insert] at h
      exact ⟨e, by simp, rfl, Option.some.inj h⟩
    · rw [Finmap.lookup_insert_of_ne _ hop] at h
      obtain ⟨e', he', h'⟩ := ih h
      exact ⟨e', by simp [he'], h'⟩

/-- The operation of every event is remembered. -/
theorem lookup_operationsOf_of_mem {events : List RecordedEvent} {e : RecordedEvent}
    (he : e ∈ events) : ∃ x, (operationsOf events).lookup e.operationId = some x := by
  induction events using List.reverseRecOn with
  | nil => simp at he
  | append_singleton events e' ih =>
    rw [operationsOf_snoc]
    by_cases hop : e.operationId = e'.operationId
    · exact ⟨_, by rw [hop, Finmap.lookup_insert]⟩
    · rw [Finmap.lookup_insert_of_ne _ hop]
      rcases List.mem_append.mp he with he | he
      · exact ih he
      · exact absurd (congrArg RecordedEvent.operationId (List.mem_singleton.mp he)) hop

section Follows

variable [Crates] {streamId : StreamId}

/-- The event takes its place after the events: inside the commit that is open, or as the first of
a new one. -/
def TakesPlace (events : List RecordedEvent) (e : RecordedEvent) : Prop :=
  match openCommit events with
  | some (commitId, ordinal, count) =>
    commitId = e.commitId ∧ e.commitEventOrdinal = ordinal ∧ e.commitEventCount = count
  | none => e.commitEventOrdinal = 0 ∧ ∀ e' ∈ events, e'.commitId ≠ e.commitId

/-- The scan accepts the event after the events. -/
structure Follows (streamId : StreamId) (events : List RecordedEvent) (e : RecordedEvent) :
    Prop where
  stream : e.streamId = streamId
  version : e.streamVersion = events.length + 1
  version_lt : events.length + 1 < 2 ^ 64
  eventId_new : ∀ e' ∈ events, e'.eventId ≠ e.eventId
  place : TakesPlace events e
  commitId : e.commitId = deriveCommitId streamId e.operationId
  eventId : e.eventId = deriveEventId e.commitId e.commitEventOrdinal
  ordinal_lt : e.commitEventOrdinal + 1 < 2 ^ 32
  operation : ∀ x, (operationsOf events).lookup e.operationId = some x → x = e.operationIdentity

omit [Crates] in
/-- The coordinates that the scan asks for are those of an event that takes its place. -/
theorem commitCoordinates_of {events : List RecordedEvent} {e : RecordedEvent} {ordinal count : Nat}
    {seen : Finset CommitId} :
    commitCoordinates (.of events) e = .ok ((ordinal, count), seen) ∧
        ¬ (e.commitEventOrdinal ≠ ordinal ∨ e.commitEventCount ≠ count) ↔
      TakesPlace events e ∧ ordinal = e.commitEventOrdinal ∧ count = e.commitEventCount ∧
        seen = ((events ++ [e]).map (·.commitId)).toFinset := by
  have hseen : ((events ++ [e]).map (·.commitId)).toFinset =
      insert e.commitId (events.map (·.commitId)).toFinset := by
    ext c
    simp
  unfold commitCoordinates TakesPlace
  rcases hopen : openCommit events with _ | ⟨commitId, o, c⟩
  · have hcurrent : (HistoryScan.of events).currentCommit = none := hopen
    have hnew : e.commitId ∉ (HistoryScan.of events).seenCommits ↔
        ∀ e' ∈ events, e'.commitId ≠ e.commitId := by
      simp [HistoryScan.of]
    simp only [hcurrent, bind_unit_eq_ok, rejectIf_eq_ok, pure_eq_ok, Prod.mk.injEq, hnew, not_or,
      not_not, hseen]
    constructor
    · rintro ⟨⟨h0, hn, ⟨rfl, rfl⟩, rfl⟩, -, -⟩
      exact ⟨⟨h0, hn⟩, h0.symm, rfl, rfl⟩
    · rintro ⟨⟨h0, hn⟩, rfl, rfl, rfl⟩
      exact ⟨⟨h0, hn, ⟨h0.symm, rfl⟩, rfl⟩, rfl, rfl⟩
  · have hcurrent : (HistoryScan.of events).currentCommit = some (commitId, o, c) := hopen
    have hmem : commitId ∈ (events.map (·.commitId)).toFinset := by
      unfold openCommit at hopen
      obtain ⟨last, hlast, hif⟩ := Option.bind_eq_some_iff.mp hopen
      split at hif
      · cases hif
      · cases hif
        simpa using ⟨last, List.mem_of_getLast? hlast, rfl⟩
    simp only [hcurrent, not_or, not_not, hseen]
    split
    · next heq =>
      subst heq
      rw [Finset.insert_eq_of_mem hmem]
      simp only [Except.ok.injEq, Prod.mk.injEq, true_and]
      constructor
      · rintro ⟨⟨⟨rfl, rfl⟩, rfl⟩, h₁, h₂⟩
        exact ⟨⟨h₁, h₂⟩, h₁.symm, h₂.symm, rfl⟩
      · rintro ⟨⟨h₁, h₂⟩, rfl, rfl, rfl⟩
        exact ⟨⟨⟨h₁.symm, h₂.symm⟩, rfl⟩, rfl, rfl⟩
    · next hne => simp [hne]

/-- The step. -/
theorem scanEvent_of {events : List RecordedEvent} {e : RecordedEvent} {scan : HistoryScan} :
    scanEvent streamId events.length (.of events) e = .ok scan ↔
      Follows streamId events e ∧ scan = .of (events ++ [e]) := by
  have hany : ¬ (((HistoryScan.of events).operations.lookup e.operationId).any
      (· ≠ e.operationIdentity) = true) ↔
      ∀ x, (operationsOf events).lookup e.operationId = some x → x = e.operationIdentity := by
    show ¬ (((operationsOf events).lookup e.operationId).any _ = true) ↔ _
    cases (operationsOf events).lookup e.operationId <;> simp
  have hnew : e.eventId ∉ (HistoryScan.of events).eventIds ↔
      ∀ e' ∈ events, e'.eventId ≠ e.eventId := by
    simp [HistoryScan.of]
  simp only [scanEvent, rejectIf_eq_ok, bind_eq_ok, okOr_eq_ok, pure_eq_ok,
    checkedAdd_eq_some, Prod.exists]
  constructor
  · rintro ⟨-, hstream, _, ⟨hlt, rfl⟩, -, hversion, -, hid, ordinal, count, seen, hcoord, -, hagree,
      -, hcommit, -, hevent, next, hnext, -, hop, rfl⟩
    obtain ⟨hplace, rfl, rfl, rfl⟩ := commitCoordinates_of.mp ⟨hcoord, hagree⟩
    rw [Option.ite_none_right_eq_some] at hnext
    obtain ⟨hordinal, hnext⟩ := hnext
    cases hnext
    refine ⟨⟨not_not.mp hstream, not_not.mp hversion, hlt, hnew.mp hid, hplace, not_not.mp hcommit,
      not_not.mp hevent, hordinal, hany.mp hop⟩, ?_⟩
    rw [HistoryScan.of_snoc]
    rfl
  · rintro ⟨h, rfl⟩
    obtain ⟨hcoord, hagree⟩ := commitCoordinates_of.mpr ⟨h.place, rfl, rfl, rfl⟩
    refine ⟨(), not_not.mpr h.stream, _, ⟨h.version_lt, rfl⟩, (), not_not.mpr h.version, (),
      hnew.mpr h.eventId_new, _, _, _, hcoord, (), hagree, (), not_not.mpr h.commitId, (),
      not_not.mpr h.eventId, _, if_pos h.ordinal_lt, (), hany.mpr h.operation, ?_⟩
    rw [HistoryScan.of_snoc]
    rfl

/-- The run: every event follows those before it. -/
theorem scanHistory_of {events history : List RecordedEvent} {scan : HistoryScan} :
    scanHistory streamId events.length (.of events) history = .ok scan ↔
      (∀ before e after, history = before ++ e :: after → Follows streamId (events ++ before) e) ∧
        scan = .of (events ++ history) := by
  induction history generalizing events with
  | nil => simp [scanHistory, eq_comm]
  | cons e rest ih =>
    have hlen : events.length + 1 = (events ++ [e]).length := by simp
    simp only [scanHistory, bind_eq_ok, scanEvent_of]
    constructor
    · rintro ⟨_, ⟨hfirst, rfl⟩, hrest⟩
      rw [hlen] at hrest
      obtain ⟨hall, rfl⟩ := ih.mp hrest
      refine ⟨fun before e' after heq => ?_, by simp⟩
      cases before with
      | nil =>
        obtain ⟨rfl, -⟩ := List.cons.inj heq
        simpa using hfirst
      | cons b before =>
        obtain ⟨rfl, hrest⟩ := List.cons.inj heq
        simpa using hall before e' after hrest
    · rintro ⟨hall, rfl⟩
      refine ⟨_, ⟨by simpa using hall [] e rest rfl, rfl⟩, ?_⟩
      rw [hlen]
      refine ih.mpr ⟨fun before e' after heq => ?_, by simp⟩
      simpa using hall (e :: before) e' after (by rw [heq]; rfl)

/-- The scan accepts a history whose events follow each other and that ends between commits. -/
theorem validateHistory_iff_follows {history : List RecordedEvent} :
    validateHistory streamId history = .ok () ↔
      (∀ before e after, history = before ++ e :: after → Follows streamId before e) ∧
        openCommit history = none := by
  have hstart : HistoryScan.start = .of [] := rfl
  have hrun := @scanHistory_of _ streamId [] history
  simp only [List.nil_append, List.length_nil] at hrun
  simp only [validateHistory, bind_eq_ok, rejectIf_eq_ok, hstart, hrun]
  constructor
  · rintro ⟨_, ⟨hall, rfl⟩, hnone⟩
    exact ⟨hall, by simpa [HistoryScan.of] using hnone⟩
  · rintro ⟨hall, hnone⟩
    exact ⟨_, ⟨hall, rfl⟩, by simp [HistoryScan.of, hnone]⟩

/-! ## Forwards: from the scan to the grammar -/

/-- The last event of the events of a commit has the last ordinal. -/
theorem openCommit_append_part {shares : RecordedEvent → RecordedEvent → Prop} {count : Nat} (events : List RecordedEvent) {part : List RecordedEvent}
    (h : CommitPart shares streamId count part) (hne : part ≠ []) :
    ∃ e ∈ part, openCommit (events ++ part) =
      if part.length = count then none else some (e.commitId, part.length, count) := by
  obtain ⟨init, last, rfl⟩ := (List.eq_nil_or_concat' part).resolve_left hne
  have hordinal : last.commitEventOrdinal = init.length := by
    have := congrArg List.getLast? h.ordinals
    simpa [List.range_succ] using this
  refine ⟨last, by simp, ?_⟩
  rw [← List.append_assoc, openCommit_snoc, hordinal, h.size last (by simp)]
  simp

/-- The events between commits. -/
theorem openCommit_flatten {shares : RecordedEvent → RecordedEvent → Prop}
    {commits : List (List RecordedEvent)}
    (h : ∀ c ∈ commits, CompleteCommit shares streamId c) : openCommit commits.flatten = none := by
  rcases List.eq_nil_or_concat' commits with rfl | ⟨init, last, rfl⟩
  · rfl
  · have hlast := h last (by simp)
    obtain ⟨e, -, hopen⟩ := openCommit_append_part init.flatten hlast.toCommitPart hlast.ne
    rw [if_pos rfl] at hopen
    simpa using hopen

/-- The events so far: complete commits, and the first events of one that is open. -/
structure ScanParts (streamId : StreamId) (events : List RecordedEvent)
    (commits : List (List RecordedEvent)) (count : Nat) (pending : List RecordedEvent) :
    Prop where
  concat : commits.flatten ++ pending = events
  complete : ∀ c ∈ commits, CompleteCommit SameDecision streamId c
  part : CommitPart SameDecision streamId count pending
  lt : pending ≠ [] → pending.length < count
  distinct : (commits ++ [pending]).Pairwise fun c c' => ∀ e ∈ c, ∀ e' ∈ c', OtherCommit e e'

omit [Crates] in
theorem OtherCommit.of_same {e x y : RecordedEvent} (h : OtherCommit e x)
    (hop : x.operationId = y.operationId) (hcommit : x.commitId = y.commitId) :
    OtherCommit e y := by
  rw [OtherCommit, ← hop, ← hcommit]
  exact h

/-- An event that agrees with the first events of a commit is the next one. -/
theorem CommitPart.snoc {count : Nat} {pending : List RecordedEvent} {e : RecordedEvent}
    (h : CommitPart SameDecision streamId count pending)
    (hcount : pending ≠ [] → e.commitEventCount = count)
    (hstream : e.streamId = streamId) (hop : ∀ x ∈ pending, x.operationId = e.operationId)
    (hshares : ∀ x ∈ pending, SameDecision x e) (hordinal : e.commitEventOrdinal = pending.length)
    (hcommit : e.commitId = deriveCommitId streamId e.operationId)
    (hid : e.eventId = deriveEventId e.commitId e.commitEventOrdinal) :
    CommitPart SameDecision streamId e.commitEventCount (pending ++ [e]) where
  stream := by simpa [or_imp, forall_and] using ⟨h.stream, hstream⟩
  operation := by
    intro x hx y hy
    have hsame : ∀ z ∈ pending ++ [e], z.operationId = e.operationId := by
      simpa [or_imp, forall_and] using hop
    rw [hsame x hx, hsame y hy]
  shares := by
    intro x hx y hy
    have hsame : ∀ z ∈ pending ++ [e], SameDecision z e := by
      simpa [or_imp, forall_and] using ⟨hshares, ⟨rfl, rfl⟩⟩
    exact ⟨(hsame x hx).1.trans (hsame y hy).1.symm, (hsame x hx).2.trans (hsame y hy).2.symm⟩
  size := by
    intro x hx
    rcases List.mem_append.mp hx with hx | hx
    · rw [h.size x hx, hcount (List.ne_nil_of_mem hx)]
    · rw [List.mem_singleton.mp hx]
  ordinals := by
    simp [h.ordinals, hordinal, List.range_succ]
  commitId := by simpa [or_imp, forall_and] using ⟨h.commitId, hcommit⟩
  eventIds := by simpa [or_imp, forall_and] using ⟨h.eventIds, hid⟩

/-- The next event of the open commit closes it if it is the last one. -/
theorem ScanParts.close {events pending : List RecordedEvent} {e : RecordedEvent}
    {commits : List (List RecordedEvent)} (hb : pending.length < e.commitEventCount)
    (hconcat : commits.flatten ++ pending = events)
    (hcomplete : ∀ c ∈ commits, CompleteCommit SameDecision streamId c)
    (hpart : CommitPart SameDecision streamId e.commitEventCount (pending ++ [e]))
    (hdistinct : (commits ++ [pending ++ [e]]).Pairwise fun c c' =>
      ∀ e ∈ c, ∀ e' ∈ c', OtherCommit e e') :
    ∃ commits' count' pending', ScanParts streamId (events ++ [e]) commits' count' pending' := by
  by_cases hlast : (pending ++ [e]).length = e.commitEventCount
  · have hwhole : CompleteCommit SameDecision streamId (pending ++ [e]) :=
      ⟨by rw [hlast]; exact hpart, by simp⟩
    refine ⟨commits ++ [pending ++ [e]], 0, [], ⟨by simp [← hconcat], ?_,
      ⟨by simp, by simp, by simp, by simp, by simp, by simp, by simp⟩, by simp, ?_⟩⟩
    · rw [List.forall_mem_append, List.forall_mem_singleton]
      exact ⟨hcomplete, hwhole⟩
    · rw [List.pairwise_append]
      exact ⟨hdistinct, List.pairwise_singleton _ _, by simp⟩
  · refine ⟨commits, _, pending ++ [e], ⟨by simp [← hconcat], hcomplete, hpart, fun _ => ?_,
      hdistinct⟩⟩
    rw [List.length_append, List.length_singleton] at hlast ⊢
    omega

/-- The step: an event that follows is the first of a new commit or the next of the open one. -/
theorem ScanParts.snoc {events : List RecordedEvent} {commits : List (List RecordedEvent)}
    {count : Nat} {pending : List RecordedEvent} {e : RecordedEvent}
    (h : ScanParts streamId events commits count pending) (hf : Follows streamId events e)
    (hb : e.commitEventOrdinal < e.commitEventCount)
    (hinj : ∀ x ∈ events, deriveCommitId streamId x.operationId =
      deriveCommitId streamId e.operationId → x.operationId = e.operationId) :
    ∃ commits' count' pending', ScanParts streamId (events ++ [e]) commits' count' pending' := by
  have hcommits : ∀ c ∈ commits, ∀ x ∈ c, x ∈ events := fun c hc x hx => by
    rw [← h.concat]
    exact List.mem_append_left _ (List.mem_flatten.mpr ⟨c, hc, hx⟩)
  have hplace := hf.place
  unfold TakesPlace at hplace
  by_cases hne : pending = []
  · subst hne
    have hopen : openCommit events = none := by
      have := openCommit_flatten h.complete
      rwa [← h.concat, List.append_nil]
    rw [hopen] at hplace
    obtain ⟨hzero, hnew⟩ := hplace
    have hother : ∀ c ∈ commits, ∀ x ∈ c, OtherCommit x e := fun c hc x hx => by
      refine ⟨fun hop => hnew x (hcommits c hc x hx) ?_, hnew x (hcommits c hc x hx)⟩
      rw [(h.complete c hc).commitId x hx, hop, hf.commitId]
    refine ScanParts.close (by rw [List.length_nil]; omega) h.concat h.complete
      (h.part.snoc (fun hne => absurd rfl hne) hf.stream (by simp) (by simp) (by simpa using hzero)
        hf.commitId hf.eventId) ?_
    have hdistinct := (List.pairwise_append.mp h.distinct).1
    rw [List.pairwise_append]
    exact ⟨hdistinct, List.pairwise_singleton _ _, by simpa using hother⟩
  · obtain ⟨x, hx, hopen⟩ := openCommit_append_part commits.flatten h.part hne
    rw [h.concat, if_neg (h.lt hne).ne] at hopen
    rw [hopen] at hplace
    obtain ⟨hcommit, hordinal, hcount⟩ := hplace
    have hpending : ∀ y ∈ pending, y ∈ events := fun y hy => by
      rw [← h.concat]
      exact List.mem_append_right _ hy
    have hxe : x.operationId = e.operationId := by
      refine hinj x (hpending x hx) ?_
      rw [← h.part.commitId x hx, hcommit, hf.commitId]
    have hop : ∀ y ∈ pending, y.operationId = e.operationId := fun y hy =>
      (h.part.operation y hy x hx).trans hxe
    have hdistinct := List.pairwise_append.mp h.distinct
    have hother : ∀ c ∈ commits, ∀ y ∈ c, ∀ z ∈ pending, OtherCommit y z := fun c hc y hy z hz =>
      hdistinct.2.2 c hc pending (by simp) y hy z hz
    -- The remembered identity of the operation is that of an event of the open commit.
    have hshares : ∀ y ∈ pending, SameDecision y e := by
      intro y hy
      obtain ⟨identity, hlookup⟩ := lookup_operationsOf_of_mem (hpending y hy)
      obtain ⟨z, hz, hzop, hzid⟩ := exists_of_lookup_operationsOf hlookup
      rw [hop y hy] at hlookup
      have hidentity : z.operationIdentity = e.operationIdentity := hzid.trans (hf.operation _ hlookup)
      have hzpending : z ∈ pending := by
        rw [← h.concat] at hz
        refine (List.mem_append.mp hz).resolve_left fun hz => ?_
        obtain ⟨c, hc, hzc⟩ := List.mem_flatten.mp hz
        exact (hother c hc z hzc y hy).1 hzop
      obtain ⟨hfingerprint, hactor⟩ := h.part.shares y hy z hzpending
      simp only [RecordedEvent.operationIdentity, Prod.mk.injEq] at hidentity
      exact ⟨hfingerprint.trans hidentity.2.1, hactor.trans hidentity.2.2⟩
    refine ScanParts.close (by omega) h.concat h.complete
      (h.part.snoc (fun _ => hcount) hf.stream hop hshares hordinal hf.commitId hf.eventId) ?_
    rw [List.pairwise_append]
    refine ⟨hdistinct.1, List.pairwise_singleton _ _, ?_⟩
    intro c hc c' hc' y hy z hz
    rw [List.mem_singleton.mp hc'] at hz
    rcases List.mem_append.mp hz with hz | hz
    · exact hother c hc y hy z hz
    · rw [List.mem_singleton.mp hz]
      exact (hother c hc y hy x hx).of_same hxe hcommit

/-- The run. -/
theorem exists_scanParts {history : List RecordedEvent}
    (hall : ∀ before e after, history = before ++ e :: after → Follows streamId before e)
    (hb : ∀ e ∈ history, e.Built)
    (hinj : ∀ x ∈ history, ∀ y ∈ history, deriveCommitId streamId x.operationId =
      deriveCommitId streamId y.operationId → x.operationId = y.operationId) :
    ∃ commits count pending, ScanParts streamId history commits count pending := by
  induction history using List.reverseRecOn with
  | nil =>
    exact ⟨[], 0, [], rfl, by simp, ⟨by simp, by simp, by simp, by simp, by simp, by simp, by simp⟩,
      by simp, List.pairwise_singleton _ _⟩
  | append_singleton history e ih =>
    obtain ⟨commits, count, pending, h⟩ := ih
      (fun before x after heq => hall before x (after ++ [e]) (by rw [heq]; simp))
      (fun x hx => hb x (by simp [hx])) (fun x hx y hy => hinj x (by simp [hx]) y (by simp [hy]))
    exact h.snoc (hall history e [] rfl) (hb e (by simp)).ordinal_lt
      fun x hx => hinj x (by simp [hx]) e (by simp)

/-- The versions of events that follow each other. -/
theorem versions_of_follows {history : List RecordedEvent}
    (hall : ∀ before e after, history = before ++ e :: after → Follows streamId before e) :
    history.map (·.streamVersion) = List.range' 1 history.length := by
  apply List.ext_getElem (by simp)
  intro i hi hi'
  rw [List.length_map] at hi
  have hsplit : history = history.take i ++ history[i] :: history.drop (i + 1) := by
    rw [← List.drop_eq_getElem_cons hi, List.take_append_drop]
  have hversion := (hall _ _ _ hsplit).version
  rw [List.length_take, Nat.min_eq_left hi.le] at hversion
  simp only [List.getElem_map, List.getElem_range', hversion]
  omega

/-- What the scan accepts is in the grammar. -/
theorem historyOf_of_validateHistory {history : List RecordedEvent} (hb : ∀ e ∈ history, e.Built)
    (hinj : ∀ x ∈ history, ∀ y ∈ history, deriveCommitId streamId x.operationId =
      deriveCommitId streamId y.operationId → x.operationId = y.operationId)
    (h : validateHistory streamId history = .ok ()) :
    ∃ commits, HistoryOf SameDecision streamId commits history := by
  obtain ⟨hall, hclosed⟩ := validateHistory_iff_follows.mp h
  obtain ⟨commits, count, pending, hparts⟩ := exists_scanParts hall hb hinj
  have hpending : pending = [] := by
    by_contra hne
    obtain ⟨x, -, hopen⟩ := openCommit_append_part commits.flatten hparts.part hne
    rw [hparts.concat, hclosed, if_neg (hparts.lt hne).ne] at hopen
    cases hopen
  subst hpending
  exact ⟨commits, by simpa using hparts.concat, hparts.complete,
    (List.pairwise_append.mp hparts.distinct).1, versions_of_follows hall⟩

/-! ## Backwards: from the grammar to the scan -/

/-- Event `k` of a complete commit follows the complete commits before it and its first `k`
events. -/
theorem HistoryOf.follows {commits : List (List RecordedEvent)} {history : List RecordedEvent}
    (h : HistoryOf SameDecision streamId commits history)
    (hb : ∀ e ∈ history, e.Built) (hids : (history.map (·.eventId)).Nodup)
    {earlier later : List (List RecordedEvent)} {first last : List RecordedEvent}
    {e : RecordedEvent} (hcommits : commits = earlier ++ (first ++ e :: last) :: later) :
    Follows streamId (earlier.flatten ++ first) e := by
  have hc := h.complete (first ++ e :: last) (by simp [hcommits])
  have hearlier : ∀ c ∈ earlier, CompleteCommit SameDecision streamId c := fun c hc =>
    h.complete c (by simp [hcommits, hc])
  have hhistory : history = (earlier.flatten ++ first) ++ e :: (last ++ later.flatten) := by
    rw [← h.concat, hcommits]
    simp
  have hbuilt := hb e (by simp [hhistory])
  have hversion : e.streamVersion = (earlier.flatten ++ first).length + 1 := by
    have hat := congrArg (·[(earlier.flatten ++ first).length]?) h.versions
    simp only [hhistory, List.getElem?_map] at hat
    rw [List.getElem?_append_right le_rfl, Nat.sub_self, List.getElem?_cons_zero,
      List.getElem?_range' (by simp), Option.map_some] at hat
    rw [Option.some.inj hat]
    omega
  have hordinal : e.commitEventOrdinal = first.length := by
    have hat := congrArg (·[first.length]?) hc.ordinals
    simp only [List.getElem?_map] at hat
    rw [List.getElem?_append_right le_rfl, Nat.sub_self, List.getElem?_cons_zero,
      List.getElem?_range (by simp), Option.map_some] at hat
    exact Option.some.inj hat
  have hcount := hc.size e (by simp)
  -- An event before this one is of an earlier commit, or an earlier one of this commit.
  have hother : ∀ x ∈ earlier.flatten, ∀ y ∈ first ++ e :: last, OtherCommit x y := by
    intro x hx y hy
    obtain ⟨c, hcmem, hxc⟩ := List.mem_flatten.mp hx
    have hpair := h.distinct
    rw [hcommits, List.pairwise_append] at hpair
    exact hpair.2.2 c hcmem _ List.mem_cons_self x hxc y hy
  refine ⟨hc.stream e (by simp), hversion, hversion ▸ hbuilt.version_lt, ?_, ?_,
    hc.commitId e (by simp), hc.eventIds e (by simp), ?_, ?_⟩
  · intro x hx heq
    rw [hhistory, List.map_append, List.nodup_append] at hids
    exact hids.2.2 _ (List.mem_map_of_mem hx) _ (List.mem_map_of_mem List.mem_cons_self) heq
  · unfold TakesPlace
    by_cases hfirst : first = []
    · subst hfirst
      rw [List.append_nil, openCommit_flatten hearlier]
      exact ⟨hordinal, fun x hx => (hother x hx e (by simp)).2⟩
    · have hpart : CommitPart SameDecision streamId (first ++ e :: last).length first :=
        ⟨fun x hx => hc.stream x (by simp [hx]),
          fun x hx y hy => hc.operation x (by simp [hx]) y (by simp [hy]),
          fun x hx y hy => hc.shares x (by simp [hx]) y (by simp [hy]),
          fun x hx => hc.size x (by simp [hx]), by
            have hall := congrArg (List.take first.length) hc.ordinals
            simpa [List.take_range] using hall,
          fun x hx => hc.commitId x (by simp [hx]), fun x hx => hc.eventIds x (by simp [hx])⟩
      obtain ⟨x, hx, hopen⟩ := openCommit_append_part earlier.flatten hpart hfirst
      rw [if_neg (by simp)] at hopen
      rw [hopen]
      refine ⟨?_, hordinal, hcount⟩
      rw [hc.commitId x (by simp [hx]), hc.commitId e (by simp),
        hc.operation x (by simp [hx]) e (by simp)]
  · have := hbuilt.ordinal_lt
    have hmax : maxEventsPerBatch = 100 := rfl
    have := hbuilt.count_le
    omega
  · intro identity hlookup
    obtain ⟨x, hx, hop, rfl⟩ := exists_of_lookup_operationsOf hlookup
    rcases List.mem_append.mp hx with hx | hx
    · exact absurd hop (hother x hx e (by simp)).1
    · obtain ⟨hfingerprint, hactor⟩ := hc.shares x (by simp [hx]) e (by simp)
      simp only [RecordedEvent.operationIdentity, hfingerprint, hactor, Prod.mk.injEq, and_true]
      rw [hc.commitId x (by simp [hx]), hc.commitId e (by simp), hop]

/-- What is in the grammar is accepted by the scan, if no event identity is there twice. -/
theorem HistoryOf.validateHistory {commits : List (List RecordedEvent)}
    {history : List RecordedEvent} (h : HistoryOf SameDecision streamId commits history)
    (hb : ∀ e ∈ history, e.Built) (hids : (history.map (·.eventId)).Nodup) :
    validateHistory streamId history = .ok () := by
  refine validateHistory_iff_follows.mpr ⟨fun before e after heq => ?_, ?_⟩
  · have hsplit := h.concat.trans heq
    rw [List.flatten_eq_append_iff] at hsplit
    rcases hsplit with ⟨earlier, rest, rfl, rfl, hrest⟩ |
      ⟨earlier, first, c, cs, later, hcommits, rfl, hrest⟩
    · obtain ⟨empty, last, later, rfl, hempty, -⟩ := List.flatten_eq_cons_iff.mp hrest.symm
      have hnil : empty = [] := by
        refine List.eq_nil_iff_forall_not_mem.mpr fun c hc => ?_
        exact (h.complete c (by simp [hc])).ne (hempty c hc)
      subst hnil
      have hcommits : earlier ++ ([] ++ (e :: last) :: later) =
          earlier ++ ([] ++ e :: last) :: later := rfl
      simpa using h.follows hb hids hcommits
    · obtain ⟨rfl, -⟩ := List.cons.inj hrest
      exact h.follows hb hids hcommits
  · rw [← h.concat]
    exact openCommit_flatten h.complete

/-! ## The check and the grammar -/

/-- What is hashed for the identities of a history. -/
def identityInputs (streamId : StreamId) (history : List RecordedEvent) : Set Bytes :=
  {input | ∃ e ∈ history, input = frames (commitIdParts streamId e.operationId) ∨
    input = frames (eventIdParts e.commitId e.commitEventOrdinal)}

/-- Without collisions, no event identity is there twice. -/
theorem HistoryOf.eventIds_nodup {shares : RecordedEvent → RecordedEvent → Prop}
    {commits : List (List RecordedEvent)} {history : List RecordedEvent}
    (h : HistoryOf shares streamId commits history) (hb : ∀ e ∈ history, e.Built)
    (hfree : CollisionFree (identityInputs streamId history)) :
    (history.map (·.eventId)).Nodup := by
  have hids : ∀ e ∈ history, e.eventId = deriveEventId e.commitId e.commitEventOrdinal := by
    intro e he
    rw [← h.concat] at he
    obtain ⟨c, hc, hec⟩ := List.mem_flatten.mp he
    exact (h.complete c hc).eventIds e hec
  have hsmall : ∀ e ∈ history, e.commitEventOrdinal < 2 ^ 32 := by
    intro e he
    have hlt := (hb e he).ordinal_lt
    have hle := (hb e he).count_le
    have hmax : maxEventsPerBatch = 100 := rfl
    omega
  have hinj : ∀ e ∈ history, ∀ e' ∈ history, e.eventId = e'.eventId →
      e.commitId = e'.commitId ∧ e.commitEventOrdinal = e'.commitEventOrdinal := by
    intro e he e' he' heq
    rw [hids e he, hids e' he'] at heq
    exact deriveEventId_inj hfree ⟨e, he, .inr rfl⟩ ⟨e', he', .inr rfl⟩ (hsmall e he) (hsmall e' he')
      heq
  have hmem : ∀ c ∈ commits, ∀ e ∈ c, e ∈ history := fun c hc e he => by
    rw [← h.concat]
    exact List.mem_flatten.mpr ⟨c, hc, he⟩
  rw [List.Nodup, List.pairwise_map, ← h.concat, List.pairwise_flatten]
  constructor
  · intro c hc
    have hordinals : (c.map (·.commitEventOrdinal)).Nodup := by
      rw [(h.complete c hc).ordinals]
      exact List.nodup_range
    rw [List.Nodup, List.pairwise_map] at hordinals
    refine hordinals.imp_of_mem fun he he' hne heq => hne ?_
    exact (hinj _ (hmem c hc _ he) _ (hmem c hc _ he') heq).2
  · refine h.distinct.imp_of_mem fun hc hc' hother e he e' he' heq => ?_
    exact (hother e he e' he').2 (hinj e (hmem _ hc e he) e' (hmem _ hc' e' he') heq).1

end Follows

namespace Sample

attribute [local instance] Crates.concrete

theorem event_built : event.Built :=
  ⟨by decide, by decide, by decide, by decide, opened.eventType_valid, by decide, by decide⟩

theorem event_collisionFree : CollisionFree (identityInputs stream [event]) := by
  have hne : sha256 (frames (commitIdParts stream operation)) ≠
      sha256 (frames (eventIdParts event.commitId 0)) := by decide +kernel
  rintro x ⟨e, he, hx⟩ y ⟨e', he', hy⟩ heq
  obtain rfl := List.mem_singleton.mp he
  obtain rfl := List.mem_singleton.mp he'
  rcases hx with rfl | rfl <;> rcases hy with rfl | rfl
  · rfl
  · exact absurd heq hne
  · exact absurd heq.symm hne
  · rfl

/-- Two events of one commit with different causes. -/
def twoCauses : List RecordedEvent :=
  [{ event with commitEventCount := 2 },
    { event with
      streamVersion := 2
      eventId := deriveEventId event.commitId 1
      commitEventOrdinal := 1
      commitEventCount := 2
      causationId := some ⟨"message-2", by decide +kernel⟩ }]

/-- The same correlation, causation and actor. -/
def SameTrace (e e' : RecordedEvent) : Prop :=
  e.correlationId = e'.correlationId ∧ e.causationId = e'.causationId ∧ e.actor = e'.actor

end Sample

end Rostfrei
