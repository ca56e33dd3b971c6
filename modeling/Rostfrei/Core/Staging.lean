import Rostfrei.Concrete
import Rostfrei.Core.History
import Rostfrei.Core.Outcome

/-!
# Staged receipts

Before a store publishes a transaction it stages it: every participant is placed at the current
version of its stream, which must be the expected one, and its batch is recorded from there on.
`Stages t r` says that `r` is such a receipt of `t`. The checks that run later, on the receipt
alone and against the proposal, cannot fail on it (`Stages.validateIntegrity`,
`Stages.validateProposal`), whatever the participants are.
-/

namespace Rostfrei

open Lib

/-- The commit metadata of a batch is that of its transaction. -/
structure MetadataMatches (t : EventTransaction) (batch : EventBatch) : Prop where
  operationId : batch.operationId = t.operationId
  operationFingerprint : batch.operationFingerprint = t.operationFingerprint
  correlationId : batch.correlationId = t.correlationId
  causationId : batch.causationId = t.causationId
  actor : batch.actor = t.actor

/-- The expectation that names a version. -/
def ExpectedVersion.ofBase (base : Nat) : ExpectedVersion :=
  if base = 0 then .noStream else .exact base

theorem expectedBase_ofBase (base : Nat) : expectedBase (.ofBase base) = .ok base := by
  unfold ExpectedVersion.ofBase
  split
  · next h => rw [h]; rfl
  · next h => simp [expectedBase, h]

/-- The check of an expected version, with the store's own conflict. -/
def checkExpectedVersion (conflict : EventStoreError) (expected : ExpectedVersion) (current : Nat) :
    Except EventStoreError Unit :=
  match expected with
  | .noStream => if current = 0 then .ok () else .error conflict
  | .exact version =>
    if version = 0 then
      .error (invalid
        "Exact requires a non-zero stream version; use NoStream for an absent stream")
    else if version = current then .ok ()
    else .error conflict

/-- The expectation names the current version. -/
theorem checkExpectedVersion_eq_ok {conflict : EventStoreError} {expected : ExpectedVersion}
    {current : Nat} :
    checkExpectedVersion conflict expected current = .ok () ↔ expected = .ofBase current := by
  unfold checkExpectedVersion ExpectedVersion.ofBase
  cases expected with
  | noStream => split <;> simp_all
  | exact version =>
    by_cases hv : version = 0
    · subst hv
      by_cases hc : current = 0 <;> simp [hc]
      omega
    · by_cases hc : version = current
      · subst hc
        simp [hv]
      · by_cases hc0 : current = 0 <;> simp [hv, hc, hc0]

section Staged

variable [Crates]

/-- A participant at its base version, with the events of its batch recorded there. -/
structure StagesAs (t : EventTransaction) (p : TransactionParticipant)
    (s : TransactionStreamReceipt) : Prop where
  stream : s.streamId = p.streamId
  expected : p.expectedVersion = .ofBase s.baseVersion
  events : s.events = p.batch.elim [] (RecordedEvent.ofBatch p.streamId s.baseVersion)
  metadata : ∀ b ∈ p.batch, MetadataMatches t b
  derived : ∀ b ∈ p.batch, DerivedIdentities p.streamId b
  room : ∀ b ∈ p.batch, s.baseVersion + b.events.length < 2 ^ 64

/-- A receipt of a transaction, with or without the completion. -/
structure Stages (t : EventTransaction) (r : TransactionReceipt) : Prop where
  actor : r.actor = t.actor
  scope : r.securityScope = t.securityScope
  completion : ∀ c ∈ r.completion, t.completion = some c
  context : r.boundedContext = t.boundedContext
  operation : r.operationId = t.operationId
  fingerprint : r.operationFingerprint = t.operationFingerprint
  correlation : r.correlationId = t.correlationId
  causation : r.causationId = t.causationId
  nodup : (t.participants.map (·.streamId)).Nodup
  streams : List.Forall₂ (StagesAs t) t.participants r.streams

variable {t : EventTransaction} {r : TransactionReceipt} {p : TransactionParticipant}
  {s : TransactionStreamReceipt}

/-! ## One participant -/

/-- The recorded events of a batch, from any place in it on, pass the receipt's check. -/
theorem checkReceiptEvents_ofBatch {b : EventBatch} {base : Nat} (hr : Stages t r)
    (hb : MetadataMatches t b) (hd : DerivedIdentities s.streamId b)
    (hroom : base + b.events.length < 2 ^ 64) {k : Nat} (hk : k ≤ b.events.length) :
    checkReceiptEvents r s b.commitId b.events.length (base + k) k
      ((RecordedEvent.ofBatch s.streamId base b).drop k) = .ok () := by
  have hle : b.events.length ≤ 100 := b.events_le
  -- Downwards from the end of the batch: the events that are left are one more each time.
  induction hn : b.events.length - k generalizing k with
  | zero =>
    rw [List.drop_of_length_le (by simp only [RecordedEvent.length_ofBatch]; omega)]
    rfl
  | succ n ih =>
    have hlt : k < b.events.length := by omega
    have hnext := ih (k := k + 1) hlt (by omega)
    rw [List.drop_eq_getElem_cons (by simpa using hlt)]
    simp only [checkReceiptEvents, bind_eq_ok, okOr_eq_ok, rejectIf_eq_ok,
      nextVersion_eq_some]
    refine ⟨base + k + 1, ⟨by omega, rfl⟩, (), by omega, (), ?_, ?_⟩
    · simp only [RecordedEvent.ofBatch, List.getElem_mapIdx, RecordedEvent.fromNew, hb.operationId,
        hb.operationFingerprint, hb.correlationId, hb.causationId, hb.actor, hr.operation,
        hr.fingerprint, hr.correlation, hr.causation, hr.actor, hd.events k hlt]
      simp only [ne_eq, not_true_eq_false, or_false, false_or, not_not]
      omega
    · exact hnext

theorem StagesAs.length_events (h : StagesAs t p s) :
    s.events.length = p.batch.elim 0 (·.events.length) := by
  rw [h.events]
  cases p.batch <;> simp

/-- The events of a participant pass the receipt's check. -/
theorem StagesAs.checkReceiptEvents (h : StagesAs t p s) (hr : Stages t r) :
    checkReceiptEvents r s (deriveCommitId s.streamId r.operationId) s.events.length s.baseVersion
      0 s.events = .ok () := by
  rcases hb : p.batch with _ | b
  · rw [h.events, hb]
    rfl
  · have hmeta := h.metadata b hb
    have hderived := h.derived b hb
    rw [← h.stream] at hderived
    have hevents : s.events = RecordedEvent.ofBatch s.streamId s.baseVersion b := by
      rw [h.events, hb, h.stream]
      rfl
    have hcommit : deriveCommitId s.streamId r.operationId = b.commitId := by
      rw [hr.operation, ← hmeta.operationId, hderived.commit]
    have hcheck := checkReceiptEvents_ofBatch hr hmeta hderived (h.room b hb) (Nat.zero_le _)
    rw [hevents, hcommit, RecordedEvent.length_ofBatch]
    simpa using hcheck

/-- A participant passes the check of its part of the receipt. -/
theorem StagesAs.checkProposalParticipant (h : StagesAs t p s) (hr : Stages t r) :
    checkProposalParticipant r s p = .ok () := by
  unfold Rostfrei.checkProposalParticipant
  rw [h.expected, expectedBase_ofBase, bind_eq_ok]
  refine ⟨s.baseVersion, rfl, ?_⟩
  rw [bind_unit_eq_ok, rejectIf_eq_ok]
  refine ⟨by simp [h.stream], ?_⟩
  rcases hb : p.batch with _ | b
  · simp [h.events, hb, rejectIf]
  · have hmeta := h.metadata b hb
    have hcommit := (h.derived b hb).commit
    have hlength := h.length_events
    rw [hb, Option.elim_some] at hlength
    rw [bind_unit_eq_ok, rejectIf_eq_ok]
    refine ⟨?_, forM_eq_ok.mpr ?_⟩
    · simp [hmeta.operationId, hmeta.operationFingerprint, hmeta.correlationId, hmeta.causationId,
        hmeta.actor, hr.operation, hr.fingerprint, hr.correlation, hr.causation, hr.actor, hcommit,
        h.stream, hlength]
    · rintro ⟨new, recorded⟩ hmem
      rw [h.events, hb, Option.elim_some] at hmem
      obtain ⟨i, hi, heq⟩ := List.mem_iff_getElem.mp hmem
      simp only [RecordedEvent.ofBatch, List.getElem_zip, List.getElem_mapIdx, Prod.mk.injEq] at heq
      obtain ⟨rfl, rfl⟩ := heq
      simp [RecordedEvent.fromNew, rejectIf]

/-! ## The receipt -/

theorem checkReceiptStreams_staged {ps : List TransactionParticipant}
    {streams : List TransactionStreamReceipt} {seen : List StreamId} (hr : Stages t r)
    (hstreams : List.Forall₂ (StagesAs t) ps streams) (hnodup : (ps.map (·.streamId)).Nodup)
    (hseen : ∀ p ∈ ps, p.streamId ∉ seen) : checkReceiptStreams r seen streams = .ok () := by
  induction hstreams generalizing seen with
  | nil => rfl
  | @cons p s ps streams hp hrest ih =>
    rw [List.map_cons, List.nodup_cons] at hnodup
    have hcount : s.events.length < 2 ^ 32 := by
      rw [hp.length_events]
      cases hb : p.batch with
      | none => simp
      | some b =>
        have hle : b.events.length ≤ 100 := b.events_le
        simp only [Option.elim_some]
        omega
    simp only [checkReceiptStreams, bind_unit_eq_ok, rejectIf_eq_ok]
    refine ⟨?_, by omega, hp.checkReceiptEvents hr, ih hnodup.2 fun q hq => ?_⟩
    · rw [hp.stream]
      exact hseen p (by simp)
    · rw [List.mem_cons, not_or, hp.stream]
      refine ⟨fun heq => hnodup.1 ?_, hseen q (by simp [hq])⟩
      rw [← heq]
      exact List.mem_map_of_mem hq

omit [Crates] in
/-- The completed decision of a transaction passed its check. -/
def CompletionChecked (t : EventTransaction) : Prop :=
  t.completion.isSome → validateCompletedTransaction t = .ok ()

omit [Crates] in
theorem CompletionChecked.valid (h : CompletionChecked t) {c : CommandCompletion}
    (hc : t.completion = some c) :
    c.validate = .ok () ∧ (c.rejection.isSome → ∀ p ∈ t.participants, p.batch = none) :=
  completion_of_validateCompleted (h (by rw [hc]; rfl)) hc

/-- A staged receipt is sound by itself. -/
theorem Stages.validateIntegrity (h : Stages t r) (hcompleted : CompletionChecked t) :
    r.validateIntegrity = .ok () := by
  rw [TransactionReceipt.validateIntegrity, bind_unit_eq_ok]
  refine ⟨checkReceiptStreams_staged h h.streams h.nodup (by simp), ?_⟩
  rcases hc : r.completion with _ | c
  · rfl
  · obtain ⟨hvalid, hguards⟩ := hcompleted.valid (h.completion c hc)
    simp only [bind_unit_eq_ok, mapError_eq_ok, rejectIf_eq_ok, not_and]
    refine ⟨hvalid, fun hrejected => ?_⟩
    have hempty : ∀ s ∈ r.streams, s.events = [] := by
      intro s hs
      obtain ⟨i, hi, rfl⟩ := List.mem_iff_getElem.mp hs
      have hp : i < t.participants.length := h.streams.length_eq ▸ hi
      have hstaged := h.streams.get hp hi
      rw [List.get_eq_getElem, List.get_eq_getElem] at hstaged
      rw [hstaged.events, hguards hrejected _ (List.getElem_mem hp)]
      rfl
    simpa using hempty

/-- A staged receipt answers its proposal. -/
theorem Stages.validateProposal (h : Stages t r) (hcompleted : CompletionChecked t) {n : Nat}
    (hitems : validateTransactionItemLimit t = .ok n) : r.validateProposal t = .ok () := by
  have hcompletion : r.completion.any (fun value => some value ≠ t.completion) = false := by
    rcases hc : r.completion with _ | c
    · rfl
    · simp [h.completion c hc]
  have hfields : ¬ (r.boundedContext ≠ t.boundedContext ∨ r.operationId ≠ t.operationId ∨
      r.operationFingerprint ≠ t.operationFingerprint ∨
      r.correlationId ≠ t.correlationId ∨ r.causationId ≠ t.causationId ∨
      r.actor ≠ t.actor ∨ r.securityScope ≠ t.securityScope ∨
      r.completion.any (fun value => some value ≠ t.completion) ∨
      r.streams.length ≠ t.participants.length) := by
    rw [hcompletion, h.context, h.operation, h.fingerprint, h.correlation, h.causation, h.actor,
      h.scope, h.streams.length_eq]
    simp
  have hparticipants : ∀ x ∈ r.streams.zip t.participants,
      checkProposalParticipant r x.1 x.2 = .ok () := by
    rintro ⟨stream, p⟩ hmem
    have hswap : (p, stream) ∈ t.participants.zip r.streams := by
      rw [← List.zip_swap]
      exact List.mem_map.mpr ⟨_, hmem, rfl⟩
    exact (List.forall₂_zip h.streams hswap).checkProposalParticipant h
  unfold TransactionReceipt.validateProposal
  split
  on_goal 1 => rw [bind_unit_eq_ok]; refine ⟨hcompleted ‹_›, ?_⟩
  all_goals
    rw [bind_eq_ok]
    refine ⟨n, hitems, ?_⟩
    rw [bind_unit_eq_ok, mapError_eq_ok, bind_unit_eq_ok, rejectIf_eq_ok]
    exact ⟨h.validateIntegrity hcompleted, hfields, forM_eq_ok.mpr hparticipants⟩

/-- Every batch of a staged transaction has the transaction's actor. -/
theorem Stages.actors (h : Stages t r) : ∀ b ∈ t.batches, b.actor = t.actor := by
  intro b hb
  obtain ⟨p, hp, hbatch⟩ := List.mem_filterMap.mp hb
  obtain ⟨i, hi, rfl⟩ := List.mem_iff_getElem.mp hp
  have hs : i < r.streams.length := h.streams.length_eq ▸ hi
  have hstaged := h.streams.get hi hs
  rw [List.get_eq_getElem] at hstaged
  exact (hstaged.metadata b hbatch).actor

/-! ## The details

Every text in the header of the details is checked, so its length is a `u32`. -/

omit [Crates] in
/-- Text of at most 256 bytes. -/
theorem stringSize_le {s : String} (h : strLen s ≤ 256) : Json.stringSize s ≤ 1538 := by
  unfold Json.stringSize
  unfold strLen at h
  omega

omit [Crates] in
theorem textSize_str_le {s : String} (h : strLen s ≤ 256) : (Json.str s).textSize ≤ 1538 := by
  rw [Json.textSize]
  exact stringSize_le h

omit [Crates] in
theorem textSize_num_le {n : Nat} (h : n < 2 ^ 64) : (Json.num n).textSize ≤ 1538 := by
  have hdigits : (Nat.toDigits 10 n).length ≤ 20 :=
    (Nat.length_toDigits_le_iff (by omega) (by omega)).mpr (by omega)
  rw [Json.textSize]
  omega

omit [Crates] in
theorem textSize_orNull_le {α : Type} {enc : α → Json} {x : Option α} {n : Nat} (hn : 4 ≤ n)
    (h : ∀ a ∈ x, (enc a).textSize ≤ n) : (Json.orNull (x.map enc)).textSize ≤ n := by
  cases x with
  | none =>
    show Json.null.textSize ≤ n
    rw [Json.textSize]
    exact hn
  | some a => exact h a rfl

omit [Crates] in
theorem OutcomeEvidence.textSize_toJson_le {x : OutcomeEvidence} (h : x.validate = .ok ()) :
    x.toJson.textSize ≤ 13000 := by
  simp only [validate, rejectIf_eq_ok, not_or] at h
  obtain ⟨-, -, -, htype, -, hcausation, -, hscope⟩ := h
  have hcausation : ∀ id ∈ x.originalCausation, (Json.str id).textSize ≤ 1538 := by
    intro id hid
    rw [Option.mem_def.mp hid] at hcausation
    simp only [Option.any_some, isCausationId, Bool.not_eq_true', Bool.not_eq_false] at hcausation
    have hok : validateIdentifier "causation_id" id = .ok () := by
      cases hv : validateIdentifier "causation_id" id with
      | ok u => rfl
      | error e => rw [hv] at hcausation; cases hcausation
    exact textSize_str_le (strLen_le_of_validateIdentifier hok)
  have hscope : ∀ s ∈ x.authorityScope, (Json.str s).textSize ≤ 1538 := by
    intro s hs
    rw [Option.mem_def.mp hs] at hscope
    simp only [Option.any_some, Bool.or_eq_true, decide_eq_true_eq, not_or] at hscope
    exact textSize_str_le (by omega)
  have hv := x.fingerprintVersion.toNat_lt
  have hs := x.commandSchema.toNat_lt
  unfold toJson
  refine Nat.le_trans (Json.textSize_obj_le (k := 200) (v := 1538) ?_) (by simp)
  simp only [List.forall_mem_cons, List.not_mem_nil, false_imp_iff, implies_true, and_true]
  refine ⟨⟨by decide, textSize_orNull_le (by omega) hscope⟩,
    ⟨by decide, textSize_orNull_le (by omega) fun n _ => textSize_num_le n.toNat_lt⟩,
    ⟨by decide, textSize_num_le (by omega)⟩, ⟨by decide, textSize_str_le (by omega)⟩,
    ⟨by decide, textSize_num_le (by omega)⟩, ⟨by decide, ?_⟩,
    ⟨by decide, textSize_orNull_le (by omega) hcausation⟩⟩
  rw [Json.textSize]
  omega

omit [Crates] in
/-- A checked rejection without its bytes. -/
theorem EncodedRejection.textSize_toJson_le {x : EncodedRejection} (h : strLen x.codecId ≤ 256)
    (hbytes : x.bytes = []) : x.toJson.textSize ≤ 13000 := by
  have hv := x.codecVersion.toNat_lt
  unfold toJson
  refine Nat.le_trans (Json.textSize_obj_le (k := 200) (v := 1538) ?_) (by simp)
  simp only [List.forall_mem_cons, List.not_mem_nil, false_imp_iff, implies_true, and_true]
  refine ⟨⟨by decide, textSize_str_le h⟩, ⟨by decide, textSize_num_le (by omega)⟩, by decide, ?_⟩
  rw [hbytes]
  simp [Json.ofBytes, Json.textSize, Json.itemsSize]

omit [Crates] in
/-- A valid completion without its rejection bytes. -/
theorem CommandCompletion.textSize_toJson_le {x : CommandCompletion} (h : x.validate = .ok ()) :
    (x.withBytes []).toJson.textSize ≤ 40000 := by
  simp only [validate, bind_eq_ok, okOr_eq_ok, rejectIf_eq_ok] at h
  obtain ⟨-, -, evidence, hevidence, ⟨⟩, hvalid, hrejection⟩ := h
  have hv := x.version.toNat_lt
  unfold toJson
  refine Nat.le_trans (Json.textSize_obj_le (k := 200) (v := 13000) ?_) (by simp)
  simp only [List.forall_mem_cons, List.not_mem_nil, false_imp_iff, implies_true, and_true]
  refine ⟨⟨by decide, Nat.le_trans (textSize_num_le ?_) (by omega)⟩,
    ⟨by decide, textSize_orNull_le (by omega) ?_⟩, by decide, textSize_orNull_le (by omega) ?_⟩
  · show x.version.toNat < 2 ^ 64
    omega
  · intro e he
    obtain rfl : evidence = e := Option.some.inj (hevidence.symm.trans he)
    exact evidence.textSize_toJson_le hvalid
  · intro r hr
    obtain ⟨rejection, hsome, rfl⟩ := Option.map_eq_some_iff.mp hr
    rw [hsome] at hrejection
    simp only [EncodedRejection.validate, rejectIf_eq_ok, not_or] at hrejection
    refine EncodedRejection.textSize_toJson_le ?_ rfl
    show strLen rejection.codecId ≤ 256
    omega

omit [Crates] in
theorem ActorRef.textSize_toJson_le (x : ActorRef) : x.toJson.textSize ≤ 40000 := by
  have hns : strLen x.ns.value ≤ 256 :=
    Nat.le_trans (strLen_le_of_validateActorPart x.ns.valid) (by omega)
  have hid : strLen x.id.value ≤ 256 := strLen_le_of_validateActorPart x.id.valid
  unfold toJson
  refine Nat.le_trans (Json.textSize_obj_le (k := 200) (v := 1538) ?_) (by simp)
  simp only [List.forall_mem_cons, List.not_mem_nil, false_imp_iff, implies_true, and_true]
  exact ⟨⟨by decide, textSize_str_le hns⟩, by decide, textSize_str_le hid⟩

namespace EncodedOutcomeDetails

omit [Crates] in
/-- The header of the details of a valid completion. -/
theorem textSize_header_le {completion : Option CommandCompletion} (key : OutcomeKey)
    (scope : Option SecurityScope) (actor : Option ActorRef)
    (h : ∀ c ∈ completion, c.validate = .ok ()) :
    (header completion key scope actor).toJson.textSize ≤ 300000 := by
  have hauthority : strLen key.authority.value ≤ 256 := strLen_le_of_validate key.authority.valid
  have hcontext : strLen key.context.value ≤ 256 :=
    Nat.le_trans (strLen_le_of_validateScopeName key.context.valid) (by decide)
  have hoperation : strLen key.operation.value ≤ 256 :=
    Nat.le_trans (strLen_le_of_validate key.operation.valid) (by omega)
  have hversion := (actorFormat actor).toNat_lt
  have hactor : ∀ f ∈ Json.skipNone "actor" (actor.map ActorRef.toJson),
      Json.stringSize f.1 ≤ 200 ∧ f.2.textSize ≤ 40000 := by
    cases actor with
    | none => simp [Json.skipNone]
    | some a => simpa [Json.skipNone] using ⟨by decide, a.textSize_toJson_le⟩
  have hlength : (Json.skipNone "actor" (actor.map ActorRef.toJson)).length ≤ 1 := by
    cases actor <;> simp [Json.skipNone]
  unfold DetailHeader.toJson
  refine Nat.le_trans (Json.textSize_obj_le (k := 200) (v := 40000) ?_) ?_
  · simp only [List.forall_mem_append, List.forall_mem_cons, List.not_mem_nil, false_imp_iff,
      implies_true, and_true]
    refine ⟨⟨⟨⟨by decide, ?_⟩, ⟨by decide, ?_⟩, ⟨by decide, ?_⟩, ⟨by decide, ?_⟩, by decide, ?_⟩,
      hactor⟩, by decide, ?_⟩
    · exact Nat.le_trans (textSize_num_le (show (actorFormat actor).toNat < 2 ^ 64 by omega))
        (by omega)
    · exact Nat.le_trans (textSize_str_le hauthority) (by omega)
    · exact Nat.le_trans (textSize_str_le hcontext) (by omega)
    · exact Nat.le_trans (textSize_str_le hoperation) (by omega)
    · refine textSize_orNull_le (by omega) fun s hs => ?_
      obtain ⟨scope, -, rfl⟩ := Option.map_eq_some_iff.mp hs
      exact Nat.le_trans (textSize_str_le (strLen_le_of_validate scope.valid)) (by omega)
    · refine textSize_orNull_le (by omega) fun c hc => ?_
      obtain ⟨c, hmem, rfl⟩ := Option.map_eq_some_iff.mp hc
      exact CommandCompletion.textSize_toJson_le (h c hmem)
  · simp only [header, List.length_append, List.length_cons, List.length_nil]
    omega

/-- The details of a valid completion can be encoded. -/
theorem exists_encode [Crates.Compact] {completion : Option CommandCompletion} (key : OutcomeKey)
    (scope : Option SecurityScope) (actor : Option ActorRef)
    (h : ∀ c ∈ completion, c.validate = .ok ()) :
    ∃ bytes, encode completion key scope actor = .ok bytes := by
  have hsize := textSize_header_le key scope actor h
  have hlength := Crates.Compact.length_toVec_le (header completion key scope actor).toJson
  simp only [encode, bind_eq_ok, rejectIf_eq_ok, pure_eq_ok]
  exact ⟨_, (), by omega, rfl⟩

end EncodedOutcomeDetails

/-- The marker and the details of a staged receipt can be prepared. -/
theorem Stages.exists_prepare [Crates.Compact] (h : Stages t r) (hcompleted : CompletionChecked t)
    {n : Nat} (hitems : validateTransactionItemLimit t = .ok n) (authority : CommandAuthority)
    {context : BoundedContextName} (hcontext : t.boundedContext = some context) :
    ∃ bytes, OutcomeMarker.prepare authority t r =
      .ok (.ofDetails ⟨authority, context, t.operationId⟩ t r bytes, bytes) := by
  obtain ⟨bytes, hencode⟩ := EncodedOutcomeDetails.exists_encode
    ⟨authority, context, t.operationId⟩ t.securityScope t.actor fun c hc => (hcompleted.valid hc).1
  exact ⟨bytes, OutcomeMarker.prepare_eq_ok.mpr ⟨h.validateProposal hcompleted hitems, h.actors,
    context, hcontext, hencode, rfl⟩⟩

end Staged

namespace Sample

attribute [local instance] Crates.concrete

theorem batch_derived : DerivedIdentities stream batch := by
  refine ⟨rfl, fun i hi => ?_⟩
  obtain rfl : i = 0 := Nat.lt_one_iff.mp hi
  rfl

end Sample

end Rostfrei
