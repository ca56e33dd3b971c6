import Rostfrei.Core.Framing
import Rostfrei.Core.Integrity

/-!
# Marker manifests

`encodeManifest` writes a marker as a record without event bodies; `restoreManifest` reads it back
against a receipt that was rebuilt from the journal. `restoreManifest_prepared` says that it gives
back every marker that `OutcomeMarker.prepare` made, and that whatever it restores with the revision
of such a marker is that marker.
-/

namespace Rostfrei

open Lib

/-- The stored form of a marker. -/
structure MarkerManifest where
  version : UInt16
  authority : String
  context : String
  operation : String
  scope : Option String
  actor : Option ActorRef
  rejected : Bool
  format : UInt16
  length : Nat
  digest : String
  proposalVersion : UInt16
  proposal : String
  revision : String
  integrity : String
  evidence : Option OutcomeEvidence

namespace MarkerManifest

def toJson (m : MarkerManifest) : Json :=
  .obj ([
    ("version", .num m.version.toNat),
    ("authority", .str m.authority),
    ("context", .str m.context),
    ("operation", .str m.operation),
    ("scope", .orNull (m.scope.map .str))] ++
    Json.skipNone "actor" (m.actor.map ActorRef.toJson) ++
    [("rejected", .bool m.rejected),
    ("format", .num m.format.toNat),
    ("length", .num m.length),
    ("digest", .str m.digest),
    ("proposal_version", .num m.proposalVersion.toNat),
    ("proposal", .str m.proposal),
    ("revision", .str m.revision),
    ("integrity", .str m.integrity),
    ("evidence", .orNull (m.evidence.map OutcomeEvidence.toJson))])

def keys : List String :=
  ["version", "authority", "context", "operation", "scope", "actor", "rejected", "format",
    "length", "digest", "proposal_version", "proposal", "revision", "integrity", "evidence"]

/-- `scope` and `evidence` must be there, `actor` is left out by a manifest without one. -/
def ofJson? (j : Json) : Option MarkerManifest := do
  let fields ← j.struct? keys
  return {
    version := ← Json.required fields "version" Json.uint16?
    authority := ← Json.required fields "authority" Json.str?
    context := ← Json.required fields "context" Json.str?
    operation := ← Json.required fields "operation" Json.str?
    scope := ← Json.nullable fields "scope" Json.str?
    actor := ← Json.present fields "actor" ActorRef.ofJson?
    rejected := ← Json.required fields "rejected" Json.bool?
    format := ← Json.required fields "format" Json.uint16?
    length := ← Json.required fields "length" (Json.uint? (2 ^ 64))
    digest := ← Json.required fields "digest" Json.str?
    proposalVersion := ← Json.required fields "proposal_version" Json.uint16?
    proposal := ← Json.required fields "proposal" Json.str?
    revision := ← Json.required fields "revision" Json.str?
    integrity := ← Json.required fields "integrity" Json.str?
    evidence := ← Json.nullable fields "evidence" OutcomeEvidence.ofJson? }

theorem ofJson?_toJson (m : MarkerManifest) (hlength : m.length < 2 ^ 64) :
    ofJson? m.toJson = some m := by
  rcases m with ⟨version, authority, context, operation, scope, actor, rejected, format, length,
    digest, proposalVersion, proposal, revision, integrity, evidence⟩
  have hscope := Json.nullableOf_orNull scope Json.str?_str fun _ => Json.noConfusion
  have hevidence := Json.nullableOf_orNull evidence OutcomeEvidence.ofJson?_toJson
    fun _ => Json.noConfusion
  have hlen : Json.uint? (2 ^ 64) (.num length) = some length := Json.uint?_num hlength
  unfold ofJson? toJson
  cases actor with
  | none =>
    rw [Json.struct?_obj (show keys.erase "actor" |>.Nodup by decide)
      (fun _ hk => List.mem_of_mem_erase hk) (by rfl), Option.bind_eq_bind, Option.bind_some]
    simp only [Json.nullable, Json.required, Json.present, Option.map_none, Json.skipNone,
      List.cons_append, List.nil_append]
    simp (disch := decide) only [List.lookup_cons_self, Json.lookup_cons_of_ne, List.lookup_nil,
      hscope, hevidence, hlen, Option.bind_some]
    simp [Json.presentOf]
  | some a =>
    rw [Json.struct?_obj (show keys.Nodup by decide) (fun _ hk => hk) rfl, Option.bind_eq_bind,
      Option.bind_some]
    simp only [Json.nullable, Json.required, Json.present, Option.map_some, Json.skipNone,
      List.cons_append, List.nil_append]
    simp (disch := decide) only [List.lookup_cons_self, Json.lookup_cons_of_ne, hscope, hevidence,
      hlen, Option.bind_some]
    simp [Json.presentOf, ActorRef.ofJson?_toJson]

theorem fits_toJson (m : MarkerManifest) (hlength : m.length < 2 ^ 64) (d : Nat) :
    m.toJson.Fits (d + 2) := by
  have hv := m.version.toNat_lt
  have hf := m.format.toNat_lt
  have hp := m.proposalVersion.toNat_lt
  have he : (Json.orNull (m.evidence.map OutcomeEvidence.toJson)).Fits (d + 1) :=
    Json.fits_orNull fun e _ => e.fits_toJson d
  cases ha : m.actor <;>
    simp only [toJson, ha, Option.map_none, Option.map_some, Json.skipNone, List.cons_append,
      List.nil_append, Json.fits_obj, List.forall_mem_cons, Json.fits_num, Json.fits_str,
      Json.fits_bool, Json.fits_orNull_str, ActorRef.fits_toJson, he, List.not_mem_nil,
      false_imp_iff, implies_true, and_true, true_and] <;>
    omega

end MarkerManifest

section Manifest

variable [Crates]

namespace OutcomeMarker

/-- The record of `encode_manifest`. -/
def manifest (m : OutcomeMarker) : MarkerManifest where
  version := m.reference.format
  authority := m.reference.key.authority.value
  context := m.reference.key.context.value
  operation := m.reference.key.operation.value
  scope := m.reference.securityScope.map (·.value)
  actor := m.reference.actor
  rejected := m.decision = .rejected
  format := m.reference.format
  length := m.reference.length
  digest := m.reference.digest.toHex
  proposalVersion := m.proposal.version
  proposal := m.proposal.digest.toHex
  revision := m.revision.toHex
  integrity := (integrityDigest m.integrity).toHex
  evidence := m.evidence

/-- `OutcomeMarker::encode_manifest`. -/
def encodeManifest (m : OutcomeMarker) : Bytes := toVec m.manifest.toJson

/-- The evidence of a manifest is valid and without a timestamp. -/
def checkManifestEvidence : Option OutcomeEvidence → Except EventStoreError Unit
  | none => .ok ()
  | some evidence => do
    (CommandCompletion.new (some evidence) none).validate.mapError fun e => corrupt e.toString
    rejectIf evidence.createdAtMillis.isSome
      (corrupt "retainable timestamp in permanent manifest")

/-- A fingerprint of a manifest. -/
def manifestFingerprint (value : String) : Except EventStoreError ContentFingerprint :=
  (ContentFingerprint.fromHex value).mapError fun e => corrupt e.toString

/-- `OutcomeMarker::restore_manifest`. -/
def restoreManifest (expected : OutcomeKey) (bytes : Bytes) (integrity : TransactionReceipt) :
    Except EventStoreError OutcomeMarker := do
  let wire ← okOr (corrupt (jsonError "MarkerManifest" bytes))
    ((fromSlice bytes).bind MarkerManifest.ofJson?)
  integrity.validateIntegrity
  rejectIf (wire.integrity ≠ (integrityDigest integrity).toHex)
    (corrupt "manifest event-integrity digest mismatch")
  rejectIf
    (wire.version ≠ actorFormat wire.actor ∨ wire.format ≠ wire.version ∨
      wire.proposalVersion ≠ wire.version ∨ wire.actor ≠ integrity.actor ∨ wire.length < 4 ∨
      wire.authority ≠ expected.authority.value ∨ wire.context ≠ expected.context.value ∨
      wire.operation ≠ expected.operation.value ∨
      integrity.boundedContext ≠ some expected.context ∨
      integrity.operationId ≠ expected.operation ∨
      integrity.securityScope.map (·.value) ≠ wire.scope ∨ integrity.completion.isSome ∨
      wire.rejected ∧ integrity.streams.any (¬ ·.events.isEmpty))
    (corrupt "manifest key, format, scope or integrity binding mismatch")
  checkManifestEvidence wire.evidence
  let proposalFingerprint ← manifestFingerprint wire.proposal
  let proposal ← ProposalDigest.restore wire.proposalVersion proposalFingerprint
  let digest ← manifestFingerprint wire.digest
  let reference : OutcomeDetailReference := {
    key := expected
    securityScope := integrity.securityScope
    actor := integrity.actor
    decision := if wire.rejected then .rejected else .accepted
    format := wire.format
    length := wire.length
    digest := digest }
  let revision := markerRevision reference proposal wire.evidence integrity
  let wireRevision ← manifestFingerprint wire.revision
  rejectIf (revision ≠ wireRevision) (corrupt "manifest revision mismatch")
  return ⟨reference, revision, proposal, wire.evidence, integrity⟩

end OutcomeMarker

/-! ## A prepared marker is restored -/

theorem checkReceiptEvents_withoutCompletion (r : TransactionReceipt)
    (stream : TransactionStreamReceipt) (commit : CommitId) (count version ordinal : Nat)
    (events : List RecordedEvent) :
    checkReceiptEvents r.withoutCompletion stream commit count version ordinal events =
      checkReceiptEvents r stream commit count version ordinal events := by
  induction events generalizing version ordinal with
  | nil => rfl
  | cons e rest ih =>
    simp only [checkReceiptEvents, ih]
    rfl

theorem checkReceiptStreams_withoutCompletion (r : TransactionReceipt) (seen : List StreamId)
    (streams : List TransactionStreamReceipt) :
    checkReceiptStreams r.withoutCompletion seen streams = checkReceiptStreams r seen streams := by
  induction streams generalizing seen with
  | nil => rfl
  | cons s rest ih =>
    simp only [checkReceiptStreams, checkReceiptEvents_withoutCompletion, ih]
    rfl

/-- The checks do not need the completion. -/
theorem TransactionReceipt.validateIntegrity_withoutCompletion {r : TransactionReceipt}
    (h : r.validateIntegrity = .ok ()) : r.withoutCompletion.validateIntegrity = .ok () := by
  rw [validateIntegrity, bind_unit_eq_ok] at h ⊢
  refine ⟨?_, rfl⟩
  rw [← h.1]
  exact checkReceiptStreams_withoutCompletion r [] r.streams

namespace OutcomeMarker

variable {authority : CommandAuthority} {t : EventTransaction} {receipt : TransactionReceipt}
  {m : OutcomeMarker} {bytes : Bytes}

/-- What `prepare` puts into a marker, as far as `restoreManifest` looks at it. -/
structure Prepared (m : OutcomeMarker) : Prop where
  valid : m.integrity.validateIntegrity = .ok ()
  completion : m.integrity.completion = none
  format : m.reference.format = actorFormat m.reference.actor
  proposal : m.proposal.version = actorFormat m.reference.actor
  actor : m.reference.actor = m.integrity.actor
  length : 4 ≤ m.reference.length
  context : m.integrity.boundedContext = some m.reference.key.context
  operation : m.integrity.operationId = m.reference.key.operation
  scope : m.reference.securityScope = m.integrity.securityScope
  rejected : m.reference.decision = .rejected → ∀ s ∈ m.integrity.streams, s.events = []
  evidence : checkManifestEvidence m.evidence = .ok ()
  revision : m.revision = markerRevision m.reference m.proposal m.evidence m.integrity

theorem prepared_of_prepare (h : prepare authority t receipt = .ok (m, bytes)) : m.Prepared := by
  obtain ⟨hvalid, -, context, hcontext, hencode, rfl⟩ := prepare_eq_ok.mp h
  have hanswers := TransactionReceipt.answers_of_validateProposal hvalid
  refine ⟨TransactionReceipt.validateIntegrity_withoutCompletion hanswers.integrity, rfl, rfl, rfl,
    hanswers.actor.symm, ?_, hanswers.context.trans hcontext, hanswers.operation,
    hanswers.scope.symm, ?_, ?_, rfl⟩
  · simp only [EncodedOutcomeDetails.encode, bind_unit_eq_ok, pure_eq_ok] at hencode
    rw [← hencode.2]
    show 4 ≤ List.length _
    simp only [List.length_append, length_beBytes]
    omega
  · intro hrejected
    rcases hc : t.completion with _ | c
    · simp [ofDetails, detailReference, completionDecision, hc] at hrejected
    · refine hanswers.no_events hc ?_
      by_contra hnone
      simp [ofDetails, detailReference, completionDecision, hc, hnone] at hrejected
  · rcases hc : t.completion with _ | c
    · simp [ofDetails, hc, checkManifestEvidence]
    · have hcvalid := (hanswers.completion hc).1
      simp only [CommandCompletion.validate, bind_eq_ok, rejectIf_eq_ok, okOr_eq_ok] at hcvalid
      obtain ⟨-, -, evidence, hevidence, _, hev, -⟩ := hcvalid
      have hkept : { evidence with createdAtMillis := none }.validate = .ok () := by
        simp only [OutcomeEvidence.validate, rejectIf_eq_ok, not_or] at hev ⊢
        obtain ⟨hf, hs, hn, hl, hctrl, hcause, -, hscope⟩ := hev
        exact ⟨hf, hs, hn, hl, hctrl, hcause, by simp, hscope⟩
      simp [ofDetails, hc, hevidence, checkManifestEvidence, CommandCompletion.validate,
        CommandCompletion.new, rejectIf, hkept, Except.mapError]

/-- The machine sizes of what a marker holds: base versions are `u64`, lengths are `usize`. -/
structure Sized (m : OutcomeMarker) : Prop where
  bases : m.integrity.BasesFit
  length : m.reference.length < 2 ^ 64
  reference : FitsFrame m.reference.encode
  evidence : FitsFrame (toVec (.orNull (m.evidence.map OutcomeEvidence.toJson)))

/-- The fields of a prepared marker pass every check of `restoreManifest`. -/
theorem Prepared.restore [Crates.Lawful] (h : m.Prepared) (hlength : m.reference.length < 2 ^ 64) :
    restoreManifest m.reference.key m.encodeManifest m.integrity = .ok m := by
  have hread : (fromSlice m.encodeManifest).bind MarkerManifest.ofJson? = some m.manifest := by
    rw [encodeManifest, Crates.Lawful.fromSlice_toVec _ (m.manifest.fits_toJson hlength 125),
      Option.bind_some, MarkerManifest.ofJson?_toJson _ hlength]
  have hhex : ∀ f : ContentFingerprint, manifestFingerprint f.toHex = .ok f := fun f => by
    simp [manifestFingerprint]
  have hdecision : (if m.manifest.rejected then OutcomeDecision.rejected else .accepted) =
      m.reference.decision := by
    cases hd : m.reference.decision <;> simp [manifest, decision, hd]
  have hempty : ¬ (m.manifest.rejected ∧ m.integrity.streams.any (¬ ·.events.isEmpty)) := by
    rintro ⟨hrejected, hany⟩
    obtain ⟨s, hs, hne⟩ := List.any_eq_true.mp hany
    have := h.rejected (of_decide_eq_true hrejected) s hs
    simp [this] at hne
  have hversion : m.proposal.version = 1 ∨ m.proposal.version = 2 := by
    rw [h.proposal, actorFormat]
    split
    · exact .inr rfl
    · exact .inl rfl
  have hbinding : ¬ (m.manifest.version ≠ actorFormat m.manifest.actor ∨
      m.manifest.format ≠ m.manifest.version ∨ m.manifest.proposalVersion ≠ m.manifest.version ∨
      m.manifest.actor ≠ m.integrity.actor ∨ m.manifest.length < 4 ∨
      m.manifest.authority ≠ m.reference.key.authority.value ∨
      m.manifest.context ≠ m.reference.key.context.value ∨
      m.manifest.operation ≠ m.reference.key.operation.value ∨
      m.integrity.boundedContext ≠ some m.reference.key.context ∨
      m.integrity.operationId ≠ m.reference.key.operation ∨
      m.integrity.securityScope.map (·.value) ≠ m.manifest.scope ∨
      m.integrity.completion.isSome ∨
      m.manifest.rejected ∧ m.integrity.streams.any (¬ ·.events.isEmpty)) := by
    simp only [not_or, not_not]
    refine ⟨h.format, rfl, h.proposal.trans h.format.symm, h.actor, Nat.not_lt.mpr h.length, rfl,
      rfl, rfl, h.context, h.operation, by rw [← h.scope]; rfl, by simp [h.completion], hempty⟩
  have hproposal : ProposalDigest.restore m.manifest.proposalVersion m.proposal.digest =
      .ok m.proposal := by
    simp only [ProposalDigest.restore, bind_unit_eq_ok, rejectIf_eq_ok, pure_eq_ok]
    exact ⟨fun hne => hversion.elim hne.1 hne.2, rfl⟩
  have hreference : (⟨m.reference.key, m.integrity.securityScope, m.integrity.actor,
      if m.manifest.rejected then .rejected else .accepted, m.manifest.format, m.manifest.length,
      m.reference.digest⟩ : OutcomeDetailReference) = m.reference := by
    rw [hdecision, ← h.scope, ← h.actor]
    rfl
  have hrevision : markerRevision m.reference m.proposal m.manifest.evidence m.integrity =
      m.revision := h.revision.symm
  simp only [restoreManifest, bind_eq_ok, okOr_eq_ok, rejectIf_eq_ok, pure_eq_ok]
  refine ⟨m.manifest, hread, (), h.valid, (), not_not.mpr rfl, (), hbinding, (), h.evidence, _,
    hhex _, _, hproposal, _, hhex _, _, hhex _, (), ?_, ?_⟩
  · rw [hreference]
    exact not_not.mpr hrevision
  · rw [hreference, hrevision]
    rfl

end OutcomeMarker

/-! ## The revision determines the marker -/

/-- The document of `OutcomeDetailReference.encode`. -/
def OutcomeDetailReference.document (r : OutcomeDetailReference) : Json :=
  let key := [.str r.key.authority.value, .str r.key.context.value, .str r.key.operation.value,
    jsonText r.securityScope]
  let rest := [.bool (r.decision = .rejected), .num r.format.toNat, .num r.length,
    .str r.digest.toHex]
  match r.actor with
  | some actor => .arr (.num 2 :: key ++ [actor.toJson] ++ rest)
  | none => .arr (.num 1 :: key ++ rest)

theorem OutcomeDetailReference.encode_eq (r : OutcomeDetailReference) :
    r.encode = toVec r.document := by
  unfold encode document
  cases r.actor <;> rfl

omit [Crates] in
theorem OutcomeDetailReference.fits_document {r : OutcomeDetailReference}
    (h : r.length < 2 ^ 64) : r.document.Fits maxJsonDepth := by
  have hf := r.format.toNat_lt
  show r.document.Fits 127
  unfold document
  split <;>
    simp only [List.cons_append, List.nil_append, Json.fits_arr, List.forall_mem_cons,
      Json.fits_num, Json.fits_str, Json.fits_bool, fits_jsonText, ActorRef.fits_toJson,
      List.not_mem_nil, false_imp_iff, implies_true, and_true, true_and] <;>
    omega

omit [Crates] in
theorem ActorRef.toJson_inj {a b : ActorRef} (h : a.toJson = b.toJson) : a = b := by
  have := congrArg ActorRef.ofJson? h
  rw [ofJson?_toJson, ofJson?_toJson] at this
  exact Option.some.inj this

omit [Crates] in
theorem OutcomeDetailReference.document_inj {r r' : OutcomeDetailReference}
    (h : r.document = r'.document) : r = r' := by
  obtain ⟨⟨authority, context, operation⟩, scope, actor, decision, format, length, digest⟩ := r
  obtain ⟨⟨authority', context', operation'⟩, scope', actor', decision', format', length',
    digest'⟩ := r'
  have hdecision : ∀ d d' : OutcomeDecision,
      decide (d = .rejected) = decide (d' = .rejected) → d = d' := by
    intro d d'
    cases d <;> cases d' <;> simp
  have hactor : actor = actor' := by
    cases actor <;> cases actor' <;> simp [document] at h ⊢
    exact ActorRef.toJson_inj h.2.2.2.2.1
  subst hactor
  cases actor <;>
  · simp only [document, List.cons_append, List.nil_append, Json.arr.injEq, List.cons.injEq,
      Json.str.injEq, Json.bool.injEq, Json.num.injEq, true_and, and_true] at h
    obtain ⟨hauthority, hcontext, hoperation, hscope, hd, hformat, hlength, hdigest⟩ := h
    rw [CheckedString.ext hauthority, CheckedString.ext hcontext, CheckedString.ext hoperation,
      jsonText_inj hscope, hdecision _ _ hd, UInt16.toNat_inj.mp hformat, hlength,
      ContentFingerprint.toHex_inj hdigest]

omit [Crates] in
theorem evidence_document_inj {e e' : Option OutcomeEvidence}
    (h : Json.orNull (e.map OutcomeEvidence.toJson) = Json.orNull (e'.map OutcomeEvidence.toJson)) :
    e = e' := by
  have hread : ∀ e : Option OutcomeEvidence, Json.optionalOf OutcomeEvidence.ofJson?
      (some (.orNull (e.map OutcomeEvidence.toJson))) = some e := fun e =>
    Json.optionalOf_orNull e OutcomeEvidence.ofJson?_toJson fun _ => Json.noConfusion
  have := hread e
  rw [h, hread e'] at this
  exact (Option.some.inj this).symm

namespace OutcomeMarker

variable {authority : CommandAuthority} {t : EventTransaction} {receipt : TransactionReceipt}
  {m : OutcomeMarker} {bytes : Bytes}

/-- The parts that the revision of a marker hashes. -/
def revisionParts (m : OutcomeMarker) : List Bytes := [
  if m.reference.actor.isSome then utf8 "rostfrei:outcome-revision:v3"
    else utf8 "rostfrei:outcome-revision:v2",
  m.reference.encode,
  beBytes 2 m.proposal.version.toNat,
  m.proposal.digest.toList,
  toVec (.orNull (m.evidence.map OutcomeEvidence.toJson)),
  (integrityDigest m.integrity).toList]

/-- What is hashed for the revision of a marker. -/
def revisionInputs (m : OutcomeMarker) : Set Bytes :=
  {frames m.revisionParts} ∪ integrityInputs m.integrity

/-- A marker whose revision is that of its parts, with a checked receipt. -/
structure Checked (m : OutcomeMarker) : Prop where
  valid : m.integrity.validateIntegrity = .ok ()
  completion : m.integrity.completion = none
  revision : m.revision = sha256 (frames m.revisionParts)

theorem Prepared.checked (h : m.Prepared) : m.Checked := ⟨h.valid, h.completion, h.revision⟩

/-- What `restoreManifest` restores is checked. -/
theorem checked_of_restore {expected : OutcomeKey} {manifest : Bytes}
    {integrity : TransactionReceipt} (h : restoreManifest expected manifest integrity = .ok m) :
    m.Checked := by
  simp only [restoreManifest, bind_eq_ok, okOr_eq_ok, rejectIf_eq_ok, pure_eq_ok, not_or] at h
  obtain ⟨_, -, _, hvalid, -, -, -, hbinding, _, -, _, -, _, -, _, -, _, -, -, -, rfl⟩ := h
  obtain ⟨-, -, -, -, -, -, -, -, -, -, -, hcompletion, -⟩ := hbinding
  exact ⟨hvalid, by simpa using hcompletion, rfl⟩

theorem fitsFrame_revisionParts (h : m.Sized) : ∀ p ∈ m.revisionParts, FitsFrame p := by
  have hlabel : FitsFrame (if m.reference.actor.isSome then utf8 "rostfrei:outcome-revision:v3"
      else utf8 "rostfrei:outcome-revision:v2") := by
    split <;> exact show _ < _ by decide
  have hversion : FitsFrame (beBytes 2 m.proposal.version.toNat) := by simp [FitsFrame]
  simp only [revisionParts, List.forall_mem_cons, List.not_mem_nil, false_imp_iff, implies_true,
    and_true]
  exact ⟨hlabel, h.reference, hversion, fitsFrame_digest _, h.evidence, fitsFrame_digest _⟩

/-- Checked markers with the same revision are equal. -/
theorem Checked.eq_of_revision [Crates.Lawful] {m' : OutcomeMarker} (hc : m.Checked)
    (hc' : m'.Checked) (hs : m.Sized) (hs' : m'.Sized)
    (hfree : CollisionFree (m.revisionInputs ∪ m'.revisionInputs)) (h : m.revision = m'.revision) :
    m = m' := by
  have hbytes : frames m.revisionParts = frames m'.revisionParts := by
    refine hfree (.inl (.inl rfl)) (.inr (.inl rfl)) ?_
    rw [← hc.revision, ← hc'.revision, h]
  have hparts := frames_inj (fitsFrame_revisionParts hs) (fitsFrame_revisionParts hs') hbytes
  simp only [revisionParts, List.cons.injEq, and_true] at hparts
  obtain ⟨-, hreference, hversion, hdigest, hevidence, hintegrity⟩ := hparts
  rw [OutcomeDetailReference.encode_eq, OutcomeDetailReference.encode_eq] at hreference
  have hreference : m.reference = m'.reference := OutcomeDetailReference.document_inj <|
    toVec_inj (OutcomeDetailReference.fits_document hs.length)
      (OutcomeDetailReference.fits_document hs'.length) hreference
  have hlt := m.proposal.version.toNat_lt
  have hlt' := m'.proposal.version.toNat_lt
  have hversion : m.proposal.version = m'.proposal.version :=
    UInt16.toNat_inj.mp (beBytes_inj (by omega) (by omega) hversion)
  have hdigest := Vector.toList_inj.mp hdigest
  have hfits : ∀ e : Option OutcomeEvidence,
      (Json.orNull (e.map OutcomeEvidence.toJson)).Fits maxJsonDepth :=
    fun e => Json.fits_orNull fun x _ => x.fits_toJson 126
  have hevidence := evidence_document_inj (toVec_inj (hfits _) (hfits _) hevidence)
  have hinputs : integrityInputs m.integrity ∪ integrityInputs m'.integrity ⊆
      m.revisionInputs ∪ m'.revisionInputs :=
    Set.union_subset_union Set.subset_union_right Set.subset_union_right
  have hintegrity : m.integrity = m'.integrity :=
    receipt_eq_of_integrityDigest (hfree.mono hinputs) hs.bases hs'.bases hc.completion
      hc'.completion hc.valid hc'.valid (Vector.toList_inj.mp hintegrity)
  obtain ⟨reference, revision, ⟨version, digest⟩, evidence, integrity⟩ := m
  obtain ⟨reference', revision', ⟨version', digest'⟩, evidence', integrity'⟩ := m'
  simp_all

end OutcomeMarker

end Manifest

namespace Sample

attribute [local instance] Crates.concrete

def key : OutcomeKey := ⟨authority, context, operation⟩

/-- An acceptance without evidence and without events, and its receipt. -/
def plain : EventTransaction := { decision with completion := none }
def plainReceipt : TransactionReceipt := { receipt with streams := [] }

def details : Bytes :=
  ((EncodedOutcomeDetails.encode plain.completion key none none).toOption).getD []

def marker : OutcomeMarker := .ofDetails key plain plainReceipt details

theorem marker_prepared :
    OutcomeMarker.prepare authority plain plainReceipt = .ok (marker, details) :=
  OutcomeMarker.prepare_eq_ok.mpr ⟨by decide +kernel, by simp [plain, decision,
    EventTransaction.batches, EventTransaction.new], context, rfl, by decide +kernel, rfl⟩

theorem marker_sized : marker.Sized where
  bases := by
    show plainReceipt.BasesFit
    simp [TransactionReceipt.BasesFit, plainReceipt]
  length := by decide +kernel
  reference := show _ < _ by decide +kernel
  evidence := show _ < _ by decide +kernel

theorem marker_collisionFree : CollisionFree marker.revisionInputs := by
  have hne : sha256 (frames marker.revisionParts) ≠
      sha256 (toVec (integrityDocument plainReceipt)) := by decide +kernel
  have hinputs : ∀ x ∈ integrityInputs plainReceipt,
      x = toVec (integrityDocument plainReceipt) := by
    rintro x (rfl | ⟨s, hs, -⟩)
    · rfl
    · simp [plainReceipt] at hs
  rintro x (rfl | hx) y (rfl | hy) heq
  · rfl
  · rw [hinputs y hy] at heq
    exact absurd heq hne
  · rw [hinputs x hx] at heq
    exact absurd heq.symm hne
  · rw [hinputs x hx, hinputs y hy]

end Sample

end Rostfrei
