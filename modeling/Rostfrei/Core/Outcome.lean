import Rostfrei.Core.Receipt

/-!
# Outcome markers and details

A context-scoped transaction leaves two things: an `OutcomeMarker`, which is permanent and has no
command or rejection body, and its details, encoded bytes that can be withdrawn later. The marker
refers to the details by length and digest (`OutcomeDetailReference`). `OutcomeMarker.prepare`
builds both; `EncodedOutcomeDetails.decode` reads the details of a reference back, and
`decode_encode` says that it reads what `encode` wrote.
-/

namespace Rostfrei

open Lib

inductive OutcomeDecision where
  | accepted
  | rejected
deriving DecidableEq, Repr

/-- A storage coordinate: authority, bounded context and operation. -/
structure OutcomeKey where
  authority : CommandAuthority
  context : BoundedContextName
  operation : OperationId
deriving DecidableEq

structure OutcomeDetailReference where
  key : OutcomeKey
  securityScope : Option SecurityScope
  actor : Option ActorRef
  decision : OutcomeDecision
  format : UInt16
  length : Nat
  digest : ContentFingerprint
deriving DecidableEq

/-- A token bound to one winning reference. -/
abbrev OutcomeRevision := ContentFingerprint

/-- Permanent evidence of a decision. -/
structure OutcomeMarker where
  reference : OutcomeDetailReference
  revision : OutcomeRevision
  proposal : ProposalDigest
  evidence : Option OutcomeEvidence
  integrity : TransactionReceipt
deriving DecidableEq

/-- `OutcomeMarker::decision`. -/
def OutcomeMarker.decision (m : OutcomeMarker) : OutcomeDecision := m.reference.decision

/-- `actor_format`. -/
def actorFormat (actor : Option ActorRef) : UInt16 := if actor.isSome then 2 else 1

/-- The error text of a failed `u32::try_from`. -/
def intConversionError : String := "out of range integral type conversion attempted"

/-! ## JSON forms -/

namespace ActorRef

/-- The derived struct form. -/
def toJson (a : ActorRef) : Json := .obj [("namespace", .str a.ns.value), ("id", .str a.id.value)]

/-- Through a `serde_json::Value`, whose objects are sorted by key. -/
def toValue (a : ActorRef) : Json := .obj [("id", .str a.id.value), ("namespace", .str a.ns.value)]

def keys : List String := ["namespace", "id"]

theorem keys_nodup : keys.Nodup := by decide

/-- `ActorWire`, then `ActorRef::new`. -/
def ofJson? (j : Json) : Option ActorRef := do
  let fields ← j.struct? keys
  let ns ← Json.required fields "namespace" Json.str?
  let id ← Json.required fields "id" Json.str?
  (ActorRef.new ns id).toOption

theorem ofJson?_toJson (a : ActorRef) : ofJson? a.toJson = some a := by
  unfold ofJson? toJson
  rw [Json.struct?_obj keys_nodup (fun _ h => h) rfl, Option.bind_eq_bind, Option.bind_some]
  simp only [Json.required]
  simp (disch := decide) only [List.lookup_cons_self, Json.lookup_cons_of_ne]
  have h : ActorRef.new a.ns.value a.id.value = .ok a := by
    simp [ActorRef.new]
  simp [h, Except.toOption]

@[simp] theorem fits_toJson (a : ActorRef) (d : Nat) : a.toJson.Fits (d + 1) := by
  simp [toJson]

end ActorRef

/-- The JSON part of encoded details. -/
structure DetailHeader where
  version : UInt16
  authority : String
  context : String
  operation : String
  securityScope : Option String
  actor : Option ActorRef
  completion : Option CommandCompletion

namespace DetailHeader

def toJson (h : DetailHeader) : Json :=
  .obj ([
    ("version", .num h.version.toNat),
    ("authority", .str h.authority),
    ("context", .str h.context),
    ("operation", .str h.operation),
    ("security_scope", .orNull (h.securityScope.map .str))] ++
    Json.skipNone "actor" (h.actor.map ActorRef.toJson) ++
    [("completion", .orNull (h.completion.map CommandCompletion.toJson))])

def keys : List String :=
  ["version", "authority", "context", "operation", "security_scope", "actor", "completion"]

/-- `actor` is left out by a header without one, and `null` is refused for it. -/
def ofJson? (j : Json) : Option DetailHeader := do
  let fields ← j.struct? keys
  return {
    version := ← Json.required fields "version" Json.uint16?
    authority := ← Json.required fields "authority" Json.str?
    context := ← Json.required fields "context" Json.str?
    operation := ← Json.required fields "operation" Json.str?
    securityScope := ← Json.optional fields "security_scope" Json.str?
    actor := ← Json.present fields "actor" ActorRef.ofJson?
    completion := ← Json.optional fields "completion" CommandCompletion.ofJson? }

theorem ofJson?_toJson (h : DetailHeader) : ofJson? h.toJson = some h := by
  rcases h with ⟨version, authority, context, operation, scope, actor, completion⟩
  have hc := Json.optionalOf_orNull completion CommandCompletion.ofJson?_toJson
    CommandCompletion.toJson_ne_null
  unfold ofJson? toJson
  cases actor with
  | none =>
    rw [Json.struct?_obj (show keys.erase "actor" |>.Nodup by decide)
      (fun _ hk => List.mem_of_mem_erase hk) (by rfl), Option.bind_eq_bind, Option.bind_some]
    simp only [Json.optional, Json.required, Json.present, Option.map_none, Json.skipNone,
      List.cons_append, List.nil_append]
    simp (disch := decide) only [List.lookup_cons_self, Json.lookup_cons_of_ne, List.lookup_nil]
    simp [hc, Json.presentOf]
  | some a =>
    rw [Json.struct?_obj (show keys.Nodup by decide) (fun _ hk => hk) rfl, Option.bind_eq_bind,
      Option.bind_some]
    simp only [Json.optional, Json.required, Json.present, Option.map_some, Json.skipNone,
      List.cons_append, List.nil_append]
    simp (disch := decide) only [List.lookup_cons_self, Json.lookup_cons_of_ne]
    simp [hc, Json.presentOf, ActorRef.ofJson?_toJson]

theorem fits_toJson (h : DetailHeader) (d : Nat) : h.toJson.Fits (d + 4) := by
  have hv := h.version.toNat_lt
  have hc : (Json.orNull (h.completion.map CommandCompletion.toJson)).Fits (d + 3) :=
    Json.fits_orNull fun c _ => c.fits_toJson d
  cases ha : h.actor <;>
    simp only [toJson, ha, Option.map_none, Option.map_some, Json.skipNone, List.cons_append,
      List.nil_append, Json.fits_obj, List.forall_mem_cons, Json.fits_num, Json.fits_str,
      Json.fits_orNull_str, ActorRef.fits_toJson, hc, List.not_mem_nil, false_imp_iff,
      implies_true, and_true] <;>
    omega

end DetailHeader

/-! ## Encoded details -/

/-- The rejection bytes of a completion; none for an acceptance. -/
def rejectionBytes (completion : Option CommandCompletion) : Bytes :=
  (completion.bind (·.rejection)).elim [] (·.bytes)

/-- The completion with its rejection bytes replaced. -/
def CommandCompletion.withBytes (c : CommandCompletion) (bytes : Bytes) : CommandCompletion :=
  { c with rejection := c.rejection.map fun r => { r with bytes := bytes } }

structure EncodedOutcomeDetails where
  reference : OutcomeDetailReference
  completion : Option CommandCompletion
deriving DecidableEq

section Codec

variable [Crates]

namespace EncodedOutcomeDetails

/-- `EncodedOutcomeDetails::rejection`. -/
def rejection (x : EncodedOutcomeDetails) : Option EncodedRejection :=
  x.completion.bind (·.rejection)

/-- The header of the details: the completion without its rejection bytes. -/
def header (completion : Option CommandCompletion) (key : OutcomeKey)
    (scope : Option SecurityScope) (actor : Option ActorRef) : DetailHeader where
  version := actorFormat actor
  authority := key.authority.value
  context := key.context.value
  operation := key.operation.value
  securityScope := scope.map (·.value)
  actor := actor
  completion := completion.map (·.withBytes [])

/-- `EncodedOutcomeDetails::encode`: the header's length, the header, the rejection bytes. -/
def encode (completion : Option CommandCompletion) (key : OutcomeKey)
    (scope : Option SecurityScope) (actor : Option ActorRef) : Except EventStoreError Bytes := do
  let header := toVec (header completion key scope actor).toJson
  rejectIf (header.length ≥ 2 ^ 32) (corrupt intConversionError)
  return beBytes 4 header.length ++ header ++ rejectionBytes completion

/-- The completion of a header together with the bytes that follow it. -/
def restoreCompletion (completion : Option CommandCompletion) (payload : Bytes) :
    Except EventStoreError (Option CommandCompletion) := do
  match completion.bind (·.rejection) with
  | some rejection =>
    rejectIf (rejection.bytes ≠ []) (corrupt "inline rejection in detail header")
  | none => rejectIf (payload ≠ []) (corrupt "unexpected accepted detail payload")
  return completion.map (·.withBytes payload)

/-- A completion that was read must be valid. -/
def checkCompletion : Option CommandCompletion → Except EventStoreError Unit
  | some completion => completion.validate.mapError fun e => corrupt e.toString
  | none => .ok ()

/-- `EncodedOutcomeDetails::decode`. -/
def decode (reference : OutcomeDetailReference) (bytes : Bytes) :
    Except EventStoreError EncodedOutcomeDetails := do
  rejectIf (reference.format ≠ actorFormat reference.actor ∨ bytes.length ≠ reference.length ∨
      ContentFingerprint.digest bytes ≠ reference.digest)
    (corrupt "outcome detail format, length or digest mismatch")
  rejectIf (bytes.length < 4) (corrupt "truncated detail header")
  let length := ofBeBytes (bytes.take 4)
  let body := bytes.drop 4
  rejectIf (body.length < length) (corrupt "truncated detail body")
  let header ← okOr (corrupt (jsonError "DetailHeader" (body.take length)))
    ((fromSlice (body.take length)).bind DetailHeader.ofJson?)
  rejectIf (header.version ≠ reference.format ∨ header.actor ≠ reference.actor ∨
      header.authority ≠ reference.key.authority.value ∨
      header.context ≠ reference.key.context.value ∨
      header.operation ≠ reference.key.operation.value ∨
      header.securityScope ≠ reference.securityScope.map (·.value))
    (corrupt "outcome detail identity mismatch")
  let completion ← restoreCompletion header.completion (body.drop length)
  checkCompletion completion
  let details : EncodedOutcomeDetails := ⟨reference, completion⟩
  rejectIf (details.rejection.isSome ≠ (reference.decision = .rejected : Bool))
    (corrupt "outcome detail decision mismatch")
  return details

omit [Crates] in
/-- The restored completion is the encoded one. -/
theorem restoreCompletion_withBytes (completion : Option CommandCompletion) :
    restoreCompletion (completion.map (·.withBytes [])) (rejectionBytes completion) =
      .ok completion := by
  rcases completion with _ | ⟨version, evidence, _ | rejection⟩ <;> rfl

end EncodedOutcomeDetails

/-! ## References and revisions -/

/-- A nullable string. -/
def jsonText {ε : Type} {check : String → Except ε Unit} (value : Option (CheckedString check)) :
    Json :=
  .orNull (value.map fun v => .str v.value)

/-- `OutcomeDetailReference::encode`. -/
def OutcomeDetailReference.encode (r : OutcomeDetailReference) : Bytes :=
  let key := [.str r.key.authority.value, .str r.key.context.value, .str r.key.operation.value,
    jsonText r.securityScope]
  let rest := [.bool (r.decision = .rejected), .num r.format.toNat, .num r.length,
    .str r.digest.toHex]
  match r.actor with
  | some actor => toVec (.arr (.num 2 :: key ++ [actor.toJson] ++ rest))
  | none => toVec (.arr (.num 1 :: key ++ rest))

/-- The row of one event in the integrity digest. -/
def integrityRow (attributed : Bool) (event : RecordedEvent) : Json :=
  .arr ([
    .str event.eventId.value,
    .str event.commitId.value,
    .num event.streamVersion,
    .num event.commitEventOrdinal,
    .num event.commitEventCount,
    .str event.eventType,
    .num event.schemaVersion.toNat,
    .str (ContentFingerprint.digest event.payload).toHex] ++
    if attributed then [.orNull (event.actor.map ActorRef.toValue)] else [])

/-- `integrity_digest`. -/
def integrityDigest (r : TransactionReceipt) : ContentFingerprint :=
  let streams := r.streams.map fun stream =>
    Json.arr [
      .str stream.streamId.aggregateType.value,
      .str stream.streamId.aggregateId.value,
      .num stream.baseVersion,
      .arr (stream.events.map (integrityRow r.actor.isSome))]
  ContentFingerprint.digest <| toVec <| .arr <|
    [.str (if r.actor.isSome then "rostfrei:outcome-integrity:v2"
        else "rostfrei:outcome-integrity:v1"),
      jsonText r.boundedContext,
      .str r.operationId.value,
      .str r.operationFingerprint.toHex,
      jsonText r.correlationId,
      jsonText r.causationId,
      jsonText r.securityScope] ++
    (if r.actor.isSome then [.orNull (r.actor.map ActorRef.toValue)] else []) ++
    [.arr streams]

/-- `marker_revision`. -/
def markerRevision (reference : OutcomeDetailReference) (proposal : ProposalDigest)
    (evidence : Option OutcomeEvidence) (integrity : TransactionReceipt) : OutcomeRevision :=
  sha256 <| frames [
    if reference.actor.isSome then utf8 "rostfrei:outcome-revision:v3"
      else utf8 "rostfrei:outcome-revision:v2",
    reference.encode,
    beBytes 2 proposal.version.toNat,
    proposal.digest.toList,
    toVec (.orNull (evidence.map OutcomeEvidence.toJson)),
    (integrityDigest integrity).toList]

/-- Whether a completion accepts or rejects. -/
def completionDecision (completion : Option CommandCompletion) : OutcomeDecision :=
  if completion.any (·.rejection.isSome) then .rejected else .accepted

/-- The reference to the details `bytes` of a transaction. -/
def detailReference (key : OutcomeKey) (t : EventTransaction) (bytes : Bytes) :
    OutcomeDetailReference where
  key := key
  securityScope := t.securityScope
  actor := t.actor
  decision := completionDecision t.completion
  format := actorFormat t.actor
  length := bytes.length
  digest := ContentFingerprint.digest bytes

/-- The bytes of a valid completion decode to it, under every reference to them. -/
theorem EncodedOutcomeDetails.decode_of_encode [Crates.Lawful]
    {completion : Option CommandCompletion} {bytes : Bytes} {reference : OutcomeDetailReference}
    (hvalid : ∀ c ∈ completion, c.validate = .ok ())
    (h : encode completion reference.key reference.securityScope reference.actor = .ok bytes)
    (hdecision : reference.decision = completionDecision completion)
    (hformat : reference.format = actorFormat reference.actor)
    (hlength : reference.length = bytes.length)
    (hdigest : reference.digest = ContentFingerprint.digest bytes) :
    decode reference bytes = .ok ⟨reference, completion⟩ := by
  simp only [encode, bind_eq_ok, rejectIf_eq_ok, pure_eq_ok] at h
  obtain ⟨-, hlen, hbytes⟩ := h
  set head := header completion reference.key reference.securityScope reference.actor with hhead
  have hread : (fromSlice (toVec head.toJson)).bind DetailHeader.ofJson? = some head := by
    rw [Crates.Lawful.fromSlice_toVec _ (head.fits_toJson 123), Option.bind_some,
      DetailHeader.ofJson?_toJson]
  have hsize : ofBeBytes (beBytes 4 (toVec head.toJson).length) = (toVec head.toJson).length :=
    ofBeBytes_beBytes (by omega)
  set text := toVec head.toJson with htext
  set payload := rejectionBytes completion with hpayload
  have htake : bytes.take 4 = beBytes 4 text.length := by
    rw [← hbytes, List.append_assoc]
    exact List.take_left' (length_beBytes ..)
  have hdrop : bytes.drop 4 = text ++ payload := by
    rw [← hbytes, List.append_assoc]
    exact List.drop_left' (length_beBytes ..)
  have hlong : ¬ bytes.length < 4 := by
    rw [← hbytes]
    simp only [List.length_append, length_beBytes]
    omega
  have hrestore : restoreCompletion head.completion payload = .ok completion :=
    restoreCompletion_withBytes completion
  have hcheck : checkCompletion completion = .ok () := by
    rcases hc : completion with _ | c
    · rfl
    · simp [checkCompletion, hvalid c hc, Except.mapError]
  simp only [decode, htake, hdrop, hsize, bind_eq_ok, rejectIf_eq_ok, okOr_eq_ok, pure_eq_ok]
  refine ⟨(), by simp [hformat, hlength, hdigest], (), hlong, (), by simp, head,
    by simpa using hread, (), by simp [head, header, hformat], completion,
    by simpa using hrestore, (), hcheck, (), ?_, rfl⟩
  rcases hc : completion with _ | ⟨version, evidence, _ | r⟩ <;>
    simp [rejection, hdecision, completionDecision, hc]

/-- The bytes of the details of a valid completion decode to it, under the reference to them. -/
theorem EncodedOutcomeDetails.decode_encode [Crates.Lawful] {t : EventTransaction}
    {key : OutcomeKey} {bytes : Bytes}
    (hvalid : ∀ c ∈ t.completion, c.validate = .ok ())
    (h : encode t.completion key t.securityScope t.actor = .ok bytes) :
    decode (detailReference key t bytes) bytes =
      .ok ⟨detailReference key t bytes, t.completion⟩ :=
  decode_of_encode hvalid h rfl rfl rfl rfl

/-- `OutcomeMarker::prepare`: the marker and the detail bytes. -/
def OutcomeMarker.prepare (authority : CommandAuthority) (t : EventTransaction)
    (receipt : TransactionReceipt) : Except EventStoreError (OutcomeMarker × Bytes) := do
  receipt.validateProposal t
  let context ← okOr (invalid "outcome requires context") t.boundedContext
  let key : OutcomeKey := ⟨authority, context, t.operationId⟩
  let bytes ← EncodedOutcomeDetails.encode t.completion key t.securityScope t.actor
  let reference := detailReference key t bytes
  let proposal ← ProposalDigest.of t
  -- The first timestamp is a detail, not command identity.
  let evidence := (t.completion.bind (·.evidence)).map fun e => { e with createdAtMillis := none }
  let integrity := receipt.withoutCompletion
  let revision := markerRevision reference proposal evidence integrity
  return (⟨reference, revision, proposal, evidence, integrity⟩, bytes)

/-- The marker of a transaction with the details `bytes`. -/
def OutcomeMarker.ofDetails (key : OutcomeKey) (t : EventTransaction)
    (receipt : TransactionReceipt) (bytes : Bytes) : OutcomeMarker :=
  let evidence := (t.completion.bind (·.evidence)).map fun e => { e with createdAtMillis := none }
  { reference := detailReference key t bytes
    revision := markerRevision (detailReference key t bytes) (.hash t) evidence
      receipt.withoutCompletion
    proposal := .hash t
    evidence := evidence
    integrity := receipt.withoutCompletion }

theorem OutcomeMarker.prepare_eq_ok {authority : CommandAuthority} {t : EventTransaction}
    {receipt : TransactionReceipt} {marker : OutcomeMarker} {bytes : Bytes} :
    OutcomeMarker.prepare authority t receipt = .ok (marker, bytes) ↔
      receipt.validateProposal t = .ok () ∧ (∀ b ∈ t.batches, b.actor = t.actor) ∧
        ∃ context, t.boundedContext = some context ∧
          EncodedOutcomeDetails.encode t.completion ⟨authority, context, t.operationId⟩
            t.securityScope t.actor = .ok bytes ∧
          marker = .ofDetails ⟨authority, context, t.operationId⟩ t receipt bytes := by
  rw [OutcomeMarker.prepare, bind_unit_eq_ok]
  simp only [bind_eq_ok, okOr_eq_ok, pure_eq_ok, Prod.mk.injEq, ProposalDigest.of_eq_ok]
  constructor
  · rintro ⟨hvalid, context, hc, _, hencode, _, ⟨hactors, rfl⟩, rfl, rfl⟩
    exact ⟨hvalid, hactors, context, hc, hencode, rfl⟩
  · rintro ⟨hvalid, hactors, context, hc, hencode, rfl⟩
    exact ⟨hvalid, context, hc, bytes, hencode, _, ⟨hactors, rfl⟩, rfl, rfl⟩

end Codec

end Rostfrei
