import Rostfrei.Core.Proposal
import Rostfrei.Concrete
import Rostfrei.Lib.Delimited

/-!
# The framing of a proposal

The bytes that `ProposalDigest.of` hashes determine the transaction up to its expected versions
(`proposalBytes_eq_iff`). Each part is framed by its length, so equal bytes are equal lists of
parts; and each piece of the list tells where it ends, by the tags in front of optional values,
events and participants.
-/

namespace Rostfrei

open Lib

/-! ## The pieces of the list of parts -/

theorem optionalParts_delimited : Delimited (fun _ => True) optionalParts := by
  have hstring : Delimited (fun _ => True) fun s : String => [utf8 s] :=
    .symbol fun _ _ _ _ h => utf8_inj h
  have hoption : Delimited (fun o : Option String => ∀ a ∈ o, True) optionalParts :=
    hstring.option (by decide) rfl fun _ => rfl
  exact fun a b _ _ => hoption (fun _ _ => trivial) (fun _ _ => trivial)

/-- An optional checked string. -/
theorem optionalParts_checked_inj {ε : Type} {check : String → Except ε Unit}
    {o o' : Option (CheckedString check)} {x y : List Bytes}
    (h : optionalParts (o.map (·.value)) ++ x = optionalParts (o'.map (·.value)) ++ y) :
    o = o' ∧ x = y := by
  obtain ⟨hvalue, hxy⟩ := optionalParts_delimited trivial trivial h
  exact ⟨Option.map_injective (fun _ _ => CheckedString.ext) hvalue, hxy⟩

theorem actorParts_delimited : Delimited (fun _ => True) actorParts := by
  have hactor : Delimited (fun _ => True) fun a : ActorRef => [utf8 a.ns.value, utf8 a.id.value] := by
    rintro ⟨ns, id⟩ ⟨ns', id'⟩ - - x y h
    simp only [List.cons_append, List.nil_append, List.cons.injEq] at h
    obtain ⟨hns, hid, hxy⟩ := h
    obtain rfl : ns = ns' := CheckedString.ext (utf8_inj hns)
    obtain rfl : id = id' := CheckedString.ext (utf8_inj hid)
    exact ⟨rfl, hxy⟩
  have hoption : Delimited (fun o : Option ActorRef => ∀ a ∈ o, True) actorParts :=
    hactor.option (by decide) rfl fun _ => rfl
  exact fun a b _ _ => hoption (fun _ _ => trivial) (fun _ _ => trivial)

theorem eventParts_delimited : Delimited (fun _ => True) eventParts := by
  intro e e' _ _ x y h
  simp only [eventParts, List.cons_append, List.nil_append, List.cons.injEq, true_and] at h
  obtain ⟨hid, htype, hschema, hpayload, hxy⟩ := h
  have hlt := e.schemaVersion.toNat_lt
  have hlt' := e'.schemaVersion.toNat_lt
  have hversion : e.schemaVersion = e'.schemaVersion :=
    UInt32.toNat_inj.mp (beBytes_inj (by omega) (by omega) hschema)
  exact ⟨NewEvent.ext (CheckedString.ext (utf8_inj hid)) (utf8_inj htype) hversion hpayload, hxy⟩

theorem EventBatch.ext_of {b b' : EventBatch} (hactor : b.actor = b'.actor)
    (hcommit : b.commitId = b'.commitId) (hop : b.operationId = b'.operationId)
    (hfingerprint : b.operationFingerprint = b'.operationFingerprint)
    (hevents : b.events = b'.events) (hcorrelation : b.correlationId = b'.correlationId)
    (hcausation : b.causationId = b'.causationId) : b = b' := by
  cases b; cases b'; simp_all

/-- The batches of one actor. -/
theorem batchParts_delimited (actor : Option ActorRef) :
    Delimited (fun b : EventBatch => b.actor = actor) (batchParts actor.isSome) := by
  intro b b' hb hb' x y h
  simp only [batchParts, List.cons_append, List.nil_append, List.append_assoc, List.cons.injEq,
    true_and] at h
  obtain ⟨hcommit, hop, hfingerprint, h⟩ := h
  obtain ⟨hcorrelation, h⟩ := optionalParts_checked_inj h
  obtain ⟨hcausation, h⟩ := optionalParts_checked_inj h
  rw [hb, hb', List.append_cancel_left_eq] at h
  have hlist : Delimited (fun l : List NewEvent => ∀ e ∈ l, True)
      fun l => l.flatMap eventParts ++ [utf8 "end-batch"] :=
    eventParts_delimited.list (by decide) fun _ => rfl
  obtain ⟨hevents, hxy⟩ := hlist (fun _ _ => trivial) (fun _ _ => trivial)
    (by simpa only [List.append_assoc, List.cons_append, List.nil_append] using h)
  exact ⟨EventBatch.ext_of (hb.trans hb'.symm) (CheckedString.ext (utf8_inj hcommit))
    (CheckedString.ext (utf8_inj hop)) (Vector.toList_inj.mp hfingerprint) hevents hcorrelation
    hcausation, hxy⟩

/-- What a proposal says of a participant: all but the expected version. -/
def TransactionParticipant.place (p : TransactionParticipant) : StreamId × Option EventBatch :=
  (p.streamId, p.batch)

def placeParts (attributed : Bool) (place : StreamId × Option EventBatch) : List Bytes :=
  participantParts attributed ⟨place.1, .noStream, place.2⟩

theorem flatMap_participantParts (attributed : Bool) (participants : List TransactionParticipant) :
    participants.flatMap (participantParts attributed) =
      (participants.map (·.place)).flatMap (placeParts attributed) := by
  rw [List.flatMap_map]
  rfl

theorem placeParts_delimited (actor : Option ActorRef) :
    Delimited (fun p : StreamId × Option EventBatch => ∀ b ∈ p.2, b.actor = actor)
      (placeParts actor.isSome) := by
  rintro ⟨⟨type, id⟩, batch⟩ ⟨⟨type', id'⟩, batch'⟩ hb hb' x y h
  have hoption : Delimited (fun o : Option EventBatch => ∀ b ∈ o, b.actor = actor) fun o =>
      (placeParts actor.isSome (⟨type, id⟩, o)).drop 3 := by
    have htail : Delimited (fun b : EventBatch => b.actor = actor) fun b =>
        (batchParts actor.isSome b).tail := fun b b' hb hb' x y h =>
      batchParts_delimited actor hb hb' (congrArg (utf8 "batch" :: ·) h)
    exact htail.option (show utf8 "guard" ≠ utf8 "batch" by decide) rfl fun _ => rfl
  simp only [placeParts, participantParts, List.cons_append, List.nil_append, List.cons.injEq,
    true_and] at h
  obtain ⟨htype, hid, h⟩ := h
  obtain rfl : type = type' := CheckedString.ext (utf8_inj htype)
  obtain rfl : id = id' := CheckedString.ext (utf8_inj hid)
  obtain ⟨rfl, hxy⟩ := hoption hb hb' h
  exact ⟨rfl, hxy⟩

/-! ## The lengths of the parts -/

/-- The length of the text of each kind of checked string is bounded. -/
theorem validateIdentifier_length {field value : String}
    (h : validateIdentifier field value = .ok ()) : strLen value ≤ maxIdentifierBytes := by
  simp only [validateIdentifier, bind_unit_eq_ok, rejectIf_eq_ok] at h
  exact Nat.not_lt.mp h.2.1

theorem validateScopeName_length {field value : String}
    (h : validateScopeName field value = .ok ()) : strLen value ≤ maxScopeNameBytes := by
  simp only [validateScopeName, bind_unit_eq_ok, rejectIf_eq_ok] at h
  exact Nat.not_lt.mp h.2.1

theorem validateActorPart_length {field value : String} {maximum : Nat}
    (h : validateActorPart field maximum value = .ok ()) : strLen value ≤ maximum := by
  simp only [validateActorPart, bind_unit_eq_ok, rejectIf_eq_ok] at h
  exact Nat.not_lt.mp h.2.1

theorem validateEventType_length {value : String} (h : validateEventType value = .ok ()) :
    strLen value ≤ maxEventTypeLen := by
  simp only [validateEventType, bind_unit_eq_ok, rejectIf_eq_ok] at h
  exact Nat.not_lt.mp h.2.1

/-- A part whose length fits in its 8 bytes. -/
def FitsFrame (part : Bytes) : Prop := part.length < 2 ^ 64

theorem fitsFrame_utf8 {s : String} {maximum : Nat} (h : strLen s ≤ maximum)
    (hmax : maximum < 2 ^ 64) : FitsFrame (utf8 s) := by
  unfold FitsFrame
  rw [length_utf8]
  exact Nat.lt_of_le_of_lt h hmax

theorem fitsFrame_optional {ε : Type} {check : String → Except ε Unit} (maximum : Nat)
    (hmax : maximum < 2 ^ 64) (hcheck : ∀ value, check value = .ok () → strLen value ≤ maximum)
    (o : Option (CheckedString check)) : ∀ p ∈ optionalParts (o.map (·.value)), FitsFrame p := by
  have htag : FitsFrame (utf8 "some") ∧ FitsFrame (utf8 "none") := by
    constructor <;> exact show _ < _ by decide
  cases o with
  | none => simpa [optionalParts] using htag.2
  | some s =>
    simpa [optionalParts] using ⟨htag.1, fitsFrame_utf8 (hcheck s.value s.valid) hmax⟩

theorem fitsFrame_actorParts (o : Option ActorRef) : ∀ p ∈ actorParts o, FitsFrame p := by
  have htag : FitsFrame (utf8 "some") ∧ FitsFrame (utf8 "none") := by
    constructor <;> exact show _ < _ by decide
  cases o with
  | none => simpa [actorParts] using htag.2
  | some a =>
    simpa [actorParts] using ⟨htag.1, fitsFrame_utf8 (validateActorPart_length a.ns.valid) (by decide),
      fitsFrame_utf8 (validateActorPart_length a.id.valid) (by decide)⟩

theorem fitsFrame_identifier {field : String}
    (o : Option (CheckedString (validateIdentifier field))) :
    ∀ p ∈ optionalParts (o.map (·.value)), FitsFrame p :=
  fitsFrame_optional maxIdentifierBytes (by decide) (fun _ => validateIdentifier_length) o

theorem fitsFrame_digest (d : Digest) : FitsFrame d.toList := by
  simp [FitsFrame]

theorem fitsFrame_eventParts (e : NewEvent) : ∀ p ∈ eventParts e, FitsFrame p := by
  have hpayload : FitsFrame e.payload := Nat.lt_of_le_of_lt e.payload_le (by decide)
  have htag : FitsFrame (utf8 "event") := show _ < _ by decide
  have hschema : FitsFrame (beBytes 4 e.schemaVersion.toNat) := by simp [FitsFrame]
  simpa [eventParts] using ⟨htag, fitsFrame_utf8 (validate_length e.eventId.valid) (by decide),
    fitsFrame_utf8 (validateEventType_length e.eventType_valid) (by decide), hschema, hpayload⟩

theorem fitsFrame_batchParts (attributed : Bool) (b : EventBatch) :
    ∀ p ∈ batchParts attributed b, FitsFrame p := by
  have htag : FitsFrame (utf8 "batch") := show _ < _ by decide
  have hend : FitsFrame (utf8 "end-batch") := show _ < _ by decide
  have hactor : ∀ p ∈ if attributed then actorParts b.actor else [], FitsFrame p := by
    split
    · exact fitsFrame_actorParts b.actor
    · simp
  have hevents : ∀ p ∈ b.events.flatMap eventParts, FitsFrame p := by
    intro p hp
    obtain ⟨e, -, hpe⟩ := List.mem_flatMap.mp hp
    exact fitsFrame_eventParts e p hpe
  simp only [batchParts, List.forall_mem_append, List.forall_mem_cons, List.not_mem_nil,
    false_imp_iff, implies_true, and_true]
  exact ⟨⟨⟨⟨⟨⟨htag, fitsFrame_utf8 (validate_length b.commitId.valid) (by decide),
    fitsFrame_utf8 (validate_length b.operationId.valid) (by decide), fitsFrame_digest _⟩,
    fitsFrame_identifier _⟩, fitsFrame_identifier _⟩, hactor⟩, hevents⟩, hend⟩

theorem fitsFrame_participantParts (attributed : Bool) (q : TransactionParticipant) :
    ∀ p ∈ participantParts attributed q, FitsFrame p := by
  have htag : FitsFrame (utf8 "participant") := show _ < _ by decide
  have hguard : FitsFrame (utf8 "guard") := show _ < _ by decide
  have htype := fitsFrame_utf8 (validate_length q.streamId.aggregateType.valid) (by decide)
  have hid := fitsFrame_utf8 (validate_length q.streamId.aggregateId.valid) (by decide)
  simp only [participantParts, List.forall_mem_append, List.forall_mem_cons, List.not_mem_nil,
    false_imp_iff, implies_true, and_true]
  refine ⟨⟨htag, htype, hid⟩, ?_⟩
  cases q.batch with
  | none => simpa using hguard
  | some b => exact fitsFrame_batchParts attributed b

section Proposal

variable [Crates]

theorem fitsFrame_proposalParts {t : EventTransaction}
    (hsize : FitsFrame (completionBytes t.completion)) :
    ∀ p ∈ proposalParts t, FitsFrame p := by
  have hlabel : FitsFrame (if t.actor.isSome then utf8 "rostfrei:proposal:v2"
      else utf8 "rostfrei:proposal:v1") := by
    split <;> exact show _ < _ by decide
  have hend : FitsFrame (utf8 "end-proposal") := show _ < _ by decide
  have hcontext := fitsFrame_optional maxScopeNameBytes (by decide)
    (fun _ => validateScopeName_length) t.boundedContext
  have hscope := fitsFrame_optional 256 (by decide) (fun _ => validate_length) t.securityScope
  have hactor : ∀ p ∈ if t.actor.isSome then actorParts t.actor else [], FitsFrame p := by
    split
    · exact fitsFrame_actorParts t.actor
    · simp
  have hparticipants : ∀ p ∈ t.participants.flatMap (participantParts t.actor.isSome),
      FitsFrame p := by
    intro p hp
    obtain ⟨q, -, hpq⟩ := List.mem_flatMap.mp hp
    exact fitsFrame_participantParts _ q p hpq
  simp only [proposalParts, headParts, List.forall_mem_append, List.forall_mem_cons,
    List.not_mem_nil, false_imp_iff, implies_true, and_true]
  exact ⟨⟨⟨⟨⟨⟨⟨⟨⟨hlabel, hcontext⟩, fitsFrame_utf8 (validate_length t.operationId.valid) (by decide),
    fitsFrame_digest _⟩, fitsFrame_identifier _⟩, fitsFrame_identifier _⟩, hscope⟩, hactor⟩,
    hsize⟩, hparticipants⟩, hend⟩

/-! ## The bytes and the transaction -/

/-- Everything but the expected versions. -/
structure SameProposal (t t' : EventTransaction) : Prop where
  actor : t.actor = t'.actor
  securityScope : t.securityScope = t'.securityScope
  completion : t.completion = t'.completion
  boundedContext : t.boundedContext = t'.boundedContext
  operationId : t.operationId = t'.operationId
  operationFingerprint : t.operationFingerprint = t'.operationFingerprint
  correlationId : t.correlationId = t'.correlationId
  causationId : t.causationId = t'.causationId
  participants : t.participants.map (·.place) = t'.participants.map (·.place)

/-- The bytes that `ProposalDigest.of` hashes. -/
def proposalBytes (t : EventTransaction) : Bytes := frames (proposalParts t)

theorem SameProposal.parts_eq {t t' : EventTransaction} (h : SameProposal t t') :
    proposalParts t = proposalParts t' := by
  simp only [proposalParts, headParts, flatMap_participantParts, h.actor, h.securityScope,
    h.completion, h.boundedContext, h.operationId, h.operationFingerprint, h.correlationId,
    h.causationId, h.participants]

/-- The text of a completion determines it. -/
theorem completionBytes_inj [Crates.Lawful] {c c' : Option CommandCompletion}
    (h : completionBytes c = completionBytes c') : c = c' := by
  have hfits : ∀ c : Option CommandCompletion,
      (Json.orNull (c.map CommandCompletion.toJson)).Fits maxJsonDepth :=
    fun c => Json.fits_orNull fun x _ => x.fits_toJson 124
  have hjson := toVec_inj (hfits c) (hfits c') h
  have hread : ∀ c : Option CommandCompletion, Json.optionalOf CommandCompletion.ofJson?
      (some (.orNull (c.map CommandCompletion.toJson))) = some c := fun c =>
    Json.optionalOf_orNull c CommandCompletion.ofJson?_toJson CommandCompletion.toJson_ne_null
  have := hread c
  rw [hjson, hread c'] at this
  exact (Option.some.inj this).symm

theorem ProposalDigest.digest_of {t : EventTransaction} {d : ProposalDigest}
    (h : ProposalDigest.of t = .ok d) : d.digest = sha256 (proposalBytes t) := by
  rw [(ProposalDigest.of_eq_ok.mp h).2]
  rfl

/-- Equal lists of parts come from the same proposal. -/
theorem sameProposal_of_parts [Crates.Lawful] {t t' : EventTransaction}
    (hb : ∀ b ∈ t.batches, b.actor = t.actor) (hb' : ∀ b ∈ t'.batches, b.actor = t'.actor)
    (h : proposalParts t = proposalParts t') : SameProposal t t' := by
  simp only [proposalParts, headParts, List.append_assoc, List.cons_append, List.nil_append,
    List.cons.injEq] at h
  obtain ⟨hlabel, h⟩ := h
  have hattributed : t.actor.isSome = t'.actor.isSome := by
    by_contra hne
    cases hs : t.actor.isSome <;> cases hs' : t'.actor.isSome <;> rw [hs, hs'] at hlabel hne <;>
      first | exact hne rfl | exact absurd hlabel (by decide)
  obtain ⟨hcontext, h⟩ := optionalParts_checked_inj h
  obtain ⟨hop, hfingerprint, h⟩ := by simpa only [List.cons.injEq] using h
  obtain ⟨hcorrelation, h⟩ := optionalParts_checked_inj h
  obtain ⟨hcausation, h⟩ := optionalParts_checked_inj h
  obtain ⟨hscope, h⟩ := optionalParts_checked_inj h
  have hactor : t.actor = t'.actor ∧
      completionBytes t.completion :: (t.participants.flatMap (participantParts t.actor.isSome) ++
        [utf8 "end-proposal"]) =
      completionBytes t'.completion ::
        (t'.participants.flatMap (participantParts t'.actor.isSome) ++ [utf8 "end-proposal"]) := by
    by_cases hs : t.actor.isSome
    · rw [if_pos hs, if_pos (hattributed ▸ hs)] at h
      exact actorParts_delimited trivial trivial h
    · rw [if_neg hs, if_neg (hattributed ▸ hs)] at h
      have hs' : ¬ t'.actor.isSome := hattributed ▸ hs
      rw [Option.not_isSome_iff_eq_none] at hs hs'
      exact ⟨hs.trans hs'.symm, h⟩
  obtain ⟨hactor, h⟩ := hactor
  obtain ⟨hcompletion, h⟩ := List.cons.inj h
  rw [flatMap_participantParts, flatMap_participantParts, ← hactor] at h
  have hplaces : ∀ s : EventTransaction, (∀ b ∈ s.batches, b.actor = t.actor) →
      ∀ p ∈ s.participants.map (·.place), ∀ b ∈ p.2, b.actor = t.actor := by
    intro s hs p hp b hbp
    obtain ⟨q, hq, rfl⟩ := List.mem_map.mp hp
    exact hs b (List.mem_filterMap.mpr ⟨q, hq, hbp⟩)
  have hlist := (placeParts_delimited t.actor).list
    (show utf8 "participant" ≠ utf8 "end-proposal" by decide) fun _ => rfl
  have hparticipants := hlist.inj (hplaces t hb) (hplaces t' fun b hbt => hactor ▸ hb' b hbt) h
  exact ⟨hactor, hscope, completionBytes_inj hcompletion, hcontext,
    CheckedString.ext (utf8_inj hop), Vector.toList_inj.mp hfingerprint, hcorrelation, hcausation,
    hparticipants⟩

/-- The hashed bytes of two transactions are equal if and only if the transactions agree on
everything but the expected versions. -/
theorem proposalBytes_eq_iff [Crates.Lawful] {t t' : EventTransaction} {d d' : ProposalDigest}
    (h : ProposalDigest.of t = .ok d) (h' : ProposalDigest.of t' = .ok d')
    (hsize : FitsFrame (completionBytes t.completion))
    (hsize' : FitsFrame (completionBytes t'.completion)) :
    proposalBytes t = proposalBytes t' ↔ SameProposal t t' := by
  constructor
  · intro heq
    have hparts := frames_inj (fitsFrame_proposalParts hsize) (fitsFrame_proposalParts hsize') heq
    exact sameProposal_of_parts (ProposalDigest.of_eq_ok.mp h).1 (ProposalDigest.of_eq_ok.mp h').1
      hparts
  · intro hsame
    rw [proposalBytes, proposalBytes, hsame.parts_eq]

end Proposal

namespace Sample

attribute [local instance] Crates.concrete

/-- The decision to open the account, expecting a version of its stream. -/
def opening (expected : ExpectedVersion) : EventTransaction :=
  { decision with participants := [⟨stream, expected, some batch⟩] }

/-- Openings that expect different versions hash the same bytes. -/
theorem proposalBytes_eq_iff_opening :
    proposalBytes (opening .noStream) = proposalBytes (opening (.exact 3)) := by
  have hof : ∀ expected, ProposalDigest.of (opening expected) = .ok (.hash (opening expected)) :=
    fun _ => ProposalDigest.of_eq_ok.mpr ⟨by simp [opening, EventTransaction.batches]; rfl, rfl⟩
  have hsize : ∀ expected, FitsFrame (completionBytes (opening expected).completion) :=
    fun _ => show (completionBytes decision.completion).length < 2 ^ 64 by decide +kernel
  have := Crates.concrete_lawful
  exact (proposalBytes_eq_iff (hof _) (hof _) (hsize _) (hsize _)).mpr
    ⟨rfl, rfl, rfl, rfl, rfl, rfl, rfl, rfl, rfl⟩

end Sample

end Rostfrei
