import Rostfrei.Core.Framing
import Rostfrei.Runtime.Encoding

/-!
# Message ids and fingerprints identify

The digests of an encoded command are of framed parts, and the parts determine what they were made
of: the label tells whether there is an actor, and a missing causation is an empty part, which no
causation is. So, where SHA-256 does not collide on what was hashed, message ids and fingerprints
are equal exactly for equal fields (`messageId_eq_iff`).
-/

namespace Rostfrei.Runtime

open Lib Messaging

section Identity

variable [Crates]

/-! ## Parts -/

theorem executionParts_inj {context context' : String} {c c' : RoutedCommand}
    {actor actor' : Option ActorRef}
    (h : executionParts context c actor = executionParts context' c' actor') :
    context = context' ∧ c.command = c'.command ∧ c.schemaVersion = c'.schemaVersion ∧
      canonicalJsonBytes c.payload = canonicalJsonBytes c'.payload ∧
      c.eventsCausedByCommand = c'.eventsCausedByCommand ∧ actor = actor' := by
  have hversion : beBytes 4 c.schemaVersion.toNat = beBytes 4 c'.schemaVersion.toNat →
      c.schemaVersion = c'.schemaVersion := fun h => by
    have hlt := c.schemaVersion.toNat_lt
    have hlt' := c'.schemaVersion.toNat_lt
    exact UInt32.toNat_inj.mp (beBytes_inj (by omega) (by omega) h)
  have hcaused : ∀ b b' : Bool, [b.toUInt8] = [b'.toUInt8] → b = b' := by decide
  cases actor with
  | none =>
    cases actor' with
    | none =>
      simp only [executionParts, List.cons.injEq, true_and, and_true] at h
      obtain ⟨hcontext, hcommand, hschema, hpayload, hevents⟩ := h
      exact ⟨utf8_inj hcontext, utf8_inj hcommand, hversion hschema, hpayload,
        hcaused _ _ (by simpa using hevents), rfl⟩
    | some actor' =>
      have hlabel : utf8 "rostfrei:command-execution:v2" = utf8 "rostfrei:command-execution:v3" :=
        (List.cons.inj h).1
      exact absurd hlabel (by decide)
  | some actor =>
    cases actor' with
    | none =>
      have hlabel : utf8 "rostfrei:command-execution:v3" = utf8 "rostfrei:command-execution:v2" :=
        (List.cons.inj h).1
      exact absurd hlabel (by decide)
    | some actor' =>
      simp only [executionParts, Option.isSome_some, List.cons_append, List.nil_append,
        List.cons.injEq, true_and, and_true] at h
      obtain ⟨hcontext, hcommand, hschema, hpayload, hevents, hns, hid⟩ := h
      obtain ⟨ns, id⟩ := actor
      obtain ⟨ns', id'⟩ := actor'
      obtain rfl : ns = ns' := CheckedString.ext (utf8_inj hns)
      obtain rfl : id = id' := CheckedString.ext (utf8_inj hid)
      exact ⟨utf8_inj hcontext, utf8_inj hcommand, hversion hschema, hpayload,
        hcaused _ _ (by simpa using hevents), rfl⟩

/-- The framings with and without an actor differ in their first part. -/
theorem frames_executionParts_ne (context context' : String) (c c' : RoutedCommand)
    (actor : ActorRef) :
    frames (executionParts context c (some actor)) ≠ frames (executionParts context' c' none) := by
  intro h
  have hlength : (utf8 "rostfrei:command-execution:v3").length < 2 ^ 64 ∧
      (utf8 "rostfrei:command-execution:v2").length < 2 ^ 64 := by
    decide
  have hlabel : utf8 "rostfrei:command-execution:v3" = utf8 "rostfrei:command-execution:v2" :=
    (frame_append_inj hlength.1 hlength.2 h).1
  exact absurd hlabel (by decide)

omit [Crates] in
theorem causationPart_inj {c c' : Option CausationId}
    (h : (match c with | some c => utf8 c.value | none => []) =
      match c' with | some c => utf8 c.value | none => []) : c = c' := by
  have hne : ∀ c : CausationId, utf8 c.value ≠ [] := by
    intro c hnil
    have hempty : c.value = "" := utf8_inj (hnil.trans (by decide))
    have hvalid := c.valid
    simp only [validateIdentifier, bind_unit_eq_ok, rejectIf_eq_ok] at hvalid
    exact hvalid.1 hempty
  cases c with
  | none =>
    cases c' with
    | none => rfl
    | some c' => exact absurd h.symm (hne c')
  | some c =>
    cases c' with
    | none => exact absurd h (hne c)
    | some c' => rw [CheckedString.ext (utf8_inj h)]

omit [Crates] in
theorem messageParts_inj {address address' : CommandAddress}
    {operationId operationId' : Messaging.OperationId} {fingerprint fingerprint' : ContentFingerprint}
    {correlationId correlationId' : CorrelationId} {causationId causationId' : Option CausationId}
    (h : messageParts address operationId fingerprint correlationId causationId =
      messageParts address' operationId' fingerprint' correlationId' causationId') :
    address = address' ∧ operationId = operationId' ∧ fingerprint = fingerprint' ∧
      correlationId = correlationId' ∧ causationId = causationId' := by
  simp only [messageParts, List.cons.injEq, true_and, and_true] at h
  obtain ⟨haddress, hoperation, hfingerprint, hcorrelation, hcausation⟩ := h
  exact ⟨Address.ext (utf8_inj haddress), CheckedString.ext (utf8_inj hoperation),
    Vector.toList_inj.mp hfingerprint, CheckedString.ext (utf8_inj hcorrelation),
    causationPart_inj hcausation⟩

/-! ## Lengths -/

omit [Crates] in
theorem fitsFrame_messageParts (address : CommandAddress) (operationId : Messaging.OperationId)
    (fingerprint : ContentFingerprint) (correlationId : CorrelationId)
    (causationId : Option CausationId) :
    ∀ p ∈ messageParts address operationId fingerprint correlationId causationId, FitsFrame p := by
  have hlabel : FitsFrame (utf8 "rostfrei:command-message:v1") := show _ < _ by decide
  have hidentifier : ∀ {field : String} (x : CheckedString (validateIdentifier field)),
      FitsFrame (utf8 x.value) := fun x =>
    fitsFrame_utf8 (validateIdentifier_length x.valid) (by decide)
  have hcausation : FitsFrame (match causationId with | some c => utf8 c.value | none => []) := by
    cases causationId with
    | none => exact show _ < _ by decide
    | some c => exact hidentifier c
  simpa [messageParts] using ⟨hlabel, fitsFrame_utf8 address.strLen_le (by decide),
    hidentifier operationId, fitsFrame_digest fingerprint, hidentifier correlationId, hcausation⟩

variable [Crates.Compact] {bus bus' : CommandBus} {r r' : DynamicCommandRequest}
  {e e' : EncodedCommand} {envelope envelope' : CommandEnvelope RoutedCommand}

/-- The text of the payload is part of the text of the envelope. -/
theorem Encodes.payload_length_le (h : Encodes bus r e envelope) :
    (canonicalJsonBytes r.payload).length ≤ maxEnvelopeBytes := by
  have hpayload : envelope.payload = r.routed := by rw [h.envelope_eq]
  have hsize := (CommandEnvelope.build_eq_ok.mp h.built).2.2
  have hrouted : (toVec r.routed.toJson).length ≤
      (toVec (envelope.toJson RoutedCommand.toJson)).length :=
    length_toVec_field_le (f := ("payload", r.routed.toJson)) (List.mem_filterMap.mpr
      ⟨("payload", some r.routed.toJson), by simp [CommandEnvelope.fields, hpayload], rfl⟩)
  have hvalue : (toVec r.payload).length ≤ (toVec r.routed.toJson).length :=
    length_toVec_field_le (f := ("payload", r.payload)) (List.mem_filterMap.mpr
      ⟨("payload", some r.payload), by simp [RoutedCommand.fields, DynamicCommandRequest.routed],
        rfl⟩)
  rw [canonicalJsonBytes, writeValue_eq, length_toVec_canonical]
  omega

theorem Encodes.fitsFrame_executionParts (h : Encodes bus r e envelope) :
    ∀ p ∈ executionParts bus.context.name.value r.routed r.actor, FitsFrame p := by
  have hlabel : ∀ b : Bool, FitsFrame (if b then utf8 "rostfrei:command-execution:v3"
      else utf8 "rostfrei:command-execution:v2") := by
    intro b
    cases b <;> exact show _ < _ by decide
  have hcontext : FitsFrame (utf8 bus.context.name.value) :=
    fitsFrame_utf8 (validateScopeName_length bus.context.name.valid) (by decide)
  have hcommand : FitsFrame (utf8 r.command) := by
    have haddress := Address.newInScope_eq_ok.mp h.address
    simp only [buildAddress, bind_unit_eq_ok] at haddress
    exact fitsFrame_utf8 (validateScopeName_length haddress.2.2.1) (by decide)
  have hschema : FitsFrame (beBytes 4 r.schemaVersion.toNat) := by simp [FitsFrame]
  have hpayload : FitsFrame (canonicalJsonBytes r.payload) :=
    Nat.lt_of_le_of_lt h.payload_length_le (by decide)
  have hcaused : FitsFrame [r.eventsCausedByCommand.toUInt8] := show _ < _ by simp
  unfold executionParts
  cases hactor : r.actor with
  | none =>
    simpa [DynamicCommandRequest.routed] using
      ⟨hlabel false, hcontext, hcommand, hschema, hpayload, hcaused⟩
  | some actor =>
    simpa [DynamicCommandRequest.routed] using
      ⟨hlabel true, hcontext, hcommand, hschema, hpayload, hcaused,
        fitsFrame_utf8 (validateActorPart_length actor.ns.valid) (by decide),
        fitsFrame_utf8 (validateActorPart_length actor.id.valid) (by decide)⟩

/-! ## Equal digests -/

/-- What is hashed to encode a command. -/
def hashedInputs (bus : CommandBus) (r : DynamicCommandRequest) (e : EncodedCommand) : Set Bytes :=
  {frames (executionParts bus.context.name.value r.routed r.actor),
    frames (messageParts e.message.address e.operationId e.fingerprint e.correlationId
      r.causationId)}

/-- Texts of values determine them up to the order of keys. -/
theorem canonical_eq_of_bytes (h : canonicalJsonBytes r.payload = canonicalJsonBytes r'.payload) :
    r.payload.canonical = r'.payload.canonical := by
  obtain ⟨d, hd⟩ := r.payload_fits
  obtain ⟨d', hd'⟩ := r'.payload_fits
  rw [canonicalJsonBytes, canonicalJsonBytes, writeValue_eq, writeValue_eq] at h
  exact Crates.Compact.toVec_injective
    ((Json.fits_canonical _ _).mpr (hd.mono (Nat.le_max_left d d')))
    ((Json.fits_canonical _ _).mpr (hd'.mono (Nat.le_max_right d d'))) h

/-- The fields that a fingerprint is made of, with the payload up to the order of its keys. -/
def SameExecution (bus bus' : CommandBus) (r r' : DynamicCommandRequest) : Prop :=
  bus.context.name = bus'.context.name ∧ r.command = r'.command ∧
    r.schemaVersion = r'.schemaVersion ∧ r.payload.canonical = r'.payload.canonical ∧
    r.eventsCausedByCommand = r'.eventsCausedByCommand ∧ r.actor = r'.actor

theorem fingerprint_eq_iff_sameExecution (h : Encodes bus r e envelope)
    (h' : Encodes bus' r' e' envelope')
    (hfree : CollisionFree (hashedInputs bus r e ∪ hashedInputs bus' r' e')) :
    e.fingerprint = e'.fingerprint ↔ SameExecution bus bus' r r' := by
  rw [h.fingerprint, h'.fingerprint]
  constructor
  · intro heq
    have hbytes := hfree (.inl (.inl rfl)) (.inr (.inl rfl)) heq
    have hparts := frames_inj h.fitsFrame_executionParts h'.fitsFrame_executionParts hbytes
    obtain ⟨hcontext, hcommand, hschema, hpayload, hcaused, hactor⟩ := executionParts_inj hparts
    exact ⟨CheckedString.ext hcontext, hcommand, hschema, canonical_eq_of_bytes hpayload, hcaused,
      hactor⟩
  · rintro ⟨hcontext, hcommand, hschema, hpayload, hcaused, hactor⟩
    have hbytes : canonicalJsonBytes r.payload = canonicalJsonBytes r'.payload := by
      rw [canonicalJsonBytes, canonicalJsonBytes, writeValue_eq, writeValue_eq, hpayload]
    simp only [routedCommandExecutionFingerprint, executionParts, DynamicCommandRequest.routed,
      hcontext, hcommand, hschema, hbytes, hcaused, hactor]

/-- Message ids, framings and fingerprints of two encoded commands. -/
theorem messageId_eq_iff {clock clock' : Int} (h : bus.encodeDynamic clock r = .ok e)
    (h' : bus'.encodeDynamic clock' r' = .ok e')
    (hfree : CollisionFree (hashedInputs bus r e ∪ hashedInputs bus' r' e')) :
    (e.message.messageId = e'.message.messageId ↔
      e.message.address = e'.message.address ∧ e.operationId = e'.operationId ∧
        e.fingerprint = e'.fingerprint ∧ e.correlationId = e'.correlationId ∧
        r.causationId = r'.causationId ∧ e.actor = e'.actor) ∧
    (e.actor.isSome ≠ e'.actor.isSome →
      frames (executionParts bus.context.name.value r.routed r.actor) ≠
        frames (executionParts bus'.context.name.value r'.routed r'.actor)) ∧
    (e.fingerprint = e'.fingerprint ↔ SameExecution bus bus' r r') := by
  obtain ⟨envelope, hencodes⟩ := encodes_of_encodeDynamic h
  obtain ⟨envelope', hencodes'⟩ := encodes_of_encodeDynamic h'
  have hactor : e.actor = r.actor := by rw [hencodes.command]
  have hactor' : e'.actor = r'.actor := by rw [hencodes'.command]
  have hfingerprint := fingerprint_eq_iff_sameExecution hencodes hencodes' hfree
  have hid : ∀ {bus : CommandBus} {r : DynamicCommandRequest} {e : EncodedCommand}
      {envelope : CommandEnvelope RoutedCommand}, Encodes bus r e envelope →
        e.message.messageId.value = (framedFingerprint (messageParts e.message.address e.operationId
          e.fingerprint e.correlationId r.causationId)).toHex := fun h => by
    have hmessage := h.messageId
    simp only [commandMessageId, mapError_eq_ok] at hmessage
    exact CheckedString.value_of_new hmessage
  refine ⟨⟨fun heq => ?_, ?_⟩, ?_, hfingerprint⟩
  · have hdigest : framedFingerprint _ = framedFingerprint _ := ContentFingerprint.toHex_inj
      ((hid hencodes).symm.trans ((congrArg CheckedString.value heq).trans (hid hencodes')))
    have hbytes := hfree (.inl (.inr rfl)) (.inr (.inr rfl)) hdigest
    have hparts := frames_inj (fitsFrame_messageParts _ _ _ _ _) (fitsFrame_messageParts _ _ _ _ _)
      hbytes
    obtain ⟨haddress, hoperation, hdigests, hcorrelation, hcausation⟩ := messageParts_inj hparts
    refine ⟨haddress, hoperation, hdigests, hcorrelation, hcausation, ?_⟩
    rw [hactor, hactor']
    exact (hfingerprint.mp hdigests).2.2.2.2.2
  · rintro ⟨haddress, hoperation, hdigests, hcorrelation, hcausation, -⟩
    refine CheckedString.ext ?_
    rw [hid hencodes, hid hencodes', haddress, hoperation, hdigests, hcorrelation, hcausation]
  · rw [hactor, hactor']
    intro hne
    cases ha : r.actor with
    | none =>
      cases ha' : r'.actor with
      | none => simp [ha, ha'] at hne
      | some actor => exact (frames_executionParts_ne _ _ _ _ actor).symm
    | some actor =>
      cases ha' : r'.actor with
      | none => exact frames_executionParts_ne _ _ _ _ actor
      | some actor' => simp [ha, ha'] at hne

end Identity

namespace Sample

attribute [local instance] Crates.concrete

def clerk : ActorRef := ⟨⟨"staff", by decide +kernel⟩, ⟨"clerk", by decide +kernel⟩⟩

/-- What is hashed for a request. -/
def inputsOf (r : DynamicCommandRequest) (e : EncodedCommand) : List Bytes :=
  [frames (executionParts bus.context.name.value r.routed r.actor),
    frames (messageParts e.message.address e.operationId e.fingerprint e.correlationId
      r.causationId)]

/-- A request by an actor has another message id than the same request by none. -/
theorem messageId_eq_iff_clerk : ∃ e e', bus.encodeDynamic 0 (request 0 none) = .ok e ∧
    bus.encodeDynamic 0 (request 0 (some clerk)) = .ok e' ∧
    e.message.messageId ≠ e'.message.messageId := by
  have := Crates.concrete_compact
  obtain ⟨e, h⟩ := exists_ok (x := bus.encodeDynamic 0 (request 0 none)) (by decide +kernel)
  obtain ⟨e', h'⟩ := exists_ok (x := bus.encodeDynamic 0 (request 0 (some clerk)))
    (by decide +kernel)
  have hnodup : ((inputsOf (request 0 none) e ++ inputsOf (request 0 (some clerk)) e').map
      sha256).Nodup := by
    have hdigests : ((bus.encodeDynamic 0 (request 0 none)).toOption.bind fun e =>
        (bus.encodeDynamic 0 (request 0 (some clerk))).toOption.map fun e' =>
          decide ((inputsOf (request 0 none) e ++ inputsOf (request 0 (some clerk)) e').map
            sha256).Nodup) = some true := by
      decide +kernel
    rw [h, h'] at hdigests
    simpa [Except.toOption] using hdigests
  have hfree : CollisionFree (hashedInputs bus (request 0 none) e ∪
      hashedInputs bus (request 0 (some clerk)) e') := by
    have hmem : ∀ x ∈ hashedInputs bus (request 0 none) e ∪
        hashedInputs bus (request 0 (some clerk)) e',
          x ∈ inputsOf (request 0 none) e ++ inputsOf (request 0 (some clerk)) e' := by
      rintro x ((rfl | rfl) | (rfl | rfl)) <;> simp [inputsOf]
    exact fun x hx y hy heq => List.inj_on_of_nodup_map hnodup (hmem x hx) (hmem y hy) heq
  obtain ⟨envelope, hencodes⟩ := encodes_of_encodeDynamic h
  obtain ⟨envelope', hencodes'⟩ := encodes_of_encodeDynamic h'
  have hactor : e.actor = none := by rw [hencodes.command]; rfl
  have hactor' : e'.actor = some clerk := by rw [hencodes'.command]; rfl
  refine ⟨e, e', h, h', fun heq => ?_⟩
  have hsame := ((messageId_eq_iff h h' hfree).1.mp heq).2.2.2.2.2
  rw [hactor, hactor'] at hsame
  cases hsame

end Sample

end Rostfrei.Runtime
