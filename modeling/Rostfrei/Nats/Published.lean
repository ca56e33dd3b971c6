import Rostfrei.Nats.ResponseStream

/-!
# Published responses

Any number of `prepare` and `publish` calls on one stream, in any order: a prepared response may be
published again and again, by several callers at once, and acknowledgements may be lost. A prepared
response that was not observed in the stream is `Sendable` (`prepareCommandResponse_ends`), so the
stream keeps its invariant, and `publish` answers only with a record that it has read
(`publish_ends`).
-/

namespace Rostfrei.Nats

open Lib Lib.Program Messaging Rostfrei.Runtime ResponseStream

section Prepared

variable [Crates] [TokenText] {decodeOutcome : Json → Option CommandResponseOutcome}

/-! ## Headers of a request -/

omit [Crates] [TokenText] in
/-- A metadata name is in lower case. -/
theorem toAsciiLowercase_of_validateName {name lower : String}
    (h : validateName name = .ok lower) : lower = toAsciiLowercase name := by
  simp only [validateName, bind_unit_eq_ok, pure_eq_ok] at h
  exact h.2.2.2.2.2.symm

omit [Crates] [TokenText] in
/-- Safe headers leave a header with upper-case letters alone. -/
theorem getAll_safeHeaders {metadata : CallerMetadata} (traceContext : Option TraceContext)
    {name : String} (hvalid : ∀ entry ∈ metadata, validateName entry.1 = .ok entry.1)
    (hupper : toAsciiLowercase name ≠ name) (hparent : name ≠ traceParentHeader)
    (hstate : name ≠ traceStateHeader) :
    HeaderMap.getAll (safeHeaders metadata traceContext) name = [] := by
  have hmetadata : ∀ headers : HeaderMap, headers.getAll name = [] →
      HeaderMap.getAll (metadata.foldl
        (fun headers entry => HeaderMap.insert headers entry.1 entry.2) headers) name = [] := by
    induction metadata with
    | nil => exact fun headers h => h
    | cons entry metadata ih =>
      obtain ⟨hentry, hrest⟩ := List.forall_mem_cons.mp hvalid
      intro headers h
      refine ih hrest _ ?_
      rw [HeaderMap.getAll_insert_of_ne, h]
      rintro rfl
      exact hupper (toAsciiLowercase_of_validateName hentry).symm
  unfold safeHeaders
  cases traceContext with
  | none => exact hmetadata [] rfl
  | some context =>
    show HeaderMap.getAll (HeaderMap.insertSome _ _ _) _ = _
    rw [HeaderMap.getAll_insertSome_of_ne hstate, HeaderMap.getAll_insert_of_ne hparent]
    exact hmetadata [] rfl

/-- The headers that `prepare_command_response` gives to `prepare`. -/
def responseHeaders (message : OutboundResponse) (response : CommandResponse) : HeaderMap :=
  (safeHeaders message.metadata message.traceContext).insert correlationIdHeader
    response.correlationId.value

variable {message : OutboundResponse} {response : CommandResponse} {stream : String}
  {created : Int} {lastSequence : Nat} {stored : Option StreamMessage}
  {prepared : PreparedCommandResponse} {headers : HeaderMap}

/-- The headers of the request of a prepared response. -/
structure Headed (prepared : PreparedCommandResponse) : Prop where
  messageId : prepared.request.headers.getAll natsMsgId = [prepared.publicationId.value]
  correlationId : prepared.request.headers.getAll correlationIdHeader =
    [prepared.response.correlationId.value]
  transition : ∀ token ∈ prepared.transition,
    prepared.request.headers.getAll diagnosticTransitionHeader = [tokenToString token]
  expectation : prepared.predecessor < 2 ^ 64 → prepared.request.expectation =
    some (prepared.request.subject, prepared.predecessor)

omit [Crates] in
theorem headed_of_headers
    (h : prepared.headers = ((responseHeaders prepared.message prepared.response).insert contentType
      jsonContentType).insertSome diagnosticTransitionHeader (prepared.transition.map tokenToString)) :
    Headed prepared where
  messageId := by
    unfold PreparedCommandResponse.request
    simp (disch := decide) only [HeaderMap.getAll_insert_of_ne, HeaderMap.getAll_insert_self]
  correlationId := by
    unfold PreparedCommandResponse.request
    rw [h]
    unfold responseHeaders
    simp (disch := decide) only [HeaderMap.getAll_insertSome_of_ne, HeaderMap.getAll_insert_of_ne,
      HeaderMap.getAll_insert_self]
  transition := by
    intro token htoken
    unfold PreparedCommandResponse.request
    rw [h, Option.mem_def.mp htoken, Option.map_some, HeaderMap.insertSome]
    simp (disch := decide) only [HeaderMap.getAll_insert_of_ne, HeaderMap.getAll_insert_self]
  expectation := by
    intro hlt
    have hsubject : prepared.request.headers.getAll natsExpectedLastSubjectSequenceSubject = [] := by
      unfold PreparedCommandResponse.request
      rw [h]
      unfold responseHeaders
      simp (disch := decide) only [HeaderMap.getAll_insertSome_of_ne, HeaderMap.getAll_insert_of_ne]
      exact getAll_safeHeaders _ prepared.message.metadata_valid (by decide) (by decide) (by decide)
    have hsequence : prepared.request.headers.getAll natsExpectedLastSubjectSequence =
        [toString prepared.predecessor] := by
      unfold PreparedCommandResponse.request
      rw [HeaderMap.getAll_insert_self]
    rw [Message.expectation, hsequence, hsubject, List.head?_cons, Option.bind_some,
      parseU64_toString hlt]
    rfl

/-! ## What is prepared -/

theorem newPublication_eq_ok {generation predecessor : Nat} {publicationId : MessageId}
    {transition : Option DiagnosticTransitionToken}
    (h : newPublication message response stream created generation predecessor =
      .ok (publicationId, transition)) :
    (response.outcome.isTechnical = true ∧ ∃ token : DiagnosticTransitionToken,
        token = ⟨1, stream, created, generation, predecessor⟩ ∧ transition = some token ∧
        token.validate stream created = .ok () ∧
        token.publicationId message.address.value message.payload = .ok publicationId) ∨
      (response.outcome.isTechnical = false ∧ transition = none ∧
        publicationId = message.messageId) := by
  unfold newPublication at h
  split at h
  · next htechnical =>
    simp only [bind_unit_eq_ok] at h
    obtain ⟨hvalid, h⟩ := h
    obtain ⟨id, hid, h⟩ := bind_eq_ok.mp h
    obtain ⟨rfl, rfl⟩ := Prod.mk.inj (Except.ok.inj h)
    exact .inl ⟨htechnical, _, rfl, rfl, hvalid, hid⟩
  · next htechnical =>
    obtain ⟨rfl, rfl⟩ := Prod.mk.inj (Except.ok.inj h)
    exact .inr ⟨by simpa using htechnical, rfl, rfl⟩

/-- A response that is prepared but was not observed follows a technical response, or none. -/
theorem observeExact_eq_none
    (h : observeExact decodeOutcome message response stream created stored = .ok none) :
    ∀ last ∈ stored, ∃ previous,
      decodeExisting decodeOutcome last stream created response = .ok previous ∧
        previous.outcome.isTechnical = true := by
  intro last hlast
  rw [Option.mem_def.mp hlast] at h
  unfold observeExact at h
  obtain ⟨previous, hprevious, h⟩ := bind_eq_ok.mp h
  refine ⟨previous, hprevious, ?_⟩
  split at h
  · obtain ⟨_, -, h⟩ := bind_eq_ok.mp h
    obtain ⟨_, -, h⟩ := bind_eq_ok.mp h
    obtain ⟨_, -, h⟩ := bind_eq_ok.mp h
    obtain ⟨_, -, h⟩ := bind_eq_ok.mp h
    cases h
  · simp only [bind_unit_eq_ok, rejectIf_eq_ok, not_not] at h
    exact h.1

theorem prepareFrom_eq_ok
    (h : prepareFrom decodeOutcome message response stream headers created lastSequence stored =
      .ok prepared) :
    prepared.message = message ∧ prepared.response = response ∧
      prepared.predecessor = stored.elim 0 Prod.fst ∧
      prepared.headers = (headers.insert contentType jsonContentType).insertSome
        diagnosticTransitionHeader (prepared.transition.map tokenToString) ∧
      (prepared.observedExact = false →
        newPublication message response stream created
            (max lastSequence prepared.predecessor) prepared.predecessor =
          .ok (prepared.publicationId, prepared.transition) ∧
        ∀ last ∈ stored, ∃ previous,
          decodeExisting decodeOutcome last stream created response = .ok previous ∧
            previous.outcome.isTechnical = true) := by
  unfold prepareFrom at h
  obtain ⟨observed, hobserved, h⟩ := bind_eq_ok.mp h
  obtain ⟨⟨publicationId, transition⟩, hpublication, h⟩ := bind_eq_ok.mp h
  obtain rfl := Except.ok.inj h
  refine ⟨rfl, rfl, rfl, rfl, fun hnew => ?_⟩
  obtain rfl : observed = none := by simpa using hnew
  exact ⟨hpublication, observeExact_eq_none hobserved⟩

theorem decodeExisting_eq_ok {last : StreamMessage} {previous : CommandResponse}
    (h : decodeExisting decodeOutcome last stream created response = .ok previous) :
    CommandResponse.fromSlice? decodeOutcome last.2.payload = some previous ∧
      SameCommand previous response ∧
      ∃ address, deriveCommandResponseAddress previous.commandAddress previous.operationId
        previous.commandMessageId = .ok address ∧ last.2.subject = address.value := by
  obtain ⟨sequence, message⟩ := last
  simp only [decodeExisting, bind_unit_eq_ok] at h
  obtain ⟨-, h⟩ := h
  obtain ⟨_, -, h⟩ := bind_eq_ok.mp h
  simp only [bind_unit_eq_ok] at h
  obtain ⟨-, h⟩ := h
  obtain ⟨_, -, h⟩ := bind_eq_ok.mp h
  simp only [bind_unit_eq_ok] at h
  obtain ⟨-, h⟩ := h
  obtain ⟨previous', hdecoded, h⟩ := bind_eq_ok.mp h
  simp only [bind_unit_eq_ok, rejectIf_eq_ok, not_not] at h
  obtain ⟨hsame, h⟩ := h
  obtain ⟨address, haddress, h⟩ := bind_eq_ok.mp h
  simp only [bind_unit_eq_ok, rejectIf_eq_ok, not_not] at h
  obtain ⟨hsubject, h⟩ := h
  obtain ⟨_, -, h⟩ := bind_eq_ok.mp h
  obtain rfl := Except.ok.inj h
  exact ⟨okOr_eq_ok.mp hdecoded, hsame, address, mapError_eq_ok.mp haddress, hsubject⟩

omit [TokenText] in
theorem decodeOutboundCommandResponse_eq_ok
    (h : decodeOutboundCommandResponse decodeOutcome message = .ok response) :
    CommandResponse.fromSlice? decodeOutcome message.payload = some response ∧
      deriveCommandResponseAddress response.commandAddress response.operationId
        response.commandMessageId = .ok message.address ∧
      response.messageId = message.messageId := by
  unfold decodeOutboundCommandResponse at h
  obtain ⟨response', hdecoded, h⟩ := bind_eq_ok.mp h
  obtain ⟨address, haddress, h⟩ := bind_eq_ok.mp h
  simp only [bind_unit_eq_ok, rejectIf_eq_ok, not_or, not_not] at h
  obtain ⟨⟨hid, rfl⟩, h⟩ := h
  obtain rfl := Except.ok.inj h
  exact ⟨okOr_eq_ok.mp hdecoded, mapError_eq_ok.mp haddress, hid⟩

variable {s s' : ResponseStream}

/-- The publication of a technical response passes the check at every sequence after the generation
of its token. -/
theorem validate_technical [TokenText.Lawful] (hheaded : Headed prepared)
    (htechnical : prepared.response.outcome.isTechnical = true)
    (hidentity : validateTechnicalLogicalIdentity prepared.response = .ok ())
    {token : DiagnosticTransitionToken} (htoken : prepared.transition = some token)
    (hsized : token.Sized) (hvalid : token.validate stream created = .ok ())
    (hid : token.publicationId prepared.message.address.value prepared.message.payload =
      .ok prepared.publicationId) {sequence : Nat} (hlt : token.generation < sequence) :
    validateStoredPublication prepared.response prepared.request.subject prepared.request.payload
      prepared.request.headers ⟨stream, created, sequence⟩ = .ok (some token) := by
  have hread : tokenFromStr (tokenToString token) = some token :=
    TokenText.Lawful.tokenFromStr_toString token hsized
  have hfits : ¬ token.generation ≥ sequence := Nat.not_le.mpr hlt
  have hid' : token.publicationId prepared.request.subject prepared.request.payload =
      .ok prepared.publicationId := hid
  unfold validateStoredPublication
  rw [oneHeader_of_getAll hheaded.messageId,
    oneHeader_of_getAll hheaded.correlationId,
    oneHeader_of_getAll (hheaded.transition token htoken)]
  simp only [ok_bind, okOr_some, htechnical, if_true, ne_eq, not_true_eq_false, hidentity, hread,
    hvalid, or_false, rejectIf_of_not hfits, rejectIf_of_not not_false, hid']
  rfl

theorem validate_business (hheaded : Headed prepared)
    (hbusiness : prepared.response.outcome.isTechnical = false)
    (hid : prepared.publicationId = prepared.response.messageId) (publication : StoredPublication) :
    validateStoredPublication prepared.response prepared.request.subject prepared.request.payload
      prepared.request.headers publication = .ok none := by
  unfold validateStoredPublication
  rw [oneHeader_of_getAll hheaded.messageId]
  simp only [ok_bind, okOr_some, hbusiness, hid, ne_eq, not_true_eq_false, Bool.false_eq_true,
    if_false, rejectIf_of_not not_false]
  rfl

/-- A prepared response that was not observed is sendable when the last message is read. -/
theorem sendable_of_prepareFrom [TokenText.Lawful] (hinv : Inv decodeOutcome s)
    (hdecoded : CommandResponse.fromSlice? decodeOutcome message.payload = some response)
    (hmessageId : response.messageId = message.messageId)
    (hidentity : validateTechnicalLogicalIdentity response = .ok ())
    (hlast : lastSequence ≤ s.log.length)
    (h : prepareFrom decodeOutcome message response s.name (responseHeaders message response)
      s.created lastSequence
      (itemsOn Message.subject message.address.value s.log).getLast? = .ok prepared)
    (hnew : prepared.observedExact = false) : Sendable decodeOutcome s prepared.request := by
  obtain ⟨rfl, rfl, hpredecessor, hheaders, hpublication⟩ := prepareFrom_eq_ok h
  obtain ⟨hpublication, htechnical⟩ := hpublication hnew
  have hheaded := headed_of_headers hheaders
  have hreplaceable : Replaceable decodeOutcome s prepared.message.address.value
      prepared.predecessor := by
    cases hread : (itemsOn Message.subject prepared.message.address.value s.log).getLast? with
    | none =>
      rw [hread] at hpredecessor
      exact .inl hpredecessor
    | some last =>
      rw [hread] at hpredecessor htechnical
      obtain ⟨previous, hprevious, htechnical⟩ := htechnical last rfl
      refine .inr ⟨last.2, ?_, previous, (decodeExisting_eq_ok hprevious).1, htechnical⟩
      rw [hpredecessor]
      exact List.mem_of_getLast? hread
  have hle : prepared.predecessor ≤ s.log.length := by
    rcases hreplaceable with hzero | ⟨message, hmem, -⟩
    · rw [hzero]
      exact Nat.zero_le _
    · exact (position_le hmem).2
  have hexpectation := hheaded.expectation (hle.trans_lt hinv.length)
  refine ⟨fun sequence hsequence => ?_, _, hexpectation, hreplaceable⟩
  rcases newPublication_eq_ok hpublication with
    ⟨htechnical, token, rfl, htoken, hvalid, hid⟩ | ⟨hbusiness, htransition, hid⟩
  · have hgeneration : max lastSequence prepared.predecessor ≤ s.log.length := max_le hlast hle
    refine ⟨prepared.response, _, hdecoded, validate_technical hheaded htechnical hidentity htoken
      ⟨Nat.one_lt_two_pow (by decide), hinv.created, hgeneration.trans_lt hinv.length, hle.trans_lt hinv.length⟩ hvalid hid
      (hgeneration.trans_lt hsequence), ?_⟩
    rintro _ ⟨⟩
    exact hexpectation
  · exact ⟨prepared.response, none, hdecoded,
      validate_business hheaded hbusiness (hid.trans hmessageId.symm) _, nofun⟩

theorem verifyExactRecord_eq_ok {last : StreamMessage} {u : Unit}
    (h : verifyExactRecord decodeOutcome last prepared = .ok u) :
    last.2.payload = prepared.message.payload ∧
      last.2.headers.getAll natsMsgId = [prepared.publicationId.value] ∧
      ∃ address, deriveCommandResponseAddress prepared.response.commandAddress
        prepared.response.operationId prepared.response.commandMessageId = .ok address ∧
        last.2.subject = address.value := by
  unfold verifyExactRecord at h
  obtain ⟨previous, hprevious, h⟩ := bind_eq_ok.mp h
  obtain ⟨outer, houter, h⟩ := bind_eq_ok.mp h
  simp only [rejectIf_eq_ok, not_or, not_not] at h
  obtain ⟨hpayload, rfl, rfl⟩ := h
  exact ⟨hpayload, getAll_of_oneHeader houter, (decodeExisting_eq_ok hprevious).2.2⟩

end Prepared

/-! ## Programs -/

section Programs

variable [Crates] [TokenText] (decodeOutcome : Json → Option CommandResponseOutcome)

/-- The stream as a service: what `prepare` and `publish` keep. -/
def responseProtocol : Protocol ResponseCall ResponseCall.Answer ResponseStream where
  exec := Served
  inv := Inv decodeOutcome
  rely := Grows
  rely_refl := Grows.refl
  rely_trans := Grows.trans

/-- What `publish` relies on: the address is that of the response, and what is not stored yet may be
sent. -/
structure PreparedCommandResponse.Held (s : ResponseStream) (prepared : PreparedCommandResponse) :
    Prop where
  addressed : deriveCommandResponseAddress prepared.response.commandAddress
    prepared.response.operationId prepared.response.commandMessageId = .ok prepared.message.address
  sendable : prepared.observedExact = false → Sendable decodeOutcome s prepared.request

omit [Crates] [TokenText] in
/-- The exact payload is stored under the publication id, at the sequence that was answered. -/
def PreparedCommandResponse.Stored (s : ResponseStream) (prepared : PreparedCommandResponse)
    (ack : NatsPublishAck) : Prop :=
  ∃ message, (ack.sequence, message) ∈
      itemsOn Message.subject prepared.message.address.value s.log ∧
    message.payload = prepared.message.payload ∧
    message.headers.getAll natsMsgId = [prepared.publicationId.value]

variable {decodeOutcome} {s s' : ResponseStream} {prepared : PreparedCommandResponse}

theorem PreparedCommandResponse.Held.later (h : prepared.Held decodeOutcome s) (hR : Grows s s') :
    prepared.Held decodeOutcome s' :=
  ⟨h.addressed, fun hnew => (h.sendable hnew).later hR⟩

omit [Crates] [TokenText] in
theorem PreparedCommandResponse.Stored.later {ack : NatsPublishAck} (h : prepared.Stored s ack)
    (hR : Grows s s') : prepared.Stored s' ack := by
  obtain ⟨message, hmem, hpayload, hid⟩ := h
  exact ⟨message, hR.mem hmem, hpayload, hid⟩

/-! Reads leave the stream alone; what they have answered is still right later. -/

theorem getStream_ends :
    Ends (responseProtocol decodeOutcome)
      (fun info s' => info.created = s'.created ∧ info.lastSequence ≤ s'.log.length)
      (fun _ _ => True) ResponseCode.getStream s := by
  intro s₁ _ hI r s₂ he
  obtain ⟨hr, rfl⟩ := he
  refine ⟨hI, .refl _, fun s' hR' _ => ?_⟩
  rcases hr with rfl | ⟨e, rfl⟩
  · exact ⟨hR'.created.symm, hR'.log.length_le⟩
  · trivial

theorem latest_ends (subject : String) :
    Ends (responseProtocol decodeOutcome)
      (fun stored s' => ∃ s₁, Grows s s₁ ∧ Inv decodeOutcome s₁ ∧ Grows s₁ s' ∧
        stored = (itemsOn Message.subject subject s₁.log).getLast?)
      (fun _ _ => True) (ResponseCode.latest subject) s := by
  intro s₁ hR hI r s₂ he
  obtain ⟨hr, rfl⟩ := he
  refine ⟨hI, .refl _, fun s' hR' _ => ?_⟩
  rcases hr with rfl | ⟨e, rfl⟩
  · exact ⟨s₂, hR, hI, hR', rfl⟩
  · trivial

theorem atSequence_ends (sequence : Nat) :
    Ends (responseProtocol decodeOutcome)
      (fun stored s' => ∀ last ∈ stored, last.1 = sequence ∧
        last ∈ itemsOn Message.subject last.2.subject s'.log)
      (fun _ _ => True) (ResponseCode.atSequence sequence) s := by
  intro s₁ hR hI r s₂ he
  obtain ⟨hr, rfl⟩ := he
  refine ⟨hI, .refl _, fun s' hR' _ => ?_⟩
  rcases hr with rfl | ⟨e, rfl⟩
  · intro last hlast
    refine ⟨by simpa using List.find?_some hlast, hR'.mem ?_⟩
    exact List.mem_filter.mpr ⟨List.mem_of_find?_eq_some hlast, by simp⟩
  · trivial

/-- What `prepare_command_response` prepares may be published. -/
theorem prepareCommandResponse_ends [TokenText.Lawful] {publisher : NatsPublisher}
    (hname : publisher.commandResponseStream = s.name) (message : OutboundResponse)
    (operationTimeout : Nat) :
    Ends (responseProtocol decodeOutcome)
      (fun prepared s' => prepared.Held decodeOutcome s' ∧ prepared.message = message)
      (fun _ _ => True)
      (prepareCommandResponse decodeOutcome publisher message operationTimeout) s := by
  refine Ends.liftBind (fun _ _ => ?_) fun _ _ _ _ _ => trivial
  refine Ends.liftBind (fun response hresponse => ?_) fun _ _ _ _ _ => trivial
  obtain ⟨hdecoded, haddress, hmessageId⟩ := decodeOutboundCommandResponse_eq_ok hresponse
  refine Ends.liftBind (fun _ _ => ?_) fun _ _ _ _ _ => trivial
  unfold prepare
  refine Ends.liftBind (fun _ _ => ?_) fun _ _ _ _ _ => trivial
  refine Ends.liftBind (fun _ hidentity => ?_) fun _ _ _ _ _ => trivial
  refine Ends.bind getStream_ends (fun info s₁ hR₁ _ hinfo => ?_) fun _ _ _ _ _ => trivial
  refine Ends.bind (latest_ends _) (fun stored s₂ hR₂ _ hread => ?_) fun _ _ _ _ _ => trivial
  obtain ⟨s₃, hR₃, hI₃, hR₂', rfl⟩ := hread
  refine Ends.lift (fun prepared hprepared s₄ hR₄ _ => ?_) fun _ _ _ _ _ => trivial
  have hR : Grows s s₃ := hR₁.trans hR₃
  obtain ⟨rfl, rfl, -⟩ := prepareFrom_eq_ok hprepared
  refine ⟨⟨haddress, fun hnew => ?_⟩, rfl⟩
  rw [hname, ← hR.name, hinfo.1, ← hR₃.created] at hprepared
  exact (sendable_of_prepareFrom hI₃ hdecoded hmessageId hidentity
    (hinfo.2.trans hR₃.log.length_le) hprepared hnew).later (hR₂'.trans hR₄)

theorem verifyCurrentIncarnation_ends {Q : Unit → ResponseStream → Prop}
    (h : ∀ s', Grows s s' → Q () s') :
    Ends (responseProtocol decodeOutcome) Q (fun _ _ => True) (verifyCurrentIncarnation prepared)
      s := by
  refine Ends.bind getStream_ends (fun info s₁ hR₁ _ _ => ?_) fun _ _ _ _ _ => trivial
  exact Ends.lift (fun _ _ s₂ hR₂ _ => h s₂ (hR₁.trans hR₂)) fun _ _ _ _ _ => trivial

theorem stored_of_verifyExactRecord {last : StreamMessage} {u : Unit} {ack : NatsPublishAck}
    (hheld : prepared.Held decodeOutcome s)
    (h : verifyExactRecord decodeOutcome last prepared = .ok u)
    (hmem : last ∈ itemsOn Message.subject last.2.subject s.log) (hsequence : last.1 = ack.sequence) :
    prepared.Stored s ack := by
  obtain ⟨hpayload, hid, address, haddress, hsubject⟩ := verifyExactRecord_eq_ok h
  obtain rfl := Except.ok.inj (hheld.addressed.symm.trans haddress)
  rw [hsubject] at hmem
  exact ⟨last.2, hsequence ▸ hmem, hpayload, hid⟩

theorem reconcile_ends (hheld : prepared.Held decodeOutcome s) :
    Ends (responseProtocol decodeOutcome) (fun ack s' => prepared.Stored s' ack) (fun _ _ => True)
      (reconcile decodeOutcome prepared) s := by
  refine Ends.bind (latest_ends _) (fun stored s₁ hR₁ _ hread => ?_) fun _ _ _ _ _ => trivial
  obtain ⟨s₂, hR₂, -, hR₁', rfl⟩ := hread
  refine Ends.liftBind (fun last hlast => ?_) fun _ _ _ _ _ => trivial
  refine Ends.liftBind (fun _ hverified => ?_) fun _ _ _ _ _ => trivial
  have hmem : last ∈ itemsOn Message.subject last.2.subject s₂.log := by
    have hread := List.mem_of_getLast? (okOr_eq_ok.mp hlast)
    rwa [(mem_itemsOn.mp hread).2.2]
  have hstored : prepared.Stored s₁ ⟨prepared.stream, last.1, true⟩ :=
    (stored_of_verifyExactRecord (hheld.later hR₂) hverified hmem rfl).later hR₁'
  exact Ends.bind
    (verifyCurrentIncarnation_ends (Q := fun _ s' => prepared.Stored s' _) fun _ hR =>
      hstored.later hR)
    (fun _ s₃ _ _ h => Ends.pure fun _ hR _ => h.later hR) fun _ _ _ _ _ => trivial

theorem confirmFresh_ends (hheld : prepared.Held decodeOutcome s) (expectedStream : String)
    (ack : PublishAck) :
    Ends (responseProtocol decodeOutcome) (fun ack s' => prepared.Stored s' ack) (fun _ _ => True)
      (confirmFresh decodeOutcome prepared expectedStream ack) s := by
  refine Ends.liftBind (fun _ _ => ?_) fun _ _ _ _ _ => trivial
  refine Ends.bind (atSequence_ends _) (fun stored s₁ hR₁ _ hread => ?_) fun _ _ _ _ _ => trivial
  refine Ends.liftBind (fun last hlast => ?_) fun _ _ _ _ _ => trivial
  refine Ends.liftBind (fun _ _ => ?_) fun _ _ _ _ _ => trivial
  refine Ends.liftBind (fun _ hverified => ?_) fun _ _ _ _ _ => trivial
  obtain ⟨hsequence, hmem⟩ := hread last (okOr_eq_ok.mp hlast)
  have hstored : prepared.Stored s₁ ⟨expectedStream, ack.sequence, false⟩ :=
    stored_of_verifyExactRecord (hheld.later hR₁) (mapError_eq_ok.mp hverified) hmem hsequence
  exact Ends.bind
    (verifyCurrentIncarnation_ends (Q := fun _ s' => prepared.Stored s' _) fun _ hR =>
      hstored.later hR)
    (fun _ s₃ _ _ h => Ends.pure fun _ hR _ => h.later hR) fun _ _ _ _ _ => trivial

/-- A held response that is published keeps the stream, and is stored if the answer is `Ok`. -/
theorem publish_ends (hheld : prepared.Held decodeOutcome s) (expectedStream : String)
    (operationTimeout : Nat) :
    Ends (responseProtocol decodeOutcome) (fun ack s' => prepared.Stored s' ack) (fun _ _ => True)
      (publish decodeOutcome prepared expectedStream operationTimeout) s := by
  refine Ends.liftBind (fun _ _ => ?_) fun _ _ _ _ _ => trivial
  refine Ends.liftBind (fun _ _ => ?_) fun _ _ _ _ _ => trivial
  refine Ends.bind getStream_ends (fun info s₁ hR₁ _ _ => ?_) fun _ _ _ _ _ => trivial
  refine Ends.liftBind (fun _ _ => ?_) fun _ _ _ _ _ => trivial
  have hheld₁ := hheld.later hR₁
  split
  · exact reconcile_ends hheld₁
  next hnew =>
  have hsend : Ends (responseProtocol decodeOutcome) (fun _ s' => Grows s₁ s') (fun _ _ => True)
      (ResponseCode.sendPublish prepared.request) s₁ := by
    intro s₂ hR₂ hI₂ r s₃ he
    obtain ⟨hI₃, hR₃⟩ := sendPublish_keeps hI₂
      ((hheld₁.sendable (by simpa using hnew)).later hR₂) he
    refine ⟨hI₃, hR₃, fun s₄ hR₄ _ => ?_⟩
    cases r with
    | ok result => exact (hR₂.trans hR₃).trans hR₄
    | error e => trivial
  refine Ends.bind hsend (fun result s₂ _ _ hR₂ => ?_) fun _ _ _ _ _ => trivial
  have hheld₂ := hheld₁.later hR₂
  split
  · split
    · exact reconcile_ends hheld₂
    · exact confirmFresh_ends hheld₂ _ _
  · exact reconcile_ends hheld₂
  · exact Ends.throw fun _ _ _ => trivial

theorem publishPreparedCommandResponse_ends (hheld : prepared.Held decodeOutcome s)
    (publisher : NatsPublisher) (operationTimeout : Nat) :
    Ends (responseProtocol decodeOutcome) (fun ack s' => prepared.Stored s' ack) (fun _ _ => True)
      (publishPreparedCommandResponse decodeOutcome publisher prepared operationTimeout) s :=
  Ends.liftBind (fun _ _ => publish_ends hheld _ _) fun _ _ _ _ _ => trivial

end Programs

end Rostfrei.Nats
