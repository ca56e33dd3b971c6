import Rostfrei.Core.Outcome
import Rostfrei.Concrete

/-!
# What an integrity digest determines

`integrityDigest` hashes a part of each recorded event. Together with the checks of
`validateIntegrity` that part determines the receipt (`receipt_eq_of_integrityDigest`): the fields
that the digest leaves out are those that the checks compare with the receipt and its streams.
-/

namespace Rostfrei

open Lib

section Determined

variable [Crates]

/-! ## What the checks say of an event -/

/-- The fields of an event that are those of its receipt and its stream, and the sizes of its
numbers. -/
structure ReceiptEvent (r : TransactionReceipt) (streamId : StreamId) (e : RecordedEvent) :
    Prop where
  stream : e.streamId = streamId
  operation : e.operationId = r.operationId
  fingerprint : e.operationFingerprint = r.operationFingerprint
  correlation : e.correlationId = r.correlationId
  causation : e.causationId = r.causationId
  actor : e.actor = r.actor
  version_lt : e.streamVersion < 2 ^ 64
  ordinal_lt : e.commitEventOrdinal < 2 ^ 32
  count_lt : e.commitEventCount < 2 ^ 32

theorem checkReceiptEvents_ok {r : TransactionReceipt} {stream : TransactionStreamReceipt}
    {commit : CommitId} {count version ordinal : Nat} {events : List RecordedEvent}
    (hcount : count < 2 ^ 32)
    (h : checkReceiptEvents r stream commit count version ordinal events = .ok ()) :
    ∀ e ∈ events, ReceiptEvent r stream.streamId e := by
  induction events generalizing version ordinal with
  | nil => simp
  | cons e rest ih =>
    simp only [checkReceiptEvents, bind_eq_ok, okOr_eq_ok, rejectIf_eq_ok, nextVersion_eq_some,
      not_or, not_not] at h
    obtain ⟨_, ⟨hversion, rfl⟩, -, hordinal, -, hfields, hrest⟩ := h
    obtain ⟨hstream, hv, -, -, hop, hfingerprint, hcorrelation, hcausation, hactor, ho, hc⟩ :=
      hfields
    rw [List.forall_mem_cons]
    refine ⟨⟨hstream, hop, hfingerprint, hcorrelation, hcausation, hactor, ?_, ?_, ?_⟩, ih hrest⟩
    · rw [hv]
      exact hversion
    · rw [ho]
      omega
    · rw [hc]
      exact hcount

theorem checkReceiptStreams_ok {r : TransactionReceipt} {seen : List StreamId}
    {streams : List TransactionStreamReceipt}
    (h : checkReceiptStreams r seen streams = .ok ()) :
    ∀ s ∈ streams, ∀ e ∈ s.events, ReceiptEvent r s.streamId e := by
  induction streams generalizing seen with
  | nil => simp
  | cons s rest ih =>
    simp only [checkReceiptStreams, bind_eq_ok, rejectIf_eq_ok, ge_iff_le, Nat.not_le] at h
    obtain ⟨-, -, -, hcount, ⟨⟩, hevents, hrest⟩ := h
    rw [List.forall_mem_cons]
    exact ⟨checkReceiptEvents_ok hcount hevents, ih hrest⟩

theorem TransactionReceipt.events_of_validateIntegrity {r : TransactionReceipt}
    (h : r.validateIntegrity = .ok ()) :
    ∀ s ∈ r.streams, ∀ e ∈ s.events, ReceiptEvent r s.streamId e := by
  rw [validateIntegrity, bind_unit_eq_ok] at h
  exact checkReceiptStreams_ok h.1

/-! ## The document -/

def integrityStream (attributed : Bool) (s : TransactionStreamReceipt) : Json :=
  .arr [
    .str s.streamId.aggregateType.value,
    .str s.streamId.aggregateId.value,
    .num s.baseVersion,
    .arr (s.events.map (integrityRow attributed))]

/-- The document that `integrityDigest` hashes. -/
def integrityDocument (r : TransactionReceipt) : Json :=
  .arr <|
    [.str (if r.actor.isSome then "rostfrei:outcome-integrity:v2"
        else "rostfrei:outcome-integrity:v1"),
      jsonText r.boundedContext,
      .str r.operationId.value,
      .str r.operationFingerprint.toHex,
      jsonText r.correlationId,
      jsonText r.causationId,
      jsonText r.securityScope] ++
    (if r.actor.isSome then [.orNull (r.actor.map ActorRef.toValue)] else []) ++
    [.arr (r.streams.map (integrityStream r.actor.isSome))]

theorem integrityDigest_eq (r : TransactionReceipt) :
    integrityDigest r = sha256 (toVec (integrityDocument r)) := rfl

/-- A base version is a `u64`. -/
def TransactionReceipt.BasesFit (r : TransactionReceipt) : Prop :=
  ∀ s ∈ r.streams, s.baseVersion < 2 ^ 64

omit [Crates] in
theorem fits_jsonText {ε : Type} {check : String → Except ε Unit} (d : Nat)
    (v : Option (CheckedString check)) : (jsonText v).Fits d :=
  Json.fits_orNull fun _ _ => Json.fits_str _ _

omit [Crates] in
theorem fits_actorValue (d : Nat) (a : Option ActorRef) :
    (Json.orNull (a.map ActorRef.toValue)).Fits (d + 1) :=
  Json.fits_orNull fun _ _ => by simp [ActorRef.toValue]

theorem fits_integrityRow (d : Nat) (attributed : Bool) {r : TransactionReceipt}
    {streamId : StreamId} {e : RecordedEvent} (h : ReceiptEvent r streamId e) :
    (integrityRow attributed e).Fits (d + 2) := by
  have hv := h.version_lt
  have ho := h.ordinal_lt
  have hc := h.count_lt
  have hs := e.schemaVersion.toNat_lt
  have hactor : ∀ j ∈ if attributed then [Json.orNull (e.actor.map ActorRef.toValue)] else [],
      j.Fits (d + 1) := by
    split
    · simpa using fits_actorValue d e.actor
    · simp
  simp only [integrityRow, Json.fits_arr, List.forall_mem_append, List.forall_mem_cons,
    Json.fits_str, Json.fits_num, List.not_mem_nil, false_imp_iff, implies_true, and_true,
    true_and]
  exact ⟨⟨by omega, by omega, by omega, by omega⟩, hactor⟩

theorem fits_integrityDocument {r : TransactionReceipt} (h : r.validateIntegrity = .ok ())
    (hbase : r.BasesFit) : (integrityDocument r).Fits maxJsonDepth := by
  have hevents := r.events_of_validateIntegrity h
  have hstreams : ∀ j ∈ r.streams.map (integrityStream r.actor.isSome), j.Fits 125 := by
    intro j hj
    obtain ⟨s, hs, rfl⟩ := List.mem_map.mp hj
    have hrows : (Json.arr (s.events.map (integrityRow r.actor.isSome))).Fits 124 := by
      rw [Json.fits_arr, List.forall_mem_map]
      exact fun e he => fits_integrityRow 121 _ (hevents s hs e he)
    simp only [integrityStream, Json.fits_arr, List.forall_mem_cons, Json.fits_str, Json.fits_num,
      List.not_mem_nil, false_imp_iff, implies_true, and_true, true_and]
    exact ⟨hbase s hs, hrows⟩
  have hactor : ∀ j ∈ if r.actor.isSome then [Json.orNull (r.actor.map ActorRef.toValue)] else [],
      j.Fits 126 := by
    split
    · simpa using fits_actorValue 125 r.actor
    · simp
  show (integrityDocument r).Fits 127
  simp only [integrityDocument, Json.fits_arr, List.forall_mem_append, List.forall_mem_cons,
    Json.fits_str, fits_jsonText, List.not_mem_nil, false_imp_iff, implies_true, and_true,
    true_and]
  exact ⟨hactor, hstreams⟩

/-! ## The document determines the receipt -/

omit [Crates] in
theorem jsonText_inj {ε : Type} {check : String → Except ε Unit} {v w : Option (CheckedString check)}
    (h : jsonText v = jsonText w) : v = w := by
  cases v <;> cases w <;> simp_all [jsonText, Json.orNull, CheckedString.ext_iff]

omit [Crates] in
theorem actorValue_inj {a b : Option ActorRef}
    (h : Json.orNull (a.map ActorRef.toValue) = Json.orNull (b.map ActorRef.toValue)) : a = b := by
  rcases a with _ | ⟨ns, id⟩ <;> rcases b with _ | ⟨ns', id'⟩ <;>
    simp_all [ActorRef.toValue, Json.orNull, CheckedString.ext_iff]

omit [Crates] in
/-- A list is determined by the images of its items, if each image determines its item. -/
theorem map_inj_of_mem {α β : Type} {f : α → β} {l l' : List α}
    (hf : ∀ a ∈ l, ∀ b ∈ l', f a = f b → a = b) (h : l.map f = l'.map f) : l = l' := by
  induction l generalizing l' with
  | nil => exact (List.map_eq_nil_iff.mp h.symm).symm
  | cons a l ih =>
    cases l' with
    | nil => cases h
    | cons b l' =>
      obtain ⟨hab, hrest⟩ := List.cons.inj h
      rw [hf a (by simp) b (by simp) hab,
        ih (fun x hx y hy => hf x (by simp [hx]) y (by simp [hy])) hrest]

/-- What is hashed for the integrity digest of a receipt. -/
def integrityInputs (r : TransactionReceipt) : Set Bytes :=
  {input | input = toVec (integrityDocument r) ∨
    ∃ s ∈ r.streams, ∃ e ∈ s.events, input = e.payload}

/-- The row of an event, with the checks, determines the event. -/
theorem event_eq_of_integrityRow {r r' : TransactionReceipt} {streamId : StreamId}
    {e e' : RecordedEvent} {inputs : Set Bytes} (hfree : CollisionFree inputs)
    (hmem : e.payload ∈ inputs) (hmem' : e'.payload ∈ inputs)
    (hop : r.operationId = r'.operationId)
    (hfingerprint : r.operationFingerprint = r'.operationFingerprint)
    (hcorrelation : r.correlationId = r'.correlationId)
    (hcausation : r.causationId = r'.causationId) (hactor : r.actor = r'.actor)
    (he : ReceiptEvent r streamId e) (he' : ReceiptEvent r' streamId e') {attributed : Bool}
    (h : integrityRow attributed e = integrityRow attributed e') : e = e' := by
  simp only [integrityRow, Json.arr.injEq, List.cons_append, List.cons.injEq, Json.str.injEq,
    Json.num.injEq] at h
  obtain ⟨hid, hcommit, hversion, hordinal, hcount, htype, hschema, hpayload, -⟩ := h
  have hp : e.payload = e'.payload := hfree hmem hmem' (ContentFingerprint.toHex_inj hpayload)
  have hs : e.schemaVersion = e'.schemaVersion := UInt32.toNat_inj.mp hschema
  have hi : e.eventId = e'.eventId := CheckedString.ext hid
  have hc : e.commitId = e'.commitId := CheckedString.ext hcommit
  obtain ⟨h₁, h₂, h₃, h₄, h₅, h₆, -⟩ := he
  obtain ⟨h₁', h₂', h₃', h₄', h₅', h₆', -⟩ := he'
  cases e
  cases e'
  simp_all

/-- Two receipts without completion that pass the checks and have the same integrity digest are
equal. -/
theorem receipt_eq_of_integrityDigest [Crates.Lawful] {r r' : TransactionReceipt}
    (hfree : CollisionFree (integrityInputs r ∪ integrityInputs r'))
    (hfit : r.BasesFit) (hfit' : r'.BasesFit)
    (hnone : r.completion = none) (hnone' : r'.completion = none)
    (hvalid : r.validateIntegrity = .ok ()) (hvalid' : r'.validateIntegrity = .ok ())
    (h : integrityDigest r = integrityDigest r') : r = r' := by
  have hbytes := hfree (.inl (.inl rfl)) (.inr (.inl rfl)) h
  have hdoc := toVec_inj (fits_integrityDocument hvalid hfit) (fits_integrityDocument hvalid' hfit')
    hbytes
  simp only [integrityDocument, Json.arr.injEq, List.cons_append, List.nil_append,
    List.cons.injEq, Json.str.injEq] at hdoc
  obtain ⟨hlabel, hcontext, hop, hfingerprint, hcorrelation, hcausation, hscope, hrest⟩ := hdoc
  have hop : r.operationId = r'.operationId := CheckedString.ext hop
  have hfingerprint := ContentFingerprint.toHex_inj hfingerprint
  have hcorrelation := jsonText_inj hcorrelation
  have hcausation := jsonText_inj hcausation
  have hattributed : r.actor.isSome = r'.actor.isSome := by
    by_contra hne
    cases hs : r.actor.isSome <;> cases hs' : r'.actor.isSome <;> rw [hs, hs'] at hlabel hne <;>
      first | exact hne rfl | exact absurd hlabel (by decide)
  have hactor : r.actor = r'.actor ∧ r.streams.map (integrityStream r.actor.isSome) =
      r'.streams.map (integrityStream r'.actor.isSome) := by
    by_cases hs : r.actor.isSome
    · rw [if_pos hs, if_pos (hattributed ▸ hs)] at hrest
      simp only [List.cons_append, List.nil_append, List.cons.injEq, Json.arr.injEq,
        and_true] at hrest
      exact ⟨actorValue_inj hrest.1, hrest.2⟩
    · have hs' : ¬ r'.actor.isSome := hattributed ▸ hs
      rw [if_neg hs, if_neg hs'] at hrest
      simp only [List.nil_append, List.cons.injEq, Json.arr.injEq, and_true] at hrest
      rw [Option.not_isSome_iff_eq_none] at hs hs'
      exact ⟨hs.trans hs'.symm, hrest⟩
  obtain ⟨hactor, hmap⟩ := hactor
  rw [← hactor] at hmap
  have hevents := r.events_of_validateIntegrity hvalid
  have hevents' := r'.events_of_validateIntegrity hvalid'
  have hstreams : r.streams = r'.streams := by
    refine map_inj_of_mem (fun s hs s' hs' heq => ?_) hmap
    obtain ⟨⟨type, id⟩, base, events⟩ := s
    obtain ⟨⟨type', id'⟩, base', events'⟩ := s'
    simp only [integrityStream, Json.arr.injEq, List.cons.injEq, Json.str.injEq, Json.num.injEq,
      and_true] at heq
    obtain ⟨htype, hid, rfl, hrows⟩ := heq
    obtain rfl : type = type' := CheckedString.ext htype
    obtain rfl : id = id' := CheckedString.ext hid
    obtain rfl : events = events' := by
      refine map_inj_of_mem (fun e he e' he' hrow => ?_) hrows
      exact event_eq_of_integrityRow hfree (.inl (.inr ⟨_, hs, e, he, rfl⟩))
        (.inr (.inr ⟨_, hs', e', he', rfl⟩)) hop hfingerprint hcorrelation hcausation hactor
        (hevents _ hs e he) (hevents' _ hs' e' he') hrow
    rfl
  have hcontext := jsonText_inj hcontext
  have hscope := jsonText_inj hscope
  cases r
  cases r'
  simp_all

end Determined

namespace Sample

attribute [local instance] Crates.concrete

/-- The receipt of the commit that opened the account. -/
def receipt : TransactionReceipt where
  actor := none
  securityScope := none
  completion := none
  boundedContext := some context
  operationId := operation
  operationFingerprint := fingerprint
  correlationId := none
  causationId := none
  streams := [⟨stream, 0, [event]⟩]

theorem receipt_valid : receipt.validateIntegrity = .ok () := by
  decide +kernel

theorem receipt_collisionFree : CollisionFree (integrityInputs receipt) := by
  have hne : sha256 (toVec (integrityDocument receipt)) ≠ sha256 event.payload := by
    decide +kernel
  have hevents : ∀ s ∈ receipt.streams, ∀ e ∈ s.events, e = event := by
    simp [receipt]
  rintro x hx y hy heq
  rcases hx with rfl | ⟨s, hs, e, he, rfl⟩ <;> rcases hy with rfl | ⟨s', hs', e', he', rfl⟩
  · rfl
  · rw [hevents s' hs' e' he'] at heq
    exact absurd heq hne
  · rw [hevents s hs e he] at heq
    exact absurd heq.symm hne
  · rw [hevents s hs e he, hevents s' hs' e' he']

/-- A receipt that was read back with the digest of the first one is the first one. -/
theorem receipt_eq_of_integrityDigest_opened :
    { receipt with completion := decision.completion }.withoutCompletion = receipt := by
  have hfree : CollisionFree (integrityInputs receipt ∪ integrityInputs receipt) := by
    rw [Set.union_self]
    exact receipt_collisionFree
  have hfit : receipt.BasesFit := by
    simp [TransactionReceipt.BasesFit, receipt]
  have := Crates.concrete_lawful
  exact receipt_eq_of_integrityDigest hfree hfit hfit rfl rfl receipt_valid receipt_valid rfl

end Sample

end Rostfrei
