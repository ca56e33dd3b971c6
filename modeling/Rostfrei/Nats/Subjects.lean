import Rostfrei.Nats.RoundTrip

/-!
# The subjects of an event store

What an event store publishes in its stream: the events of an aggregate, the receipt of an
operation and its read guards, the latter two in either layout of the transactions. Each has a
subject of its own (`text_eq_iff`), as long as SHA-256 does not collide on what is hashed for them:
the label keeps aggregates and transactions apart, the digest the streams, operations and layouts,
and what follows the digest the receipt and the ordinals of the guards.
-/

namespace Rostfrei.Nats

open Lib

inductive EventStoreSubject where
  | aggregate (streamId : StreamId)
  | receipt (layout : TransactionSubjectLayout) (operationId : OperationId)
  | readGuard (layout : TransactionSubjectLayout) (operationId : OperationId) (ordinal : Nat)

/-- What is hashed for the subjects of an operation. -/
def TransactionSubjectLayout.parts (operationId : OperationId) :
    TransactionSubjectLayout → List Bytes
  | operation => [utf8 operationId.value]
  | legacyPrimary primary => legacyPrimaryParts primary operationId.value

theorem TransactionSubjectLayout.parts_inj {layout layout' : TransactionSubjectLayout}
    {op op' : OperationId} (h : layout.parts op = layout'.parts op') : layout = layout' ∧ op = op' := by
  cases layout with
  | operation =>
    cases layout' with
    | operation =>
      exact ⟨rfl, CheckedString.ext (utf8_inj (List.cons.inj h).1)⟩
    | legacyPrimary primary => simp [parts, legacyPrimaryParts] at h
  | legacyPrimary primary =>
    cases layout' with
    | operation => simp [parts, legacyPrimaryParts] at h
    | legacyPrimary primary' =>
      obtain ⟨type, id⟩ := primary
      obtain ⟨type', id'⟩ := primary'
      simp only [parts, legacyPrimaryParts, List.cons.injEq, and_true] at h
      obtain rfl : type = type' := CheckedString.ext (utf8_inj h.1)
      obtain rfl : id = id' := CheckedString.ext (utf8_inj h.2.1)
      exact ⟨rfl, CheckedString.ext (utf8_inj h.2.2)⟩

namespace EventStoreSubject

variable {x y : EventStoreSubject}

/-- What is hashed for a subject. -/
def parts : EventStoreSubject → List Bytes
  | aggregate streamId => streamParts streamId
  | receipt layout operationId => layout.parts operationId
  | readGuard layout operationId _ => layout.parts operationId

/-- What stands before the digest. -/
def label : EventStoreSubject → String
  | aggregate _ => ".aggregate."
  | receipt _ _ | readGuard _ _ _ => ".transaction."

/-- What stands after the digest. -/
def ending : EventStoreSubject → String
  | aggregate _ | receipt _ _ => ""
  | readGuard _ _ ordinal => ".guard." ++ toString ordinal

theorem length_of_mem_parts {part : Bytes} (h : part ∈ x.parts) : part.length < 2 ^ 64 := by
  have hchecked : ∀ {label : String} {limit : Nat} (s : CheckedString (validate label limit)),
      limit ≤ 256 → (utf8 s.value).length < 2 ^ 64 := by
    intro label limit s hlimit
    have hlength := validate_length s.valid
    unfold strLen at hlength
    rw [length_utf8]
    omega
  have hlayout : ∀ (layout : TransactionSubjectLayout) (op : OperationId),
      ∀ part ∈ layout.parts op, part.length < 2 ^ 64 := by
    intro layout op part hpart
    cases layout with
    | operation =>
      rw [List.mem_singleton.mp hpart]
      exact hchecked op (by decide)
    | legacyPrimary primary =>
      simp only [TransactionSubjectLayout.parts, legacyPrimaryParts, List.mem_cons,
        List.not_mem_nil, or_false] at hpart
      rcases hpart with rfl | rfl | rfl
      · exact hchecked primary.aggregateType (by decide)
      · exact hchecked primary.aggregateId (by decide)
      · exact hchecked op (by decide)
  cases x with
  | aggregate streamId =>
    simp only [parts, streamParts, List.mem_cons, List.not_mem_nil, or_false] at h
    rcases h with rfl | rfl
    · exact hchecked streamId.aggregateType (by decide)
    · exact hchecked streamId.aggregateId (by decide)
  | receipt layout op => exact hlayout layout op part h
  | readGuard layout op ordinal => exact hlayout layout op part h

/-- The label, what is hashed and what stands after it determine the subject. -/
theorem eq_of_parts (hlabel : x.label = y.label) (hparts : x.parts = y.parts)
    (hending : x.ending = y.ending) : x = y := by
  have hguard : ∀ ordinal : Nat, ".guard." ++ toString ordinal ≠ "" := by
    intro ordinal h
    simpa using congrArg String.toList h
  cases x with
  | aggregate s =>
    cases y with
    | aggregate s' =>
      obtain ⟨type, id⟩ := s
      obtain ⟨type', id'⟩ := s'
      simp only [parts, streamParts, List.cons.injEq, and_true] at hparts
      obtain rfl : type = type' := CheckedString.ext (utf8_inj hparts.1)
      obtain rfl : id = id' := CheckedString.ext (utf8_inj hparts.2)
      rfl
    | receipt => simp [label] at hlabel
    | readGuard => simp [label] at hlabel
  | receipt layout op =>
    cases y with
    | aggregate => simp [label] at hlabel
    | receipt layout' op' =>
      obtain ⟨rfl, rfl⟩ := TransactionSubjectLayout.parts_inj hparts
      rfl
    | readGuard layout' op' ordinal => exact absurd hending.symm (hguard ordinal)
  | readGuard layout op ordinal =>
    cases y with
    | aggregate => simp [label] at hlabel
    | receipt layout' op' => exact absurd hending (hguard ordinal)
    | readGuard layout' op' ordinal' =>
      obtain ⟨rfl, rfl⟩ := TransactionSubjectLayout.parts_inj hparts
      have hordinal := (String.append_right_inj ".guard.").mp hending
      obtain rfl : ordinal = ordinal' := Nat.repr_injective hordinal
      rfl

section Text

variable [Crates] {config : NatsEventStoreConfig}

/-- The subject, as the configuration derives it. -/
def text (config : NatsEventStoreConfig) : EventStoreSubject → String
  | aggregate streamId => config.aggregateSubject streamId
  | receipt layout operationId => layout.receiptSubject config operationId.value
  | readGuard layout operationId ordinal => layout.guardSubject config operationId.value ordinal

theorem text_eq (x : EventStoreSubject) :
    x.text config = config.subjectPrefix ++ x.label ++ digestParts x.parts ++ x.ending := by
  cases x with
  | aggregate streamId => exact (String.append_empty).symm
  | receipt layout op => cases layout <;> exact (String.append_empty).symm
  | readGuard layout op ordinal => cases layout <;> exact String.append_assoc

theorem text_eq_iff {inputs : Set Bytes} (hfree : CollisionFree inputs)
    (hx : frames x.parts ∈ inputs) (hy : frames y.parts ∈ inputs) :
    x.text config = y.text config ↔ x = y := by
  refine ⟨fun h => ?_, fun h => by rw [h]⟩
  rw [text_eq, text_eq] at h
  have hchars := congrArg String.toList h
  simp only [String.toList_append, List.append_assoc, List.append_cancel_left_eq] at hchars
  have hlabel : x.label = y.label := by
    cases x <;> cases y <;> first | rfl | simp [label] at hchars
  rw [hlabel, List.append_cancel_left_eq] at hchars
  -- the digests have one length, so they end at one place
  obtain ⟨hdigest, hending⟩ := List.append_inj hchars (by simp)
  have hhash : sha256 (frames x.parts) = sha256 (frames y.parts) :=
    Vector.toList_inj.mp (lowerHex_inj (String.toList_inj.mp hdigest))
  have hparts := frames_inj (fun _ => length_of_mem_parts) (fun _ => length_of_mem_parts)
    (hfree hx hy hhash)
  exact eq_of_parts hlabel hparts (String.toList_inj.mp hending)

end Text

end EventStoreSubject

namespace Sample

attribute [local instance] Crates.concrete

/-- The events of an account and the receipt of the operation on it have different subjects. -/
theorem text_eq_iff_receipt :
    (EventStoreSubject.aggregate Rostfrei.Sample.stream).text config =
        (EventStoreSubject.receipt .operation Rostfrei.Sample.operation).text config ↔
      EventStoreSubject.aggregate Rostfrei.Sample.stream =
        .receipt .operation Rostfrei.Sample.operation := by
  have hne : sha256 (frames (EventStoreSubject.aggregate Rostfrei.Sample.stream).parts) ≠
      sha256 (frames (EventStoreSubject.receipt .operation Rostfrei.Sample.operation).parts) := by
    decide +kernel
  suffices hfree : CollisionFree
      {frames (EventStoreSubject.aggregate Rostfrei.Sample.stream).parts,
        frames (EventStoreSubject.receipt .operation Rostfrei.Sample.operation).parts} from
    EventStoreSubject.text_eq_iff hfree (.inl rfl) (.inr rfl)
  rintro _ (rfl | rfl) _ (rfl | rfl) heq
  · rfl
  · exact absurd heq hne
  · exact absurd heq.symm hne
  · rfl

end Sample

end Rostfrei.Nats
