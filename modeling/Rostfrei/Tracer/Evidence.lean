import Rostfrei.Tracer.Correlation

/-!
# Raw evidence

The raw observations of a correlation and the conflicts between them, in a budget of bytes that the
records of one capability share. An insertion works on a copy and puts it in place at the end, if the
budget has room for it (`replaceEvidence`).

`insertEvidence_cases` says once what an insertion can do.
-/

namespace Rostfrei.Tracer

open Lib Messaging

def maximumRawEvidenceBytesPerCorrelation : Nat := 4 * 1024 * 1024
def maximumTotalRawEvidenceBytes : Nat := 64 * 1024 * 1024
def maximumRawEvidenceBytesPerCapability : Nat := maximumTotalRawEvidenceBytes / 2
def rawEvidenceConflictReserveBytes : Nat := 256 * 1024
def maximumRawSeriesBytesPerCorrelation : Nat :=
  maximumRawEvidenceBytesPerCorrelation - rawEvidenceConflictReserveBytes
def maximumObservationConflicts : Nat := 64
def maximumObservationConflictValueBytes : Nat := 8 * 1024

/-- The `Display` text. -/
def ObservedMessageSeriesError.toString : ObservedMessageSeriesError → String
  | invalidMessage field => "observed message " ++ field ++ " is invalid"
  | invalidOutcome field => "observed command outcome " ++ field ++ " is invalid"
  | messageSeries error => error.toString
  | outcomeIdentityConflict => "observed command outcome identity conflicts"
  | duplicateSerializedMessage =>
    "serialized observed message series contains a duplicate message identity"
  | duplicateSerializedOutcome =>
    "serialized observed message series contains a duplicate command outcome"
  | tooManyMessages => "observed message series contains more than 4096 messages"
  | tooManyOutcomes => "observed message series contains more than 4096 command outcomes"
  | invalidObservationOrder =>
    "observed message series observation orders must be unique contiguous insertion ordinals"
  | observationOrderOverflow => "observed message series observation order overflowed"

/-- `observation_error`. -/
def observationError (error : ObservedMessageSeriesError) : CorrelationError :=
  .invalidId error.toString

/-- Whatever is in a series is still in the other one, at its place. -/
structure ObservedMessageSeries.Extends (s s' : ObservedMessageSeries) : Prop where
  messages : s.messages.nodes <+: s'.messages.nodes
  outcomes : s.commandOutcomes <+: s'.commandOutcomes

namespace ObservedMessageSeries

variable {s s' s'' : ObservedMessageSeries} {outcome : MessageSeriesInsertOutcome}

theorem Extends.refl (s : ObservedMessageSeries) : s.Extends s :=
  ⟨List.prefix_refl _, List.prefix_refl _⟩

theorem Extends.trans (h : s.Extends s') (h' : s'.Extends s'') : s.Extends s'' :=
  ⟨h.messages.trans h'.messages, h.outcomes.trans h'.outcomes⟩

theorem insertMessage_extends {message : ObservedMessageNode}
    (h : s.insertMessage message = .ok (outcome, s')) : s.Extends s' := by
  cases (insertMessage_eq_ok h).2 with
  | duplicate => exact .refl s
  | inserted _ _ hnodes houtcomes =>
    exact ⟨hnodes ▸ List.prefix_append _ _, houtcomes ▸ List.prefix_refl _⟩

theorem insertCommandOutcome_extends {o : ObservedCommandOutcome}
    (h : s.insertCommandOutcome o = .ok (outcome, s')) : s.Extends s' := by
  rw [insertCommandOutcome, bind_unit_eq_ok] at h
  replace h := h.2
  split at h
  · split at h
    · obtain ⟨-, rfl⟩ := Prod.mk.inj (Except.ok.inj h)
      exact .refl s
    · cases h
  · split at h
    · simp only [bind_eq_ok, pure_eq_ok, Prod.mk.injEq] at h
      obtain ⟨_, -, _, -, -, rfl⟩ := h
      exact ⟨List.prefix_refl _, List.prefix_append _ _⟩
    · cases h

end ObservedMessageSeries

/-! ## The budget -/

structure RawEvidenceBudget where
  maximumBytes : Nat
  retainedBytes : Nat
deriving DecidableEq, Repr

namespace RawEvidenceBudget

variable {budget budget' : RawEvidenceBudget} {current replacement : Nat}

/-- `replace`. -/
def replace (budget : RawEvidenceBudget) (current replacement : Nat) :
    Except CorrelationError RawEvidenceBudget := do
  rejectIf (budget.retainedBytes < current) .capacityExhausted
  let next ← okOr .capacityExhausted ((checkedAdd (budget.retainedBytes - current)
    replacement).filter (· ≤ budget.maximumBytes))
  return { budget with retainedBytes := next }

/-- `release`. -/
def release (budget : RawEvidenceBudget) (released : Nat) : RawEvidenceBudget :=
  { budget with retainedBytes := budget.retainedBytes - released }

theorem replace_eq_ok (h : budget.replace current replacement = .ok budget') :
    budget'.maximumBytes = budget.maximumBytes ∧ budget'.retainedBytes ≤ budget.maximumBytes ∧
      budget'.retainedBytes + current = budget.retainedBytes + replacement := by
  rw [replace, bind_unit_eq_ok, rejectIf_eq_ok] at h
  simp only [bind_eq_ok, okOr_eq_ok, pure_eq_ok, Option.filter_eq_some_iff, checkedAdd_eq_some,
    decide_eq_true_eq] at h
  obtain ⟨hcurrent, next, ⟨⟨-, hnext⟩, hmaximum⟩, rfl⟩ := h
  refine ⟨rfl, hmaximum, ?_⟩
  dsimp only
  omega

end RawEvidenceBudget

/-! ## Fitting -/

variable [Crates]

/-- The length of `SerializedRawEvidence`. -/
def rawEvidenceLen (observed : ObservedMessageSeries)
    (conflicts : List CorrelationObservationConflict) : Nat :=
  (toVec (.obj [("observedMessageSeries", observed.toJson),
    ("conflicts", .arr (conflicts.map (·.toJson)))])).length

/-- `fit_raw_evidence`: the conflicts that fit, and the bytes that are then retained. -/
def fitRawEvidence (observed : ObservedMessageSeries) (minimumConflicts : Nat) :
    List CorrelationObservationConflict →
      Except CorrelationError (List CorrelationObservationConflict × Nat)
  | [] =>
    let retainedBytes := rawEvidenceLen observed []
    if retainedBytes ≤ maximumRawEvidenceBytesPerCorrelation then .ok ([], retainedBytes)
    else .error .eventTooLarge
  | conflict :: conflicts =>
    let retainedBytes := rawEvidenceLen observed (conflict :: conflicts)
    if retainedBytes ≤ maximumRawEvidenceBytesPerCorrelation then
      .ok (conflict :: conflicts, retainedBytes)
    else if (conflict :: conflicts).length ≤ minimumConflicts then .error .eventTooLarge
    else fitRawEvidence observed minimumConflicts conflicts

/-- What is retained is what is counted, within the limit. The oldest conflicts are dropped. -/
theorem fitRawEvidence_eq_ok {observed : ObservedMessageSeries} {minimumConflicts retainedBytes : Nat}
    {conflicts kept : List CorrelationObservationConflict}
    (h : fitRawEvidence observed minimumConflicts conflicts = .ok (kept, retainedBytes)) :
    kept <:+ conflicts ∧ retainedBytes = rawEvidenceLen observed kept ∧
      retainedBytes ≤ maximumRawEvidenceBytesPerCorrelation := by
  induction conflicts with
  | nil =>
    rw [fitRawEvidence] at h
    split at h
    · next hfits =>
      obtain ⟨rfl, rfl⟩ := Prod.mk.inj (Except.ok.inj h)
      exact ⟨List.suffix_refl _, rfl, hfits⟩
    · cases h
  | cons conflict conflicts ih =>
    rw [fitRawEvidence] at h
    split at h
    · next hfits =>
      obtain ⟨rfl, rfl⟩ := Prod.mk.inj (Except.ok.inj h)
      exact ⟨List.suffix_refl _, rfl, hfits⟩
    · split at h
      · cases h
      · obtain ⟨hkept, hbytes, hfits⟩ := ih h
        exact ⟨hkept.trans (List.suffix_cons _ _), hbytes, hfits⟩

/-! ## Conflicts -/

/-- `bounded_conflict_value`, of a value that has been turned into a `Value`. -/
def boundedConflictValue (value : Json) : Option Json :=
  if (toVec value.canonical).length ≤ maximumObservationConflictValueBytes then
    some value.canonical
  else none

/-- `observation_conflict`. -/
def observationConflict (identity : String) (error : ObservedMessageSeriesError)
    (existing observed : Json) : CorrelationObservationConflict :=
  ⟨identity, error.toString, boundedConflictValue existing, boundedConflictValue observed⟩

/-! ## Insertions -/

namespace CorrelationEvidenceState

/-- `replace_evidence`. -/
def replaceEvidence (evidence : CorrelationEvidenceState) (budget : RawEvidenceBudget)
    (observed : ObservedMessageSeries) (conflicts : List CorrelationObservationConflict)
    (retainedBytes : Nat) :
    Except CorrelationError (CorrelationEvidenceState × RawEvidenceBudget) := do
  let budget ← budget.replace evidence.retainedBytes retainedBytes
  return ({ evidence with
    observed := observed
    conflicts := conflicts
    retainedBytes := retainedBytes
    revision := saturatingAdd evidence.revision 1 }, budget)

/-- `replace_observed`. -/
def replaceObserved (evidence : CorrelationEvidenceState) (budget : RawEvidenceBudget)
    (observed : ObservedMessageSeries) :
    Except CorrelationError (CorrelationEvidenceState × RawEvidenceBudget) := do
  rejectIf ((toVec observed.toJson).length > maximumRawSeriesBytesPerCorrelation) .eventTooLarge
  let (conflicts, retainedBytes) ← fitRawEvidence observed 0 evidence.conflicts
  evidence.replaceEvidence budget observed conflicts retainedBytes

/-- `retain_conflict`. -/
def retainConflict (evidence : CorrelationEvidenceState) (budget : RawEvidenceBudget)
    (conflict : CorrelationObservationConflict) :
    Except CorrelationError (CorrelationEvidenceState × RawEvidenceBudget) := do
  let conflicts := evidence.conflicts ++ [conflict]
  let conflicts := conflicts.drop (conflicts.length - maximumObservationConflicts)
  let (conflicts, retainedBytes) ← fitRawEvidence evidence.observed 1 conflicts
  evidence.replaceEvidence budget evidence.observed conflicts retainedBytes

/-- What follows the insertion into a copy of the series. `conflict` is the conflict with what is
retained under one of the identities, if there is such a thing. -/
def insertEvidence (evidence : CorrelationEvidenceState) (budget : RawEvidenceBudget)
    (conflict : ObservedMessageSeriesError → Option CorrelationObservationConflict) :
    Except ObservedMessageSeriesError (MessageSeriesInsertOutcome × ObservedMessageSeries) →
      Except CorrelationError MessageSeriesInsertOutcome ×
        CorrelationEvidenceState × RawEvidenceBudget
  | .ok (.duplicate, _) => (.ok .duplicate, evidence, budget)
  | .ok (.inserted, observed) =>
    match evidence.replaceObserved budget observed with
    | .ok (evidence, budget) => (.ok .inserted, evidence, budget)
    | .error e => (.error e, evidence, budget)
  | .error error =>
    match conflict error with
    | none => (.error (observationError error), evidence, budget)
    | some conflict =>
      match evidence.retainConflict budget conflict with
      | .ok (evidence, budget) => (.error (observationError error), evidence, budget)
      | .error capacity => (.error capacity, evidence, budget)

/-- `insert_message_evidence`. -/
def insertMessageEvidence (evidence : CorrelationEvidenceState) (budget : RawEvidenceBudget)
    (message : ObservedMessageNode) :
    Except CorrelationError MessageSeriesInsertOutcome ×
      CorrelationEvidenceState × RawEvidenceBudget :=
  evidence.insertEvidence budget
    (fun error => (evidence.observed.messages.get message.messageId).map fun existing =>
      observationConflict message.messageId error existing.toJson message.toJson)
    (evidence.observed.insertMessage message)

/-- `insert_command_outcome_evidence`. -/
def insertCommandOutcomeEvidence (evidence : CorrelationEvidenceState) (budget : RawEvidenceBudget)
    (outcome : ObservedCommandOutcome) :
    Except CorrelationError MessageSeriesInsertOutcome ×
      CorrelationEvidenceState × RawEvidenceBudget :=
  let existing := evidence.observed.commandOutcomes.find? fun existing =>
    existing.commandMessageId = outcome.commandMessageId ||
      existing.responseMessageId = outcome.responseMessageId
  evidence.insertEvidence budget
    (fun error => existing.map fun existing =>
      let identity :=
        if existing.commandMessageId = outcome.commandMessageId then outcome.commandMessageId
        else outcome.responseMessageId
      observationConflict identity error (existing.toJsonWith existing.outcome.toJson)
        (outcome.toJsonWith outcome.outcome.toJson))
    (evidence.observed.insertCommandOutcome outcome)

/-! ## What an insertion does -/

variable {evidence evidence' : CorrelationEvidenceState} {budget budget' : RawEvidenceBudget}

/-- The evidence is replaced by some of the same record, which the budget has room for. -/
structure Replaces (evidence : CorrelationEvidenceState) (budget : RawEvidenceBudget)
    (evidence' : CorrelationEvidenceState) (budget' : RawEvidenceBudget) : Prop where
  budget : budget.replace evidence.retainedBytes evidence'.retainedBytes = .ok budget'
  bytes : evidence'.retainedBytes = rawEvidenceLen evidence'.observed evidence'.conflicts
  size : evidence'.retainedBytes ≤ maximumRawEvidenceBytesPerCorrelation
  failure : evidence'.failure = evidence.failure

theorem replaceEvidence_eq_ok {observed : ObservedMessageSeries} {minimumConflicts retainedBytes : Nat}
    {conflicts kept : List CorrelationObservationConflict}
    (hfits : fitRawEvidence observed minimumConflicts conflicts = .ok (kept, retainedBytes))
    (h : evidence.replaceEvidence budget observed kept retainedBytes = .ok (evidence', budget')) :
    evidence.Replaces budget evidence' budget' ∧ evidence'.observed = observed := by
  simp only [replaceEvidence, bind_eq_ok, pure_eq_ok, Prod.mk.injEq] at h
  obtain ⟨_, hbudget, rfl, rfl⟩ := h
  obtain ⟨-, hbytes, hsize⟩ := fitRawEvidence_eq_ok hfits
  exact ⟨⟨hbudget, hbytes, hsize, rfl⟩, rfl⟩

theorem replaceObserved_eq_ok {observed : ObservedMessageSeries}
    (h : evidence.replaceObserved budget observed = .ok (evidence', budget')) :
    evidence.Replaces budget evidence' budget' ∧ evidence'.observed = observed := by
  rw [replaceObserved, bind_unit_eq_ok] at h
  obtain ⟨⟨conflicts, retainedBytes⟩, hfits, hreplace⟩ := bind_eq_ok.mp h.2
  exact replaceEvidence_eq_ok hfits hreplace

theorem retainConflict_eq_ok {conflict : CorrelationObservationConflict}
    (h : evidence.retainConflict budget conflict = .ok (evidence', budget')) :
    evidence.Replaces budget evidence' budget' ∧ evidence'.observed = evidence.observed := by
  obtain ⟨⟨conflicts, retainedBytes⟩, hfits, hreplace⟩ := bind_eq_ok.mp h
  exact replaceEvidence_eq_ok hfits hreplace

/-- An insertion changes nothing, or puts the new series in place, or retains a conflict. -/
theorem insertEvidence_cases
    {conflict : ObservedMessageSeriesError → Option CorrelationObservationConflict}
    {inserted : Except ObservedMessageSeriesError
      (MessageSeriesInsertOutcome × ObservedMessageSeries)}
    {result : Except CorrelationError MessageSeriesInsertOutcome}
    (h : evidence.insertEvidence budget conflict inserted = (result, evidence', budget')) :
    (evidence' = evidence ∧ budget' = budget) ∨
      (evidence.Replaces budget evidence' budget' ∧
        ((result = .ok .inserted ∧ inserted = .ok (.inserted, evidence'.observed)) ∨
          ∃ error, result = .error (observationError error) ∧
            evidence'.observed = evidence.observed)) := by
  cases inserted with
  | ok inserted =>
    obtain ⟨outcome, observed⟩ := inserted
    cases outcome with
    | duplicate =>
      simp only [insertEvidence, Prod.mk.injEq] at h
      exact .inl ⟨h.2.1.symm, h.2.2.symm⟩
    | inserted =>
      rw [insertEvidence] at h
      split at h
      · next hreplace =>
        simp only [Prod.mk.injEq] at h
        obtain ⟨rfl, rfl, rfl⟩ := h
        obtain ⟨hreplaces, hobserved⟩ := replaceObserved_eq_ok hreplace
        exact .inr ⟨hreplaces, .inl ⟨rfl, by rw [hobserved]⟩⟩
      · simp only [Prod.mk.injEq] at h
        exact .inl ⟨h.2.1.symm, h.2.2.symm⟩
  | error error =>
    rw [insertEvidence] at h
    split at h
    · simp only [Prod.mk.injEq] at h
      exact .inl ⟨h.2.1.symm, h.2.2.symm⟩
    · split at h
      · next hretain =>
        simp only [Prod.mk.injEq] at h
        obtain ⟨rfl, rfl, rfl⟩ := h
        obtain ⟨hreplaces, hobserved⟩ := retainConflict_eq_ok hretain
        exact .inr ⟨hreplaces, .inr ⟨error, rfl, hobserved⟩⟩
      · simp only [Prod.mk.injEq] at h
        exact .inl ⟨h.2.1.symm, h.2.2.symm⟩

/-- The two kinds of insertion. -/
inductive Insertion : (CorrelationEvidenceState → RawEvidenceBudget →
    Except CorrelationError MessageSeriesInsertOutcome ×
      CorrelationEvidenceState × RawEvidenceBudget) → Prop where
  | message (message : ObservedMessageNode) : Insertion fun evidence budget =>
      evidence.insertMessageEvidence budget message
  | commandOutcome (outcome : ObservedCommandOutcome) : Insertion fun evidence budget =>
      evidence.insertCommandOutcomeEvidence budget outcome

/-- What an insertion does to the evidence. Only a conflict is refused and still retained, beside the
series as it was. -/
theorem Insertion.cases
    {insertion : CorrelationEvidenceState → RawEvidenceBudget →
      Except CorrelationError MessageSeriesInsertOutcome ×
        CorrelationEvidenceState × RawEvidenceBudget}
    (hinsertion : Insertion insertion) {result : Except CorrelationError MessageSeriesInsertOutcome}
    (h : insertion evidence budget = (result, evidence', budget')) :
    (evidence' = evidence ∧ budget' = budget) ∨
      (evidence.Replaces budget evidence' budget' ∧
        ((result = .ok .inserted ∧ evidence.observed.Extends evidence'.observed) ∨
          ∃ error, result = .error (observationError error) ∧
            evidence'.observed = evidence.observed)) := by
  cases hinsertion with
  | message message =>
    obtain hsame | ⟨hreplaces, ⟨hresult, hinserted⟩ | hconflict⟩ := insertEvidence_cases h
    · exact .inl hsame
    · exact .inr ⟨hreplaces, .inl ⟨hresult, ObservedMessageSeries.insertMessage_extends hinserted⟩⟩
    · exact .inr ⟨hreplaces, .inr hconflict⟩
  | commandOutcome outcome =>
    obtain hsame | ⟨hreplaces, ⟨hresult, hinserted⟩ | hconflict⟩ := insertEvidence_cases h
    · exact .inl hsame
    · exact .inr ⟨hreplaces,
        .inl ⟨hresult, ObservedMessageSeries.insertCommandOutcome_extends hinserted⟩⟩
    · exact .inr ⟨hreplaces, .inr hconflict⟩

end CorrelationEvidenceState

end Rostfrei.Tracer
