import Rostfrei.Core.Outcome

/-!
# Recovering completed outcomes

How a completed outcome is read back: the details of its marker are looked up in a hot and an
optional cold reader (`resolveDetails`), and `CompletedOutcome.toInline` puts them back into the
receipt.
-/

namespace Rostfrei

open Lib

inductive DetailUnavailableReason where
  | missingDetails
  | backendUnavailable
deriving DecidableEq, Repr

/-- The `Debug` name. -/
def DetailUnavailableReason.name : DetailUnavailableReason → String
  | missingDetails => "MissingDetails"
  | backendUnavailable => "BackendUnavailable"

inductive OutcomeDetails where
  | available (details : EncodedOutcomeDetails)
  | expired
  | archived (reference : ArchiveReference)
  | unavailable (reason : DetailUnavailableReason)
deriving DecidableEq

inductive OutcomeRecoveryError where
  | integrityMismatch
  | expired
  | archived (reference : ArchiveReference)
  | unavailable (reason : DetailUnavailableReason)
deriving DecidableEq

/-- The `Display` text. -/
def OutcomeRecoveryError.toString [Crates] : OutcomeRecoveryError → String
  | integrityMismatch =>
    "completed outcome details do not match the immutable winning reference"
  | expired => "completed outcome details expired"
  | archived reference =>
    "completed outcome is archived at ArchiveReference(" ++ strDebug reference.value ++ ")"
  | unavailable reason => "completed outcome details unavailable: " ++ reason.name

/-- `OutcomeDetails::available`. -/
def OutcomeDetails.getAvailable : OutcomeDetails → Except OutcomeRecoveryError EncodedOutcomeDetails
  | available details => .ok details
  | expired => .error .expired
  | archived reference => .error (.archived reference)
  | unavailable reason => .error (.unavailable reason)

/-- A marker with what is known of its details. -/
structure CompletedOutcome where
  marker : OutcomeMarker
  details : OutcomeDetails
deriving DecidableEq

/-- `validate_detail_binding`, for encoded details. -/
def validateDetailBinding (marker : OutcomeMarker) (details : OutcomeDetails) :
    Except OutcomeRecoveryError Unit :=
  match details with
  | .available encoded => rejectIf (encoded.reference ≠ marker.reference) .integrityMismatch
  | _ => .ok ()

/-- A receipt that includes its completion. -/
abbrev InlineCompletedOutcome := TransactionReceipt

inductive CompletedAppendOutcome where
  | appended (outcome : InlineCompletedOutcome)
  | exactReplay (outcome : InlineCompletedOutcome)
deriving DecidableEq

/-- The answer to a session's `commit_outcome`. -/
inductive CompletedCommit where
  | appended (outcome : CompletedOutcome)
  | exactReplay (outcome : CompletedOutcome)
deriving DecidableEq

namespace CompletedOutcome

/-- `CompletedOutcome::new`. -/
def new (marker : OutcomeMarker) (details : OutcomeDetails) :
    Except OutcomeRecoveryError CompletedOutcome := do
  validateDetailBinding marker details
  return ⟨marker, details⟩

/-- `CompletedOutcome::to_inline`. -/
def toInline (outcome : CompletedOutcome) :
    Except OutcomeRecoveryError InlineCompletedOutcome := do
  validateDetailBinding outcome.marker outcome.details
  let details ← outcome.details.getAvailable
  return match details.completion with
    | some completion => { outcome.marker.integrity with completion := some completion }
    | none => outcome.marker.integrity

end CompletedOutcome

/-! ## Readers -/

inductive DetailRead where
  | found (bytes : Bytes)
  | absentHere
  | archived (reference : ArchiveReference)
deriving DecidableEq

inductive DetailReadError where
  | unavailable
  | forbidden
  | corrupt
  | configurationMismatch
deriving DecidableEq, Repr

namespace DetailReadError

/-- The `Display` text. -/
def toString : DetailReadError → String
  | unavailable => "detail backend unavailable"
  | forbidden => "detail read forbidden"
  | corrupt => "detail integrity failure"
  | configurationMismatch => "detail backend configuration mismatch"

def storeKind : DetailReadError → EventStoreErrorKind
  | forbidden => .detailForbidden
  | configurationMismatch => .configurationMismatch
  | corrupt => .corruptHistory
  | unavailable => .unavailable

end DetailReadError

section Resolve

variable [Crates]

/-- The loop of `resolve_details` over the answers of the readers, in order. -/
def resolveReads (reference : OutcomeDetailReference) (unavailable : Bool)
    (archive : Option ArchiveReference) :
    List (Except DetailReadError DetailRead) → Except EventStoreError OutcomeDetails
  | [] =>
    .ok <|
      if unavailable then .unavailable .backendUnavailable
      else
        match archive with
        | some archived => .archived archived
        | none => .unavailable .missingDetails
  | .ok (.found bytes) :: _ => do
    let details ← EncodedOutcomeDetails.decode reference bytes
    return .available details
  | .ok .absentHere :: rest => resolveReads reference unavailable archive rest
  | .ok (.archived archived) :: rest => resolveReads reference unavailable (some archived) rest
  | .error .unavailable :: rest => resolveReads reference true archive rest
  | .error e :: _ => .error (.new e.storeKind e.toString)

/-- `resolve_details`: the hot reader, then the cold one. -/
def resolveDetails (reference : OutcomeDetailReference) (hot : Except DetailReadError DetailRead)
    (cold : Option (Except DetailReadError DetailRead)) : Except EventStoreError OutcomeDetails :=
  resolveReads reference false none (hot :: cold.toList)

/-- `recovery_error` of `memory.rs`. -/
def recoveryError (e : OutcomeRecoveryError) : EventStoreError :=
  (EventStoreError.new
    (match e with
      | .integrityMismatch => .corruptHistory
      | .expired => .completedDetailsExpired
      | .archived _ => .completedDetailsUnavailable
      | .unavailable _ => .completedDetailsUnavailable)
    e.toString).inOutcomeRecovery

end Resolve

end Rostfrei
