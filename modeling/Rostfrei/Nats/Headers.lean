import Rostfrei.Nats.Config
import Rostfrei.Lib.JsonText
import Rostfrei.Lib.Split

/-!
# Messages of an atomic batch

`atomicMessages`: the messages that `publish_atomic_messages` sends for a batch, with the headers
that carry their place in the batch and what they expect of their subject. The readers take the
headers apart again with `requiredSingleHeader`, `optionalSingleHeader` and the checks that use
them; `atomicHeaders_*` say what each header of a sent message is.
-/

namespace Rostfrei.Nats

open Lib

/-! ## Header maps -/

/-- `HeaderMap`: names with their values, in order. -/
abbrev HeaderMap := List (String × String)

namespace HeaderMap

/-- `HeaderMap::insert`: replaces the values of the name. -/
def insert (headers : HeaderMap) (name value : String) : HeaderMap :=
  headers.filter (·.1 ≠ name) ++ [(name, value)]

/-- `insert` under `if let Some`. -/
def insertSome (headers : HeaderMap) (name : String) : Option String → HeaderMap
  | none => headers
  | some value => headers.insert name value

/-- `HeaderMap::get_all`. -/
def getAll (headers : HeaderMap) (name : String) : List String :=
  (headers.filter (·.1 = name)).map Prod.snd

@[simp] theorem getAll_nil (name : String) : getAll [] name = [] := rfl

theorem getAll_insert_self (headers : HeaderMap) (name value : String) :
    getAll (headers.insert name value) name = [value] := by
  simp [getAll, insert, List.filter_append, List.filter_filter]

theorem getAll_insert_of_ne {headers : HeaderMap} {name other value : String}
    (h : name ≠ other) : getAll (headers.insert other value) name = getAll headers name := by
  have hboth : ∀ x : String × String, (decide (x.1 = name) && decide (x.1 ≠ other)) =
      decide (x.1 = name) := by
    intro x
    by_cases hx : x.1 = name <;> simp [hx, h]
  simp only [getAll, insert, List.filter_append, List.filter_filter, hboth]
  simp [h.symm]

theorem getAll_insertSome_self {headers : HeaderMap} {name : String}
    (h : getAll headers name = []) (value : Option String) :
    getAll (headers.insertSome name value) name = value.toList := by
  cases value with
  | none => exact h
  | some v => exact getAll_insert_self headers name v

theorem getAll_insertSome_of_ne {headers : HeaderMap} {name other : String} (h : name ≠ other)
    (value : Option String) : getAll (headers.insertSome other value) name = getAll headers name := by
  cases value with
  | none => rfl
  | some v => exact getAll_insert_of_ne h

end HeaderMap

def natsRequiredApiLevel : String := "Nats-Required-Api-Level"
def natsBatchId : String := "Nats-Batch-Id"
def natsBatchSequence : String := "Nats-Batch-Sequence"
def natsBatchCommit : String := "Nats-Batch-Commit"
def natsBatchCommitFinal : String := "1"
def natsExpectedStream : String := "Nats-Expected-Stream"
def natsExpectedLastSubjectSequence : String := "Nats-Expected-Last-Subject-Sequence"
def natsExpectedLastSubjectSequenceSubject : String :=
  "Nats-Expected-Last-Subject-Sequence-Subject"
def natsMsgId : String := "Nats-Msg-Id"
def contentType : String := "Content-Type"
def correlationIdHeader : String := "rostfrei-Control-Correlation-Id"
def atomicBatchApiLevel : String := "2"

/-- `optional_single_header`. -/
def optionalSingleHeader (headers : HeaderMap) (name : String) :
    Except EventStoreError (Option String) :=
  match headers.getAll name with
  | [] => .ok none
  | [value] => .ok (some value)
  | _ => .error (corrupt ("stored event repeats " ++ name))

/-- `required_single_header`. -/
def requiredSingleHeader (headers : HeaderMap) (name : String) : Except EventStoreError String := do
  let value ← optionalSingleHeader headers name
  okOr (corrupt ("stored event is missing " ++ name)) value

/-- `str::parse` for a `u64` or a `usize`: decimal digits, with at most one plus before them. -/
def parseU64 (text : String) : Option Nat :=
  let digits :=
    match text.toList with
    | '+' :: rest => rest
    | chars => chars
  let value := Nat.ofDigitChars 10 digits 0
  if digits ≠ [] ∧ digits.all Char.isDigit ∧ value < 2 ^ 64 then some value else none

/-- The decimal text of a `u64` is read back. -/
theorem parseU64_toString {n : Nat} (h : n < 2 ^ 64) : parseU64 (toString n) = some n := by
  have hparse : parseU64 (toString n) = parseUnsigned 64 (toString n).toList := rfl
  have hchars : (toString n).toList = Nat.toDigits 10 n := by
    simp
  rw [hparse, hchars, parseUnsigned_toDigits h]

/-! ## Messages -/

/-- A message of a stream, without its sequence. -/
structure Message where
  subject : String
  headers : HeaderMap
  payload : Bytes
deriving DecidableEq

structure AtomicPublishMessage where
  subject : String
  messageId : Option String
  payload : Bytes
  expectedLastSubjectSequence : Option Nat
  expectationSubject : Option String
deriving DecidableEq

/-- The headers of message `index` of `count`. -/
def atomicHeaders (config : NatsEventStoreConfig) (batchId : String)
    (correlationId : Option String) (index count : Nat) (atomic : AtomicPublishMessage) :
    HeaderMap :=
  (((((((((HeaderMap.insert [] contentType "application/json").insert
    natsRequiredApiLevel atomicBatchApiLevel).insert
    natsBatchId batchId).insert
    natsBatchSequence (toString (index + 1))).insertSome
    correlationIdHeader correlationId).insertSome
    natsMsgId atomic.messageId).insertSome
    natsExpectedStream (if index = 0 then some config.streamName else none)).insertSome
    natsExpectedLastSubjectSequence (atomic.expectedLastSubjectSequence.map toString)).insertSome
    natsExpectedLastSubjectSequenceSubject atomic.expectationSubject).insertSome
    natsBatchCommit (if index + 1 = count then some natsBatchCommitFinal else none)

/-- The messages that `publish_atomic_messages` sends. -/
def atomicMessages (config : NatsEventStoreConfig) (batchId : String)
    (correlationId : Option String) (messages : List AtomicPublishMessage) : List Message :=
  messages.mapIdx fun index atomic =>
    { subject := atomic.subject
      headers := atomicHeaders config batchId correlationId index messages.length atomic
      payload := atomic.payload }

section AtomicHeaders

/-- A header that is there once is the required one. -/
theorem requiredSingleHeader_of_getAll {headers : HeaderMap} {name value : String}
    (h : headers.getAll name = [value]) : requiredSingleHeader headers name = .ok value := by
  simp [requiredSingleHeader, optionalSingleHeader, h]

theorem optionalSingleHeader_of_getAll {headers : HeaderMap} {name : String}
    {value : Option String} (h : headers.getAll name = value.toList) :
    optionalSingleHeader headers name = .ok value := by
  cases value <;> simp [optionalSingleHeader, h]

variable (config : NatsEventStoreConfig) (batchId : String) (correlationId : Option String)
  (index count : Nat) (atomic : AtomicPublishMessage)

/-- The headers that every message has. -/
theorem atomicHeaders_required :
    let headers := atomicHeaders config batchId correlationId index count atomic
    requiredSingleHeader headers contentType = .ok "application/json" ∧
      requiredSingleHeader headers natsBatchId = .ok batchId ∧
      requiredSingleHeader headers natsBatchSequence = .ok (toString (index + 1)) := by
  refine ⟨requiredSingleHeader_of_getAll ?_, requiredSingleHeader_of_getAll ?_,
    requiredSingleHeader_of_getAll ?_⟩ <;>
  · unfold atomicHeaders
    simp (disch := decide) only [HeaderMap.getAll_insertSome_of_ne, HeaderMap.getAll_insert_of_ne,
      HeaderMap.getAll_insert_self]

/-- The headers that depend on the place and the expectation of the message. -/
theorem atomicHeaders_optional :
    let headers := atomicHeaders config batchId correlationId index count atomic
    optionalSingleHeader headers natsExpectedStream =
        .ok (if index = 0 then some config.streamName else none) ∧
      optionalSingleHeader headers natsExpectedLastSubjectSequence =
        .ok (atomic.expectedLastSubjectSequence.map toString) ∧
      optionalSingleHeader headers natsExpectedLastSubjectSequenceSubject =
        .ok atomic.expectationSubject ∧
      optionalSingleHeader headers natsBatchCommit =
        .ok (if index + 1 = count then some natsBatchCommitFinal else none) := by
  refine ⟨optionalSingleHeader_of_getAll ?_, optionalSingleHeader_of_getAll ?_,
    optionalSingleHeader_of_getAll ?_, optionalSingleHeader_of_getAll ?_⟩ <;>
  · unfold atomicHeaders
    simp -failIfUnchanged (disch := decide) only [HeaderMap.getAll_insertSome_of_ne]
    refine HeaderMap.getAll_insertSome_self ?_ _
    simp (disch := decide) only [HeaderMap.getAll_insertSome_of_ne, HeaderMap.getAll_insert_of_ne,
      HeaderMap.getAll_nil]

end AtomicHeaders

end Rostfrei.Nats
