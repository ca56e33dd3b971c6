import Rostfrei.Core.Store
import Rostfrei.Messaging.Address

/-!
# The configuration of a NATS event store

`NatsEventStoreConfig` with the fields that the store's logic reads, and the subjects it derives:
one for each stream, one for the receipt of each operation, one for each read guard of an
operation. What `validate` and `EventByteLimit::new` check are fields.

Subjects are digests of framed parts, so different parts have different subjects as long as
SHA-256 does not collide on them (`aggregateSubject_inj`, `transactionSubject_inj`); subjects of
different kinds differ in any case.
-/

namespace Rostfrei.Nats

open Lib
open Messaging (TrafficScope)

def maxStreamNameLen : Nat := 255
def maxSupportedEventBytes : Nat := 64 * 1024 * 1024

/-- `valid_stream_name`; every excluded byte is an ASCII character. -/
def validStreamName (value : String) : Bool :=
  value ≠ "" && strLen value ≤ maxStreamNameLen &&
    value.toList.all fun c =>
      !(c.toNat = 9 || c.toNat = 10 || c.toNat = 12 || c.toNat = 13 || c.toNat = 32) &&
        !(c.toNat < 32 || c.toNat = 127) && !(c = '.' || c = '*' || c = '>')

structure NatsEventStoreConfig where
  completedOutcomeEpoch : Option String
  splitOutcomes : Bool
  explicitDetailExpiry : Bool
  readOnlyOutcomes : Bool
  legacySecurityScope : Option SecurityScope
  outcomeStateStreamName : String
  application : ApplicationName
  trafficScope : TrafficScope
  boundedContext : BoundedContextName
  streamName : String
  subjectPrefix : String
  maxEventBytes : Nat
  streamName_valid : validStreamName streamName
  maxEventBytes_pos : 0 < maxEventBytes
  maxEventBytes_le : maxEventBytes ≤ maxSupportedEventBytes

section Subjects

variable [Crates]

/-- `digest_parts`; the length of a part has eight bytes. -/
def digestParts (parts : List Bytes) : String := lowerHex (sha256 (frames parts)).toList

/-- What is hashed for the subject of a stream. -/
def streamParts (streamId : StreamId) : List Bytes :=
  [utf8 streamId.aggregateType.value, utf8 streamId.aggregateId.value]

/-- What is hashed for the subject of a receipt in the layout before the current one. -/
def legacyPrimaryParts (primary : StreamId) (operationId : String) : List Bytes :=
  [utf8 primary.aggregateType.value, utf8 primary.aggregateId.value, utf8 operationId]

namespace NatsEventStoreConfig

variable (config : NatsEventStoreConfig)

def aggregateSubject (streamId : StreamId) : String :=
  config.subjectPrefix ++ ".aggregate." ++ digestParts (streamParts streamId)

def transactionSubject (operationId : String) : String :=
  config.subjectPrefix ++ ".transaction." ++ digestParts [utf8 operationId]

def transactionGuardSubject (operationId : String) (ordinal : Nat) : String :=
  config.transactionSubject operationId ++ ".guard." ++ toString ordinal

def legacyPrimaryTransactionSubject (primary : StreamId) (operationId : String) : String :=
  config.subjectPrefix ++ ".transaction." ++ digestParts (legacyPrimaryParts primary operationId)

def legacyPrimaryTransactionGuardSubject (primary : StreamId) (operationId : String)
    (ordinal : Nat) : String :=
  config.legacyPrimaryTransactionSubject primary operationId ++ ".guard." ++ toString ordinal

def outcomeStateSubject (manifest : Bytes) : String :=
  config.subjectPrefix ++ ".outcome." ++ digestParts [manifest]

end NatsEventStoreConfig

/-- `TransactionSubjectLayout`. -/
inductive TransactionSubjectLayout where
  | operation
  | legacyPrimary (primary : StreamId)
deriving DecidableEq

namespace TransactionSubjectLayout

def receiptSubject (config : NatsEventStoreConfig) (operationId : String) :
    TransactionSubjectLayout → String
  | operation => config.transactionSubject operationId
  | legacyPrimary primary => config.legacyPrimaryTransactionSubject primary operationId

def guardSubject (config : NatsEventStoreConfig) (operationId : String) (ordinal : Nat) :
    TransactionSubjectLayout → String
  | operation => config.transactionGuardSubject operationId ordinal
  | legacyPrimary primary =>
    config.legacyPrimaryTransactionGuardSubject primary operationId ordinal

end TransactionSubjectLayout

/-! ## Which subjects are different -/

variable {config : NatsEventStoreConfig}

@[simp] theorem length_digestParts (parts : List Bytes) : (digestParts parts).toList.length = 64 := by
  simp [digestParts]

theorem aggregateSubject_inj {inputs : Set Bytes} {s s' : StreamId} (hfree : CollisionFree inputs)
    (hmem : frames (streamParts s) ∈ inputs) (hmem' : frames (streamParts s') ∈ inputs)
    (h : config.aggregateSubject s = config.aggregateSubject s') : s = s' := by
  have hbytes := hfree hmem hmem' (label_hex_inj h)
  have hlen : ∀ s : StreamId, ∀ p ∈ streamParts s, p.length < 2 ^ 64 := by
    intro s p hp
    have htype := validate_length s.aggregateType.valid
    have hid := validate_length s.aggregateId.valid
    simp only [streamParts, List.mem_cons, List.not_mem_nil, or_false] at hp
    unfold strLen at htype hid
    rcases hp with rfl | rfl <;> rw [length_utf8] <;> omega
  have hparts := frames_inj (hlen s) (hlen s') hbytes
  simp only [streamParts, List.cons.injEq, and_true] at hparts
  obtain ⟨type, id⟩ := s
  obtain ⟨type', id'⟩ := s'
  obtain rfl : type = type' := CheckedString.ext (utf8_inj hparts.1)
  obtain rfl : id = id' := CheckedString.ext (utf8_inj hparts.2)
  rfl

theorem transactionSubject_inj {inputs : Set Bytes} {op op' : OperationId}
    (hfree : CollisionFree inputs) (hmem : frames [utf8 op.value] ∈ inputs)
    (hmem' : frames [utf8 op'.value] ∈ inputs)
    (h : config.transactionSubject op.value = config.transactionSubject op'.value) : op = op' := by
  have hbytes := hfree hmem hmem' (label_hex_inj h)
  have hlen : ∀ op : OperationId, ∀ p ∈ [utf8 op.value], p.length < 2 ^ 64 := by
    intro op p hp
    have hop := validate_length op.valid
    unfold strLen at hop
    rw [List.mem_singleton.mp hp, length_utf8]
    omega
  have hparts := frames_inj (hlen op) (hlen op') hbytes
  simp only [List.cons.injEq, and_true] at hparts
  exact CheckedString.ext (utf8_inj hparts)

theorem aggregateSubject_ne_transactionSubject (s : StreamId) (op : String) :
    config.aggregateSubject s ≠ config.transactionSubject op := by
  intro h
  have hchars := congrArg String.toList h
  simp only [NatsEventStoreConfig.aggregateSubject, NatsEventStoreConfig.transactionSubject,
    String.toList_append, List.append_assoc, List.append_cancel_left_eq] at hchars
  simp at hchars

theorem aggregateSubject_ne_guardSubject (s : StreamId) (op : String) (ordinal : Nat) :
    config.aggregateSubject s ≠ config.transactionGuardSubject op ordinal := by
  intro h
  have hchars := congrArg String.toList h
  simp only [NatsEventStoreConfig.aggregateSubject, NatsEventStoreConfig.transactionSubject,
    NatsEventStoreConfig.transactionGuardSubject, String.toList_append, List.append_assoc,
    List.append_cancel_left_eq] at hchars
  simp at hchars

/-- A guard subject is longer than a receipt subject. -/
theorem transactionSubject_ne_guardSubject (op op' : String) (ordinal : Nat) :
    config.transactionSubject op ≠ config.transactionGuardSubject op' ordinal := by
  intro h
  have hlength := congrArg (·.toList.length) h
  simp only [NatsEventStoreConfig.transactionSubject,
    NatsEventStoreConfig.transactionGuardSubject, String.toList_append, List.length_append,
    length_digestParts] at hlength
  have hguard : ".guard.".toList.length = 7 := by decide
  omega

end Subjects

end Rostfrei.Nats
