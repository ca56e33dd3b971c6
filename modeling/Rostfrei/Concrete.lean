import Rostfrei.Core.Store
import Rostfrei.Lib.Base64
import Rostfrei.Lib.JsonText
import Rostfrei.Lib.Sha256

/-!
# The crates as they compute

`Crates.concrete` runs: SHA-256, compact JSON text and padded base64, and the `Debug` form of text
without characters that need Unicode tables. It is lawful and compact, so the laws of
`Crates.Lawful` and `Crates.Compact` ask for nothing that no implementation has. The texts of the
two readers' errors are not reproduced.

`Sample` has a small account: one stream with one event, and a decision without events.
-/

namespace Rostfrei

open Lib

/-- An ASCII character in the `Debug` form of a `str`. -/
def debugChar (c : Char) : List Char :=
  if c = '"' then ['\\', '"']
  else if c = '\\' then ['\\', '\\']
  else if c = '\n' then ['\\', 'n']
  else if c = '\r' then ['\\', 'r']
  else if c = '\t' then ['\\', 't']
  else if c.toNat = 0 then ['\\', '0']
  else if c.toNat < 32 ∨ c.toNat = 127 then
    "\\u\x7b".toList ++ Nat.toDigits 16 c.toNat ++ ['\x7d']
  else [c]

@[reducible] def Crates.concrete : Crates where
  sha256 := Sha256.hash
  toVec j := j.print.flatMap String.utf8EncodeChar
  fromSlice bytes := (ofUtf8? bytes).bind fun s => Json.parse maxJsonDepth s.toList
  jsonError type _ := "invalid " ++ type
  base64Encode := Base64.encode
  base64Decode := Base64.decode
  base64Error _ := "invalid base64"
  strDebug s := String.ofList ('"' :: s.toList.flatMap debugChar ++ ['"'])

/-- What is read from a written text is what the parser reads from it. -/
theorem Crates.concrete_fromSlice (j : Json) :
    @fromSlice Crates.concrete (@toVec Crates.concrete j) = Json.parse maxJsonDepth j.print := by
  show (ofUtf8? (j.print.flatMap String.utf8EncodeChar)).bind _ = _
  rw [← utf8_ofList, ofUtf8?_utf8, Option.bind_some, String.toList_ofList]

theorem Crates.concrete_lawful : @Crates.Lawful Crates.concrete :=
  letI := Crates.concrete
  { fromSlice_toVec := fun j hj => by
      rw [Crates.concrete_fromSlice]
      exact Json.parse_print hj
    base64Decode_encode := Base64.decode_encode }

/-- The bytes of a text whose items follow commas. -/
theorem flatMap_utf8_commas {α : Type} (print : α → List Char) (items : List α) :
    (items.flatMap fun j => ',' :: print j).flatMap String.utf8EncodeChar =
      (items.map fun j => (print j).flatMap String.utf8EncodeChar).flatMap (0x2c :: ·) := by
  have hcomma : String.utf8EncodeChar ',' = [0x2c] := by decide
  induction items with
  | nil => rfl
  | cons j items ih =>
    simp only [List.flatMap_cons, List.map_cons, List.flatMap_append, ih, hcomma, List.cons_append,
      List.nil_append]

theorem Crates.concrete_compact : @Crates.Compact Crates.concrete :=
  letI := Crates.concrete
  { length_toVec_le := Json.length_print_le
    toVec_arr := fun items => by
      have hopen : String.utf8EncodeChar '[' = [0x5b] := by decide
      have hclose : String.utf8EncodeChar ']' = [0x5d] := by decide
      show (Json.print (.arr items)).flatMap String.utf8EncodeChar = _
      cases items with
      | nil => simp [Json.print, joinComma, hopen, hclose]
      | cons item items =>
        simp [Json.print, Json.printItems_eq, joinComma, hopen, hclose, flatMap_utf8_commas]
        rfl
    toVec_obj := fun fields => by
      have hopen : String.utf8EncodeChar '{' = [0x7b] := by decide
      have hclose : String.utf8EncodeChar '}' = [0x7d] := by decide
      have hcolon : String.utf8EncodeChar ':' = [0x3a] := by decide
      have hkey : ∀ s, toVec (.str s) = (Json.printString s).flatMap String.utf8EncodeChar := by
        intro s
        show (Json.print (.str s)).flatMap String.utf8EncodeChar = _
        rw [Json.print]
      show (Json.print (.obj fields)).flatMap String.utf8EncodeChar = _
      cases fields with
      | nil => simp [Json.print, joinComma, hopen, hclose]
      | cons f fields =>
        simp [Json.print, Json.printFields_eq, Json.printField, joinComma, hopen, hclose, hcolon,
          flatMap_utf8_commas, hkey]
        rfl
    toVec_injective := fun {d i j} hi hj h => by
      have hi := Json.parse_print hi
      have hj := Json.parse_print hj
      have hprint : i.print = j.print := by
        have hbytes : utf8 (String.ofList i.print) = utf8 (String.ofList j.print) := by
          rw [utf8_ofList, utf8_ofList]
          exact h
        exact String.ofList_injective (utf8_inj hbytes)
      rw [hprint] at hi
      exact Option.some.inj (hi.symm.trans hj) }

namespace Sample

attribute [local instance] Crates.concrete

def authority : CommandAuthority := ⟨"memory:0", by decide +kernel⟩
def context : BoundedContextName := ⟨"billing", by decide +kernel⟩
def operation : OperationId := ⟨"op-1", by decide +kernel⟩
def stream : StreamId := ⟨⟨"account", by decide +kernel⟩, ⟨"7", by decide +kernel⟩⟩
def fingerprint : ContentFingerprint := Vector.replicate 32 0

/-- The event of the operation, with its derived identity. -/
def opened : NewEvent where
  eventId := deriveEventId (deriveCommitId stream operation) 0
  eventType := "opened"
  schemaVersion := 1
  payload := [123, 125]
  eventType_valid := by decide +kernel
  schemaVersion_ne := by decide
  payload_le := by decide

def batch : EventBatch where
  actor := none
  commitId := deriveCommitId stream operation
  operationId := operation
  operationFingerprint := fingerprint
  events := [opened]
  correlationId := none
  causationId := none
  events_ne := by simp
  events_le := by decide
  payload_le := by decide
  ids_nodup := by simp

/-- The event as the first one of its stream. -/
def event : RecordedEvent := .fromNew stream 1 batch 0 1 opened

/-- An accepted decision without participants. -/
def decision : EventTransaction :=
  { EventTransaction.new operation fingerprint [] with
    boundedContext := some context
    completion := some (.new (some ⟨none, none, 1, "open-account", 1, false, none⟩) none) }

end Sample

end Rostfrei
