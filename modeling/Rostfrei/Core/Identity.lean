import Rostfrei.Crates
import Rostfrei.Lib.Hex
import Rostfrei.Lib.Fallible

/-!
# Identities

The checked strings of `rostfrei-core` and `rostfrei-messaging-core`. A `CheckedString check` is a
string together with the proof that its check accepts it, so an invalid identity cannot be built.

* `validate`: aggregate types and ids, event, commit and operation ids, security scopes.
* `validateIdentifier`: correlation and causation ids (printable ASCII).
* `validateScopeName`: application and bounded context names (lower-case kebab case).
* `ContentFingerprint`: a SHA-256 digest with its hexadecimal text.
* `deriveCommitId`, `deriveEventId`: the identities an append must carry, hashed from its stream,
  its operation and the ordinal of each event.
-/

namespace Rostfrei

open Lib

/-! ## Characters and text -/

/-- `char::is_control`: general category `Cc`. -/
def isControl (c : Char) : Bool :=
  c.toNat < 0x20 || (0x7f ≤ c.toNat && c.toNat < 0xa0)

/-- `char::is_whitespace`: the Unicode property `White_Space`. -/
def isWhitespace (c : Char) : Bool :=
  (0x09 ≤ c.toNat && c.toNat ≤ 0x0d) || c.toNat == 0x20 || c.toNat == 0x85 || c.toNat == 0xa0 ||
    c.toNat == 0x1680 || (0x2000 ≤ c.toNat && c.toNat ≤ 0x200a) || c.toNat == 0x2028 ||
    c.toNat == 0x2029 || c.toNat == 0x202f || c.toNat == 0x205f || c.toNat == 0x3000

/-- `str::trim`, on the characters of the text. -/
def trim (text : List Char) : List Char :=
  ((text.dropWhile isWhitespace).reverse.dropWhile isWhitespace).reverse

/-- `str::len`. -/
def strLen (s : String) : Nat := s.utf8ByteSize

inductive IdentityError where
  | empty (kind : String)
  | tooLong (kind : String) (maximum : Nat)
  | surroundingWhitespace (kind : String)
  | controlCharacter (kind : String)
  | invalidFingerprint
deriving DecidableEq, Repr

namespace IdentityError

/-- The `Display` text. -/
def toString : IdentityError → String
  | empty kind => kind ++ " must not be empty"
  | tooLong kind maximum => kind ++ " exceeds its " ++ ToString.toString maximum ++ "-byte limit"
  | surroundingWhitespace kind => kind ++ " must not have leading or trailing whitespace"
  | controlCharacter kind => kind ++ " must not contain control characters"
  | invalidFingerprint => "content fingerprint must be exactly 64 hexadecimal characters"

end IdentityError

/-- `identity::validate`. -/
def validate (kind : String) (maximum : Nat) (value : String) : Except IdentityError Unit := do
  rejectIf (value = "") (.empty kind)
  rejectIf (strLen value > maximum) (.tooLong kind maximum)
  rejectIf (trim value.toList ≠ value.toList) (.surroundingWhitespace kind)
  rejectIf (value.toList.any isControl) (.controlCharacter kind)

inductive ContractErrorKind where
  | empty
  | tooLong
  | invalidFormat
  | wrongAddressKind
  | wildcard
  | controlCharacter
  | reserved
  | tooManyEntries
  | outOfRange
  | identityConflict
deriving DecidableEq, Repr

/-- `actual` and `maximum` are set for a text that is too long. -/
structure ContractError where
  kind : ContractErrorKind
  field : String
  actual : Option Nat := none
  maximum : Option Nat := none
deriving DecidableEq, Repr

namespace ContractErrorKind

def toString : ContractErrorKind → String
  | empty => "must not be empty"
  | tooLong => "is too long"
  | invalidFormat => "has an invalid format"
  | wrongAddressKind => "has the wrong address kind"
  | wildcard => "contains a wildcard"
  | controlCharacter => "contains a control character"
  | reserved => "is reserved for the transport adapter"
  | tooManyEntries => "contains too many entries"
  | outOfRange => "is outside the supported range"
  | identityConflict => "conflicts with an existing identity"

end ContractErrorKind

namespace ContractError

/-- The `Display` text. -/
def toString (e : ContractError) : String := e.field ++ " " ++ e.kind.toString

/-- `ContractError::bounded`. -/
def bounded (kind : ContractErrorKind) (field : String) (actual maximum : Nat) : ContractError :=
  ⟨kind, field, some actual, some maximum⟩

end ContractError

def maxIdentifierBytes : Nat := 256

/-- `u8::is_ascii_graphic`, for a character whose bytes are all of that class. -/
def isAsciiGraphic (c : Char) : Bool := 0x21 ≤ c.toNat && c.toNat ≤ 0x7e

/-- `validate_identifier` of `value.rs`. -/
def validateIdentifier (field : String) (value : String) : Except ContractError Unit := do
  rejectIf (value = "") ⟨.empty, field, none, none⟩
  rejectIf (strLen value > maxIdentifierBytes)
    (.bounded .tooLong field (strLen value) maxIdentifierBytes)
  rejectIf (value.toList.any isControl) ⟨.controlCharacter, field, none, none⟩
  rejectIf (¬ value.toList.all isAsciiGraphic) ⟨.invalidFormat, field, none, none⟩

def maxScopeNameBytes : Nat := 64

/-- A character of a scope name. -/
def isScopeNameChar (c : Char) : Bool := c.isLower || c.isDigit || c == '-'

/-- Two hyphens in a row somewhere in the text. -/
def hasDoubleHyphen : List Char → Bool
  | '-' :: '-' :: _ => true
  | _ :: rest => hasDoubleHyphen rest
  | [] => false

/-- `validate_scope_name` of `scope.rs`. -/
def validateScopeName (field : String) (value : String) : Except ContractError Unit := do
  rejectIf (value = "") ⟨.empty, field, none, none⟩
  rejectIf (strLen value > maxScopeNameBytes)
    (.bounded .tooLong field (strLen value) maxScopeNameBytes)
  rejectIf (value.toList.any fun c => c == '*' || c == '>') ⟨.wildcard, field, none, none⟩
  rejectIf (value.toList.any isControl) ⟨.controlCharacter, field, none, none⟩
  rejectIf (value.toList.head? = some '-' ∨ value.toList.getLast? = some '-' ∨
      hasDoubleHyphen value.toList ∨ ¬ value.toList.all isScopeNameChar)
    ⟨.invalidFormat, field, none, none⟩

/-- `validate` of `actor.rs`: controls are looked for before surrounding whitespace. -/
def validateActorPart (field : String) (maximum : Nat) (value : String) :
    Except ContractError Unit := do
  rejectIf (value = "") ⟨.empty, field, none, none⟩
  rejectIf (strLen value > maximum) (.bounded .tooLong field (strLen value) maximum)
  rejectIf (value.toList.any isControl) ⟨.controlCharacter, field, none, none⟩
  rejectIf (trim value.toList ≠ value.toList) ⟨.invalidFormat, field, none, none⟩

/-! ## Lengths -/

theorem strLen_le_of_validate {kind value : String} {maximum : Nat}
    (h : validate kind maximum value = .ok ()) : strLen value ≤ maximum := by
  simp only [validate, bind_unit_eq_ok, rejectIf_eq_ok] at h
  omega

theorem strLen_le_of_validateIdentifier {field value : String}
    (h : validateIdentifier field value = .ok ()) : strLen value ≤ maxIdentifierBytes := by
  simp only [validateIdentifier, bind_unit_eq_ok, rejectIf_eq_ok] at h
  omega

theorem strLen_le_of_validateScopeName {field value : String}
    (h : validateScopeName field value = .ok ()) : strLen value ≤ maxScopeNameBytes := by
  simp only [validateScopeName, bind_unit_eq_ok, rejectIf_eq_ok] at h
  omega

theorem strLen_le_of_validateActorPart {field value : String} {maximum : Nat}
    (h : validateActorPart field maximum value = .ok ()) : strLen value ≤ maximum := by
  simp only [validateActorPart, bind_unit_eq_ok, rejectIf_eq_ok] at h
  omega

/-! ## Checked strings -/

/-- A string that `check` accepts. -/
structure CheckedString {ε : Type} (check : String → Except ε Unit) where
  value : String
  valid : check value = .ok ()

namespace CheckedString

variable {ε : Type} {check : String → Except ε Unit}

@[ext] theorem ext {x y : CheckedString check} (h : x.value = y.value) : x = y := by
  cases x; cases y; cases h; rfl

instance : DecidableEq (CheckedString check) := fun x y =>
  decidable_of_iff (x.value = y.value) ⟨ext, fun h => h ▸ rfl⟩

/-- The constructor: the string, if the check accepts it. -/
def new (value : String) : Except ε (CheckedString check) :=
  match h : check value with
  | .ok () => .ok ⟨value, h⟩
  | .error e => .error e

/-- Reading back the text of a checked string gives the checked string. -/
@[simp] theorem new_value (x : CheckedString check) : new x.value = .ok x := by
  unfold new
  split
  · rfl
  · next e h => rw [x.valid] at h; cases h

theorem value_of_new {value : String} {x : CheckedString check} (h : new value = .ok x) :
    x.value = value := by
  unfold new at h
  split at h
  · cases h; rfl
  · cases h

end CheckedString

abbrev AggregateType := CheckedString (validate "aggregate type" 128)
abbrev AggregateId := CheckedString (validate "aggregate id" 256)
abbrev EventId := CheckedString (validate "event id" 128)
abbrev CommitId := CheckedString (validate "commit id" 128)
abbrev OperationId := CheckedString (validate "operation id" 128)
abbrev SecurityScope := CheckedString (validate "security scope" 256)
abbrev CommandAuthority := CheckedString (validate "command authority" 256)
abbrev ArchiveReference := CheckedString (validate "archive reference" 1024)
abbrev CorrelationId := CheckedString (validateIdentifier "correlation_id")
abbrev CausationId := CheckedString (validateIdentifier "causation_id")
abbrev ApplicationName := CheckedString (validateScopeName "application name")
abbrev BoundedContextName := CheckedString (validateScopeName "bounded context name")

/-- Claimed original attribution. -/
structure ActorRef where
  ns : CheckedString (validateActorPart "actor namespace" 128)
  id : CheckedString (validateActorPart "actor id" 256)
deriving DecidableEq

/-- `ActorRef::new`. -/
def ActorRef.new (ns id : String) : Except ContractError ActorRef := do
  let ns ← CheckedString.new ns
  let id ← CheckedString.new id
  return ⟨ns, id⟩

structure StreamId where
  aggregateType : AggregateType
  aggregateId : AggregateId
deriving DecidableEq

/-! ## Fingerprints and derived identities -/

/-- A SHA-256 digest of some content. -/
abbrev ContentFingerprint := Digest

namespace ContentFingerprint

def digest [Crates] (content : Bytes) : ContentFingerprint := sha256 content

def toHex (f : ContentFingerprint) : String := lowerHex f.toList

/-- Exactly 64 hexadecimal digits of either case. -/
def fromHex (value : String) : Except IdentityError ContentFingerprint :=
  if strLen value ≠ 64 then .error .invalidFingerprint
  else
    match ofHexChars? value.toList with
    | none => .error .invalidFingerprint
    | some bytes =>
      if h : bytes.length = 32 then .ok ⟨bytes.toArray, by simpa using h⟩
      else .error .invalidFingerprint

@[simp] theorem fromHex_toHex (f : ContentFingerprint) : fromHex f.toHex = .ok f := by
  have hlen : strLen f.toHex = 64 := by simp [strLen, toHex, utf8ByteSize_lowerHex]
  have hchars : ofHexChars? f.toHex.toList = some f.toList := by
    simp [toHex, ofHexChars?_hexChars]
  have hback : (f.toList).toArray = f.toArray := by simp [Vector.toList]
  simp [fromHex, hlen, hchars, hback]

theorem toHex_inj {f g : ContentFingerprint} (h : f.toHex = g.toHex) : f = g := by
  have := congrArg fromHex h
  simpa using this

end ContentFingerprint

theorem trim_of_plain {text : List Char} (h : ∀ c ∈ text, isWhitespace c = false) :
    trim text = text := by
  have drop : ∀ l : List Char, (∀ c ∈ l, isWhitespace c = false) →
      l.dropWhile isWhitespace = l := by
    intro l hl
    cases l with
    | nil => rfl
    | cons c l => simp [hl c (by simp)]
  unfold trim
  rw [drop text h, drop text.reverse (by simpa using h), List.reverse_reverse]

theorem not_isWhitespace_of_graphic {c : Char} (h : isAsciiGraphic c) :
    isWhitespace c = false := by
  simp only [isAsciiGraphic, Bool.and_eq_true, decide_eq_true_eq] at h
  simp only [isWhitespace, Bool.or_eq_false_iff, Bool.and_eq_false_iff, decide_eq_false_iff_not,
    beq_eq_false_iff_ne]
  omega

theorem not_isControl_of_graphic {c : Char} (h : isAsciiGraphic c) : isControl c = false := by
  simp only [isAsciiGraphic, Bool.and_eq_true, decide_eq_true_eq] at h
  simp only [isControl, Bool.or_eq_false_iff, Bool.and_eq_false_iff, decide_eq_false_iff_not]
  omega

/-- Printable ASCII of the right length passes `validate`. -/
theorem validate_of_graphic {kind value : String} {maximum : Nat} (hne : value ≠ "")
    (hlen : strLen value ≤ maximum) (h : ∀ c ∈ value.toList, isAsciiGraphic c) :
    validate kind maximum value = .ok () := by
  have htrim : trim value.toList = value.toList :=
    trim_of_plain fun c hc => not_isWhitespace_of_graphic (h c hc)
  have hctrl : ¬ value.toList.any isControl := by
    simp only [List.any_eq_true, not_exists, not_and]
    intro c hc
    simp [not_isControl_of_graphic (h c hc)]
  simp only [validate, bind_eq_ok]
  exact ⟨(), by simpa using hne, (), by simpa using hlen, (), by simpa using htrim,
    by simpa using hctrl⟩

/-- A label followed by the hexadecimal text of a digest is a valid identity. -/
theorem validate_label_hex {kind label : String} {maximum : Nat} (d : Digest)
    (hlen : strLen label + 64 ≤ maximum)
    (h : label.toList.all isAsciiGraphic) :
    validate kind maximum (label ++ lowerHex d.toList) = .ok () := by
  apply validate_of_graphic
  · intro he
    have := congrArg strLen he
    simp only [strLen, String.utf8ByteSize_append, utf8ByteSize_lowerHex] at this
    simp at this
  · simpa [strLen, String.utf8ByteSize_append, utf8ByteSize_lowerHex] using hlen
  · intro c hc
    rw [String.toList_append, List.mem_append] at hc
    rcases hc with hc | hc
    · exact List.all_eq_true.mp h c hc
    · have hhex : ∀ c ∈ hexAlphabet, isAsciiGraphic c := List.all_eq_true.mp rfl
      exact hhex c (hexChars_mem _ c (by simpa using hc))

theorem validate_length {kind value : String} {maximum : Nat}
    (h : validate kind maximum value = .ok ()) : strLen value ≤ maximum := by
  simp only [validate, bind_unit_eq_ok, rejectIf_eq_ok] at h
  exact Nat.not_lt.mp h.2.1

/-- The text after a label is the digest. -/
theorem label_hex_inj {label : String} {d d' : Digest}
    (h : label ++ lowerHex d.toList = label ++ lowerHex d'.toList) : d = d' := by
  have hchars := congrArg String.toList h
  rw [String.toList_append, String.toList_append, List.append_cancel_left_eq] at hchars
  have hhex : lowerHex d.toList = lowerHex d'.toList := String.toList_inj.mp hchars
  exact Vector.toList_inj.mp (lowerHex_inj hhex)

section Derived

variable [Crates]

/-- The framed parts that `derive_commit_id` hashes. -/
def commitIdParts (streamId : StreamId) (operationId : OperationId) : List Bytes :=
  [utf8 "rostfrei:commit:v1", utf8 streamId.aggregateType.value,
    utf8 streamId.aggregateId.value, utf8 operationId.value]

/-- `derive_commit_id`. -/
def deriveCommitId (streamId : StreamId) (operationId : OperationId) : CommitId where
  value := "commit:" ++ lowerHex (sha256 (frames (commitIdParts streamId operationId))).toList
  valid := validate_label_hex _ (by decide) (by decide)

/-- The framed parts that `derive_event_id` hashes. -/
def eventIdParts (commitId : CommitId) (ordinal : Nat) : List Bytes :=
  [utf8 "rostfrei:event:v1", utf8 commitId.value, beBytes 4 ordinal]

/-- `derive_event_id`; the ordinal is a `u32`. -/
def deriveEventId (commitId : CommitId) (ordinal : Nat) : EventId where
  value := "event:" ++ lowerHex (sha256 (frames (eventIdParts commitId ordinal))).toList
  valid := validate_label_hex _ (by decide) (by decide)

/-! ## Without collisions, the derived identities determine what they are derived from -/

theorem deriveCommitId_inj {inputs : Set Bytes} {s s' : StreamId} {op op' : OperationId}
    (hfree : CollisionFree inputs) (hmem : frames (commitIdParts s op) ∈ inputs)
    (hmem' : frames (commitIdParts s' op') ∈ inputs)
    (h : deriveCommitId s op = deriveCommitId s' op') : s = s' ∧ op = op' := by
  have hbytes := hfree hmem hmem' (label_hex_inj (congrArg CheckedString.value h))
  have hlen : ∀ s : StreamId, ∀ op : OperationId, ∀ p ∈ commitIdParts s op, p.length < 2 ^ 64 := by
    intro s op p hp
    have hs := validate_length s.aggregateType.valid
    have hi := validate_length s.aggregateId.valid
    have ho := validate_length op.valid
    simp only [commitIdParts, List.mem_cons, List.not_mem_nil, or_false] at hp
    unfold strLen at hs hi ho
    have hlabel : (utf8 "rostfrei:commit:v1").length = 18 := by decide
    rcases hp with rfl | rfl | rfl | rfl
    · omega
    all_goals
      rw [length_utf8]
      omega
  have hparts := frames_inj (hlen s op) (hlen s' op') hbytes
  simp only [commitIdParts, List.cons.injEq, true_and, and_true] at hparts
  obtain ⟨htype, hid, hop⟩ := hparts
  obtain ⟨type, id⟩ := s
  obtain ⟨type', id'⟩ := s'
  obtain rfl : type = type' := CheckedString.ext (utf8_inj htype)
  obtain rfl : id = id' := CheckedString.ext (utf8_inj hid)
  exact ⟨rfl, CheckedString.ext (utf8_inj hop)⟩

theorem deriveEventId_inj {inputs : Set Bytes} {c c' : CommitId} {i i' : Nat}
    (hfree : CollisionFree inputs) (hmem : frames (eventIdParts c i) ∈ inputs)
    (hmem' : frames (eventIdParts c' i') ∈ inputs) (hi : i < 2 ^ 32) (hi' : i' < 2 ^ 32)
    (h : deriveEventId c i = deriveEventId c' i') : c = c' ∧ i = i' := by
  have hbytes := hfree hmem hmem' (label_hex_inj (congrArg CheckedString.value h))
  have hlen : ∀ c : CommitId, ∀ i : Nat, ∀ p ∈ eventIdParts c i, p.length < 2 ^ 64 := by
    intro c i p hp
    have hc := validate_length c.valid
    simp only [eventIdParts, List.mem_cons, List.not_mem_nil, or_false] at hp
    unfold strLen at hc
    have hlabel : (utf8 "rostfrei:event:v1").length = 17 := by decide
    rcases hp with rfl | rfl | rfl
    · omega
    · rw [length_utf8]
      omega
    · rw [length_beBytes]
      omega
  have hparts := frames_inj (hlen c i) (hlen c' i') hbytes
  simp only [eventIdParts, List.cons.injEq, true_and, and_true] at hparts
  exact ⟨CheckedString.ext (utf8_inj hparts.1), beBytes_inj (by omega) (by omega) hparts.2⟩

end Derived

end Rostfrei
