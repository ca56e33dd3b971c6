import Rostfrei.Lib.Split
import Rostfrei.Messaging.Delivery

/-!
# Names that are read back

The delivery names of `consume.rs`, `<application>[--test]--<context>--<purpose>--v<major>`, and what
is read of them and of addresses. Both grammars take a name apart at their separators and tell the
shape of a test name by its second segment.

- `parseAddressParts_eq_ok`, `parseDeliveryName_eq_ok`: what is accepted is what is built.
- `segments_of_buildDeliveryName`: the accessors give back what a delivery name was built from.
- `names_read_back`: no two different tuples of parts build one name.
-/

namespace Rostfrei.Messaging

open Lib

/-! ## Delivery names -/

def maxConsumerNameBytes : Nat := 256

/-- The text of a delivery name. -/
def deliveryNameText (application : String) (scope : TrafficScope) (context purpose : String)
    (major : UInt32) : String :=
  match scope.subjectSegment with
  | none => application ++ "--" ++ context ++ "--" ++ purpose ++ "--v" ++ toString major.toNat
  | some segment =>
    application ++ "--" ++ segment ++ "--" ++ context ++ "--" ++ purpose ++ "--v" ++
      toString major.toNat

/-- `build_delivery_name`. -/
def buildDeliveryName (application : String) (scope : TrafficScope) (context purpose : String)
    (major : UInt32) (field : String) : Except ContractError String := do
  validateScopeName field application
  validateScopeName field context
  validateScopeName field purpose
  let value := deliveryNameText application scope context purpose major
  rejectIf (strLen value > maxConsumerNameBytes)
    (.bounded .tooLong field (strLen value) maxConsumerNameBytes)
  return value

/-- `str::split` at two hyphens. -/
def splitDelivery (value : String) : List String :=
  (splitPairs '-' value.toList).map String.ofList

/-- Application, scope, context, purpose and version of a name with the right number of segments. -/
def deliverySegments (value : String) :
    Option (String × TrafficScope × String × String × String) :=
  match splitDelivery value with
  | [application, context, purpose, version] =>
    some (application, .normal, context, purpose, version)
  | [application, second, context, purpose, version] =>
    if second = "test" then some (application, .test, context, purpose, version) else none
  | _ => none

/-- The major version: a `v` and its decimal text, without leading zeros or a plus. -/
def parseMajorVersion (version : String) : Option UInt32 :=
  match version.toList with
  | 'v' :: digits =>
    (parseUnsigned 32 digits).bind fun major =>
      if digits = (toString major).toList then some (UInt32.ofNat major) else none
  | _ => none

/-- `parse_delivery_name`. -/
def parseDeliveryName (value field : String) : Except ContractError String := do
  rejectIf (value = "") ⟨.empty, field, none, none⟩
  rejectIf (strLen value > maxConsumerNameBytes)
    (.bounded .tooLong field (strLen value) maxConsumerNameBytes)
  rejectIf (value.toList.any isControl) ⟨.controlCharacter, field, none, none⟩
  let parts ← okOr ⟨.invalidFormat, field, none, none⟩ (deliverySegments value)
  let major ← okOr ⟨.invalidFormat, field, none, none⟩ (parseMajorVersion parts.2.2.2.2)
  let _ ← buildDeliveryName parts.1 parts.2.1 parts.2.2.1 parts.2.2.2.1 major field
  return value

/-- `delivery_name_segment`. -/
def deliveryNameSegment (value : String) (index : Nat) : String :=
  (splitDelivery value).getD index ""

/-- `delivery_name_traffic_scope`. -/
def deliveryNameTrafficScope (value : String) : TrafficScope :=
  if (splitDelivery value).length = 5 ∧ deliveryNameSegment value 1 = "test" then .test else .normal

/-- `scoped_delivery_name_segment`. -/
def scopedDeliveryNameSegment (value : String) (normalIndex : Nat) : String :=
  let index :=
    if deliveryNameTrafficScope value = .test ∧ normalIndex > 0 then normalIndex + 1 else normalIndex
  deliveryNameSegment value index

/-! ## Names without separators -/

section Characters

variable {c : Char} {l : List Char} {field value : String}

theorem isAsciiGraphic_of_scopeNameChar (h : isScopeNameChar c = true) : isAsciiGraphic c = true := by
  simp only [isScopeNameChar, Char.isLower, Char.isDigit, Bool.or_eq_true, Bool.and_eq_true,
    decide_eq_true_eq, beq_iff_eq, UInt32.le_iff_toNat_le] at h
  simp only [isAsciiGraphic, Bool.and_eq_true, decide_eq_true_eq, Char.toNat]
  rcases h with (⟨hlo, hhi⟩ | ⟨hlo, hhi⟩) | rfl
  · exact ⟨le_trans (by decide) hlo, le_trans hhi (by decide)⟩
  · exact ⟨le_trans (by decide) hlo, le_trans hhi (by decide)⟩
  · decide

theorem not_special (h : isScopeNameChar c = true ∨ c = '.') :
    isControl c = false ∧ (c == '*' || c == '>') = false := by
  rcases h with h | rfl
  · refine ⟨not_isControl_of_graphic (isAsciiGraphic_of_scopeNameChar h), ?_⟩
    rw [Bool.or_eq_false_iff, beq_eq_false_iff_ne, beq_eq_false_iff_ne]
    constructor <;> (rintro rfl; exact absurd h (by decide))
  · decide

theorem no_pair_of_hasDoubleHyphen (h : hasDoubleHyphen l = false) : ¬ ['-', '-'] <:+: l := by
  fun_induction hasDoubleHyphen l with
  | case1 => cases h
  | case2 c rest hne ih =>
    rw [List.infix_cons_iff]
    rintro (hinitial | hinfix)
    · obtain ⟨tail, htail⟩ := hinitial
      obtain ⟨rfl, rfl⟩ := List.cons.inj htail
      exact hne tail rfl rfl
    · exact ih h hinfix
  | case3 => simp

theorem part_of_validateScopeName (h : validateScopeName field value = .ok ()) :
    Part '-' value.toList := by
  simp only [validateScopeName, bind_unit_eq_ok, rejectIf_eq_ok, not_or] at h
  exact ⟨no_pair_of_hasDoubleHyphen (by simpa using h.2.2.2.2.2.2.1), h.2.2.2.2.2.1⟩

theorem chars_of_validateScopeName (h : validateScopeName field value = .ok ()) :
    ∀ c ∈ value.toList, isScopeNameChar c = true := by
  simp only [validateScopeName, bind_unit_eq_ok, rejectIf_eq_ok, not_or, not_not] at h
  exact List.all_eq_true.mp h.2.2.2.2.2.2.2

theorem ne_empty_of_validateScopeName (h : validateScopeName field value = .ok ()) :
    value.toList ≠ [] := by
  simp only [validateScopeName, bind_unit_eq_ok, rejectIf_eq_ok] at h
  simpa using h.1

end Characters

/-! ## Addresses are read back -/

section Addresses

variable {kind : AddressKind} {application context name value : String} {scope : TrafficScope}

theorem ofSegment?_segment : AddressKind.ofSegment? kind.segment = some kind := by
  cases kind <;> rfl

theorem addressParts_addressText (happlication : '.' ∉ application.toList)
    (hcontext : '.' ∉ context.toList) (hname : '.' ∉ name.toList) :
    addressParts ((addressText kind application scope context name).toList.splitOn '.') =
      some (application, kind.segment, context, name) := by
  have hkind : kind.segment.toList ≠ "test".toList := fun h =>
    segment_ne_test kind (String.toList_injective h)
  rw [splitOn_addressText kind scope happlication hcontext hname]
  cases scope with
  | normal =>
    simp only [builtSegments, TrafficScope.subjectSegment, Option.toList_none, List.nil_append,
      List.map_cons, List.map_nil, addressParts, if_neg hkind, String.ofList_toList]
  | test =>
    simp only [builtSegments, TrafficScope.subjectSegment, Option.toList_some, List.singleton_append,
      List.map_cons, List.map_nil, addressParts, if_true, String.ofList_toList]

/-- The characters of an address are those of names, and dots. -/
theorem chars_addressText (happlication : ∀ c ∈ application.toList, isScopeNameChar c = true)
    (hcontext : ∀ c ∈ context.toList, isScopeNameChar c = true)
    (hname : ∀ c ∈ name.toList, isScopeNameChar c = true) :
    ∀ c ∈ (addressText kind application scope context name).toList,
      isScopeNameChar c = true ∨ c = '.' := by
  have hkind : ∀ c ∈ kind.segment.toList, isScopeNameChar c = true :=
    List.all_eq_true.mp (by cases kind <;> rfl)
  have htest : ∀ c ∈ "test".toList, isScopeNameChar c = true := List.all_eq_true.mp rfl
  have hparts : ∀ part ∈ builtSegments kind application scope context name,
      ∀ c ∈ part.toList, isScopeNameChar c = true := by
    cases scope with
    | normal =>
      simpa [builtSegments, TrafficScope.subjectSegment] using
        ⟨happlication, hkind, hcontext, hname⟩
    | test =>
      simpa [builtSegments, TrafficScope.subjectSegment] using
        ⟨happlication, by simpa using htest, hkind, hcontext, hname⟩
  intro c hc
  rw [toList_addressText] at hc
  rcases of_mem_intercalate hc with hdot | ⟨l, hl, hc⟩
  · exact .inr (by simpa using hdot)
  · obtain ⟨part, hpart, rfl⟩ := List.mem_map.mp hl
    exact .inl (hparts part hpart c hc)

/-- The addresses that are accepted are those that are built. -/
theorem parseAddressParts_eq_ok : parseAddressParts value = .ok kind ↔
    ∃ application scope context name,
      buildAddress kind application scope context name = .ok value := by
  constructor
  · intro h
    refine built_of_parseAddress ?_
    rw [parseAddress, h]
    exact rejectIf_of_not (by simp) _
  · rintro ⟨application, scope, context, name, h⟩
    simp only [buildAddress, bind_unit_eq_ok, pure_eq_ok, rejectIf_eq_ok] at h
    obtain ⟨happlication, hcontext, hname, hlength, rfl⟩ := h
    have hclean : ∀ c ∈ (addressText kind application scope context name).toList,
        isControl c = false ∧ (c == '*' || c == '>') = false := fun c hc =>
      not_special (chars_addressText (chars_of_validateScopeName happlication)
        (chars_of_validateScopeName hcontext) (chars_of_validateScopeName hname) c hc)
    have hparts := @addressParts_addressText kind _ _ _ scope
      (not_dot_of_validateScopeName happlication) (not_dot_of_validateScopeName hcontext)
      (not_dot_of_validateScopeName hname)
    have hne : addressText kind application scope context name ≠ "" := by
      intro hempty
      rw [hempty] at hparts
      simp [addressParts] at hparts
    have hwild : ¬ (addressText kind application scope context name).toList.any
        fun c => c == '*' || c == '>' := by
      simpa using fun c hc => by simpa using (hclean c hc).2
    have hcontrol : ¬ (addressText kind application scope context name).toList.any isControl := by
      simpa using fun c hc => (hclean c hc).1
    simp only [parseAddressParts, bind_eq_ok, rejectIf_eq_ok, okOr_eq_ok, pure_eq_ok,
      exists_and_left, exists_const]
    exact ⟨hne, hlength, hwild, hcontrol, _, hparts, kind, ofSegment?_segment, (), happlication,
      (), hcontext, (), hname, rfl⟩

end Addresses

/-! ## Delivery names are read back -/

section Deliveries

variable {application context purpose value field : String} {scope : TrafficScope} {major : UInt32}

/-- The segments of a delivery name, in order. -/
def builtDeliverySegments (application : String) (scope : TrafficScope) (context purpose : String)
    (major : UInt32) : List String :=
  application :: (scope.subjectSegment.toList ++ [context, purpose, "v" ++ toString major.toNat])

theorem toList_deliveryNameText (application : String) (scope : TrafficScope)
    (context purpose : String) (major : UInt32) :
    (deliveryNameText application scope context purpose major).toList =
      ['-', '-'].intercalate
        ((builtDeliverySegments application scope context purpose major).map String.toList) := by
  cases scope <;>
    simp [deliveryNameText, builtDeliverySegments, TrafficScope.subjectSegment, List.intercalate]

theorem chars_version (major : UInt32) :
    ∀ c ∈ ("v" ++ toString major.toNat).toList, c = 'v' ∨ c.isDigit = true := by
  intro c hc
  rw [String.toList_append, List.mem_append] at hc
  rcases hc with hc | hc
  · exact .inl (by simpa using hc)
  · refine .inr (Nat.isDigit_of_mem_toDigits (b := 10) (n := major.toNat) (by omega) (by omega) ?_)
    simpa using hc

theorem parts_builtDeliverySegments (happlication : validateScopeName field application = .ok ())
    (hcontext : validateScopeName field context = .ok ())
    (hpurpose : validateScopeName field purpose = .ok ()) :
    ∀ part ∈ (builtDeliverySegments application scope context purpose major).map String.toList,
      Part '-' part := by
  have hversion : Part '-' ("v" ++ toString major.toNat).toList :=
    .of_not_mem fun hmem => by
      rcases chars_version major '-' hmem with h | h <;> exact absurd h (by decide)
  have htest : Part '-' "test".toList := .of_not_mem (by decide)
  have ha := part_of_validateScopeName happlication
  have hc := part_of_validateScopeName hcontext
  have hp := part_of_validateScopeName hpurpose
  cases scope with
  | normal =>
    simpa [builtDeliverySegments, TrafficScope.subjectSegment] using ⟨ha, hc, hp, by simpa using hversion⟩
  | test =>
    simpa [builtDeliverySegments, TrafficScope.subjectSegment] using
      ⟨ha, by simpa using htest, hc, hp, by simpa using hversion⟩

theorem splitDelivery_deliveryNameText (happlication : validateScopeName field application = .ok ())
    (hcontext : validateScopeName field context = .ok ())
    (hpurpose : validateScopeName field purpose = .ok ()) :
    splitDelivery (deliveryNameText application scope context purpose major) =
      builtDeliverySegments application scope context purpose major := by
  rw [splitDelivery, toList_deliveryNameText, splitPairs_intercalate (by simp [builtDeliverySegments])
    (parts_builtDeliverySegments happlication hcontext hpurpose), List.map_map]
  simp [Function.comp_def]

theorem parseMajorVersion_eq_some {version : String} :
    parseMajorVersion version = some major ↔ version = "v" ++ toString major.toNat := by
  have hlt : major.toNat < 2 ^ 32 := major.toNat_lt
  constructor
  · intro h
    unfold parseMajorVersion at h
    split at h
    · next digits hdigits =>
      obtain ⟨n, hn, h⟩ := Option.bind_eq_some_iff.mp h
      obtain ⟨rfl, hmajor⟩ := Option.ite_none_right_eq_some.mp h
      obtain rfl := Option.some.inj hmajor
      refine String.toList_injective ?_
      rw [hdigits, UInt32.toNat_ofNat_of_lt' (lt_of_parseUnsigned hn)]
      simp
    · cases h
  · rintro rfl
    simp [parseMajorVersion, parseUnsigned_toDigits hlt]

theorem text_of_deliverySegments
    (h : deliverySegments value = some (application, scope, context, purpose,
      "v" ++ toString major.toNat)) :
    value = deliveryNameText application scope context purpose major := by
  have hvalue : splitDelivery value = builtDeliverySegments application scope context purpose major →
      value = deliveryNameText application scope context purpose major := by
    intro hsplit
    refine String.toList_injective ?_
    rw [toList_deliveryNameText, ← hsplit, splitDelivery, List.map_map]
    simp [Function.comp_def, intercalate_splitPairs]
  unfold deliverySegments at h
  split at h
  · next hsplit =>
    cases h
    exact hvalue hsplit
  · next hsplit =>
    obtain ⟨rfl, h⟩ := Option.ite_none_right_eq_some.mp h
    cases h
    exact hvalue hsplit
  · cases h

theorem deliverySegments_deliveryNameText
    (happlication : validateScopeName field application = .ok ())
    (hcontext : validateScopeName field context = .ok ())
    (hpurpose : validateScopeName field purpose = .ok ()) :
    deliverySegments (deliveryNameText application scope context purpose major) =
      some (application, scope, context, purpose, "v" ++ toString major.toNat) := by
  rw [deliverySegments, splitDelivery_deliveryNameText happlication hcontext hpurpose]
  cases scope <;> simp [builtDeliverySegments, TrafficScope.subjectSegment]

theorem chars_deliveryNameText (happlication : validateScopeName field application = .ok ())
    (hcontext : validateScopeName field context = .ok ())
    (hpurpose : validateScopeName field purpose = .ok ()) :
    ∀ c ∈ (deliveryNameText application scope context purpose major).toList,
      isScopeNameChar c = true := by
  have htest : ∀ c ∈ "test".toList, isScopeNameChar c = true := List.all_eq_true.mp rfl
  have hversion : ∀ c ∈ ("v" ++ toString major.toNat).toList, isScopeNameChar c = true := by
    intro c hc
    rcases chars_version major c hc with rfl | hdigit
    · decide
    · simp [isScopeNameChar, hdigit]
  have hparts : ∀ part ∈ builtDeliverySegments application scope context purpose major,
      ∀ c ∈ part.toList, isScopeNameChar c = true := by
    have ha := chars_of_validateScopeName happlication
    have hc := chars_of_validateScopeName hcontext
    have hp := chars_of_validateScopeName hpurpose
    cases scope with
    | normal =>
      simp only [builtDeliverySegments, TrafficScope.subjectSegment, Option.toList_none,
        List.nil_append, List.forall_mem_cons, List.not_mem_nil, false_implies, implies_true, and_true]
      exact ⟨ha, hc, hp, hversion⟩
    | test =>
      simp only [builtDeliverySegments, TrafficScope.subjectSegment, Option.toList_some,
        List.singleton_append, List.forall_mem_cons, List.not_mem_nil, false_implies, implies_true,
        and_true]
      exact ⟨ha, htest, hc, hp, hversion⟩
  intro c hc
  rw [toList_deliveryNameText] at hc
  rcases of_mem_intercalate hc with hdash | ⟨l, hl, hc⟩
  · obtain rfl : c = '-' := by simpa using hdash
    decide
  · obtain ⟨part, hpart, rfl⟩ := List.mem_map.mp hl
    exact hparts part hpart c hc

/-- The delivery names that are accepted are those that are built. -/
theorem parseDeliveryName_eq_ok {value' : String} : parseDeliveryName value field = .ok value' ↔
    value' = value ∧ ∃ application scope context purpose major,
      buildDeliveryName application scope context purpose major field = .ok value := by
  simp only [parseDeliveryName, bind_eq_ok, rejectIf_eq_ok, okOr_eq_ok, pure_eq_ok,
    exists_and_left, exists_const]
  constructor
  · rintro ⟨-, -, -, ⟨application, scope, context, purpose, version⟩, hparts, major, hmajor, hbuilt⟩
    obtain ⟨built, hbuilt, rfl⟩ := hbuilt
    refine ⟨rfl, application, scope, context, purpose, major, ?_⟩
    obtain rfl := parseMajorVersion_eq_some.mp hmajor
    obtain rfl := text_of_deliverySegments hparts
    simp only [buildDeliveryName, bind_unit_eq_ok, pure_eq_ok] at hbuilt ⊢
    exact ⟨hbuilt.1, hbuilt.2.1, hbuilt.2.2.1, hbuilt.2.2.2.1, trivial⟩
  · rintro ⟨rfl, application, scope, context, purpose, major, h⟩
    have hbuilt := h
    simp only [buildDeliveryName, bind_unit_eq_ok, pure_eq_ok, rejectIf_eq_ok] at h
    obtain ⟨happlication, hcontext, hpurpose, hlength, rfl⟩ := h
    have hparts := @deliverySegments_deliveryNameText application context purpose field scope major
      happlication hcontext hpurpose
    have hne : deliveryNameText application scope context purpose major ≠ "" := by
      intro hempty
      rw [hempty] at hparts
      simp [deliverySegments, splitDelivery, splitPairs] at hparts
    have hcontrol : ¬ (deliveryNameText application scope context purpose major).toList.any
        isControl := by
      simpa using fun c hc =>
        (not_special (.inl (chars_deliveryNameText happlication hcontext hpurpose c hc))).1
    exact ⟨hne, hlength, hcontrol, _, hparts, major, parseMajorVersion_eq_some.mpr rfl, _, hbuilt, rfl⟩

/-- The segments of a delivery name are what it was built from. -/
theorem segments_of_buildDeliveryName
    (h : buildDeliveryName application scope context purpose major field = .ok value) :
    deliveryNameSegment value 0 = application ∧ deliveryNameTrafficScope value = scope ∧
      scopedDeliveryNameSegment value 1 = context ∧ scopedDeliveryNameSegment value 2 = purpose ∧
      parseMajorVersion (scopedDeliveryNameSegment value 3) = some major := by
  simp only [buildDeliveryName, bind_unit_eq_ok, pure_eq_ok] at h
  obtain ⟨happlication, hcontext, hpurpose, -, rfl⟩ := h
  have hsplit := @splitDelivery_deliveryNameText application context purpose field scope major
    happlication hcontext hpurpose
  have hscope : deliveryNameTrafficScope (deliveryNameText application scope context purpose major) =
      scope := by
    cases scope <;> simp [deliveryNameTrafficScope, deliveryNameSegment, hsplit,
      builtDeliverySegments, TrafficScope.subjectSegment]
  rw [parseMajorVersion_eq_some]
  cases scope <;> simp [scopedDeliveryNameSegment, hscope, deliveryNameSegment, hsplit,
    builtDeliverySegments, TrafficScope.subjectSegment]

end Deliveries

/-- Addresses and delivery names are accepted exactly if they are built from parts, and have one
tuple of parts. -/
theorem names_read_back :
    (∀ value kind, parseAddressParts value = .ok kind ↔ ∃ application scope context name,
      buildAddress kind application scope context name = .ok value) ∧
    (∀ kind application scope context name value,
      buildAddress kind application scope context name = .ok value →
        segment value 0 = application ∧ addressTrafficScope value = scope ∧
        addressSegment value 2 = context ∧ addressSegment value 3 = name) ∧
    (∀ kind kind' application application' scope scope' context context' name name' value,
      buildAddress kind application scope context name = .ok value →
      buildAddress kind' application' scope' context' name' = .ok value →
        kind = kind' ∧ application = application' ∧ scope = scope' ∧ context = context' ∧
        name = name') ∧
    (∀ value field, parseDeliveryName value field = .ok value ↔
      ∃ application scope context purpose major,
        buildDeliveryName application scope context purpose major field = .ok value) ∧
    (∀ application scope context purpose major field value,
      buildDeliveryName application scope context purpose major field = .ok value →
        deliveryNameSegment value 0 = application ∧ deliveryNameTrafficScope value = scope ∧
        scopedDeliveryNameSegment value 1 = context ∧ scopedDeliveryNameSegment value 2 = purpose ∧
        parseMajorVersion (scopedDeliveryNameSegment value 3) = some major) ∧
    (∀ application application' scope scope' context context' purpose purpose' major major' field
      field' value, buildDeliveryName application scope context purpose major field = .ok value →
      buildDeliveryName application' scope' context' purpose' major' field' = .ok value →
        application = application' ∧ scope = scope' ∧ context = context' ∧ purpose = purpose' ∧
        major = major') := by
  refine ⟨fun _ _ => parseAddressParts_eq_ok, fun _ _ _ _ _ _ => segments_of_build, ?_,
    fun value field => ?_, fun _ _ _ _ _ _ _ => segments_of_buildDeliveryName, ?_⟩
  · intro kind kind' application application' scope scope' context context' name name' value h h'
    have hkind := parseAddressParts_eq_ok.mpr ⟨_, _, _, _, h⟩
    rw [parseAddressParts_eq_ok.mpr ⟨_, _, _, _, h'⟩] at hkind
    obtain ⟨rfl, rfl, rfl, rfl⟩ := segments_of_build h
    obtain ⟨rfl, rfl, rfl, rfl⟩ := segments_of_build h'
    exact ⟨(Except.ok.inj hkind).symm, rfl, rfl, rfl, rfl⟩
  · rw [parseDeliveryName_eq_ok]
    exact and_iff_right rfl
  · intro application application' scope scope' context context' purpose purpose' major major' field
      field' value h h'
    obtain ⟨rfl, rfl, rfl, rfl, hmajor⟩ := segments_of_buildDeliveryName h
    obtain ⟨rfl, rfl, rfl, rfl, hmajor'⟩ := segments_of_buildDeliveryName h'
    exact ⟨rfl, rfl, rfl, rfl, Option.some.inj (hmajor.symm.trans hmajor')⟩

end Rostfrei.Messaging
