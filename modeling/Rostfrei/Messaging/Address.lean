import Rostfrei.Core.Identity

/-!
# Addresses

The addresses `<application>[.test].<kind>.<context>.<name>` of `address.rs`. An address is its text;
the accessors split the text at its dots, and the segments of a test address are shifted
by one. No segment has a dot, so each accessor gives back what the address was built from
(`segments_of_build`).
-/

namespace Rostfrei.Messaging

open Lib

inductive TrafficScope where
  | normal
  | test
deriving DecidableEq, Repr

/-- `TrafficScope::subject_segment`. -/
def TrafficScope.subjectSegment : TrafficScope → Option String
  | normal => none
  | test => some "test"

inductive AddressKind where
  | command
  | commandResponse
  | integrationEvent
  | query
deriving DecidableEq, Repr

/-- `AddressKind::segment`. -/
def AddressKind.segment : AddressKind → String
  | command => "command"
  | commandResponse => "command-response"
  | integrationEvent => "integration"
  | query => "query"

def maxAddressBytes : Nat := 256

/-- `validate_address_name`, which checks what `validate_scope_name` checks. -/
def validateAddressName (value : String) : Except ContractError Unit :=
  validateScopeName "address name" value

/-- The text of an address. -/
def addressText (kind : AddressKind) (application : String) (scope : TrafficScope)
    (context name : String) : String :=
  match scope.subjectSegment with
  | none => application ++ "." ++ kind.segment ++ "." ++ context ++ "." ++ name
  | some segment =>
    application ++ "." ++ segment ++ "." ++ kind.segment ++ "." ++ context ++ "." ++ name

/-- `build_address`. -/
def buildAddress (kind : AddressKind) (application : String) (scope : TrafficScope)
    (context name : String) : Except ContractError String := do
  validateScopeName "address application" application
  validateScopeName "address context" context
  validateAddressName name
  let value := addressText kind application scope context name
  rejectIf (strLen value > maxAddressBytes)
    (.bounded .tooLong "address" (strLen value) maxAddressBytes)
  return value

/-! ## Segments -/

/-- `segment`: the text between dots, or nothing. -/
def segment (value : String) (index : Nat) : String :=
  String.ofList ((value.toList.splitOn '.').getD index [])

/-- `address_traffic_scope`. -/
def addressTrafficScope (value : String) : TrafficScope :=
  if segment value 1 = "test" then .test else .normal

/-- `address_segment`. -/
def addressSegment (value : String) (normalIndex : Nat) : String :=
  let index :=
    if addressTrafficScope value = .test ∧ normalIndex > 0 then normalIndex + 1 else normalIndex
  segment value index

theorem splitOn_dots {segments : List String} (hne : segments ≠ [])
    (h : ∀ s ∈ segments, '.' ∉ s.toList) :
    (['.'].intercalate (segments.map String.toList)).splitOn '.' = segments.map String.toList := by
  refine List.splitOn_intercalate '.' ?_ (by simpa using hne)
  intro l hl
  obtain ⟨s, hs, rfl⟩ := List.mem_map.mp hl
  exact h s hs

theorem not_dot_of_validateScopeName {field value : String}
    (h : validateScopeName field value = .ok ()) : '.' ∉ value.toList := by
  simp only [validateScopeName, bind_unit_eq_ok, rejectIf_eq_ok, not_or, not_not] at h
  intro hmem
  have hchar := List.all_eq_true.mp h.2.2.2.2.2.2.2 '.' hmem
  exact absurd hchar (by decide)

theorem not_dot_segment (kind : AddressKind) : '.' ∉ kind.segment.toList := by
  cases kind <;> decide

theorem segment_ne_test (kind : AddressKind) : kind.segment ≠ "test" := by
  cases kind <;> decide

/-- The segments of an address text, in order. -/
def builtSegments (kind : AddressKind) (application : String) (scope : TrafficScope)
    (context name : String) : List String :=
  application :: (scope.subjectSegment.toList ++ [kind.segment, context, name])

theorem toList_addressText (kind : AddressKind) (application : String) (scope : TrafficScope)
    (context name : String) : (addressText kind application scope context name).toList =
      ['.'].intercalate ((builtSegments kind application scope context name).map String.toList) := by
  cases scope <;> simp [addressText, builtSegments, TrafficScope.subjectSegment, List.intercalate]

theorem splitOn_addressText (kind : AddressKind) {application context name : String}
    (scope : TrafficScope) (happlication : '.' ∉ application.toList)
    (hcontext : '.' ∉ context.toList) (hname : '.' ∉ name.toList) :
    (addressText kind application scope context name).toList.splitOn '.' =
      (builtSegments kind application scope context name).map String.toList := by
  have hkind := not_dot_segment kind
  rw [toList_addressText, splitOn_dots (by simp [builtSegments])]
  cases scope <;>
    simpa [builtSegments, TrafficScope.subjectSegment] using ⟨happlication, hkind, hcontext, hname⟩

/-- What was built is what the segments say. -/
theorem segments_of_build {kind : AddressKind} {application context name value : String}
    {scope : TrafficScope} (h : buildAddress kind application scope context name = .ok value) :
    segment value 0 = application ∧ addressTrafficScope value = scope ∧
      addressSegment value 2 = context ∧ addressSegment value 3 = name := by
  simp only [buildAddress, bind_unit_eq_ok, pure_eq_ok] at h
  obtain ⟨happlication, hcontext, hname, -, rfl⟩ := h
  have hsplit := splitOn_addressText kind scope (not_dot_of_validateScopeName happlication)
    (not_dot_of_validateScopeName hcontext) (not_dot_of_validateScopeName hname)
  have hscope : addressTrafficScope (addressText kind application scope context name) = scope := by
    cases scope <;> simp [addressTrafficScope, segment, hsplit, segment_ne_test, builtSegments,
      TrafficScope.subjectSegment]
  cases scope <;>
    simp [addressSegment, hscope, segment, hsplit, builtSegments, TrafficScope.subjectSegment]

/-! ## Addresses of a kind -/

/-- An address of a kind: its text, which was built from valid parts. -/
structure Address (kind : AddressKind) where
  value : String
  built : ∃ application scope context name,
    buildAddress kind application scope context name = .ok value

abbrev CommandAddress := Address .command
abbrev IntegrationEventAddress := Address .integrationEvent

namespace Address

variable {kind : AddressKind}

@[ext] theorem ext {x y : Address kind} (h : x.value = y.value) : x = y := by
  cases x; cases y; cases h; rfl

instance : DecidableEq (Address kind) := fun x y =>
  decidable_of_iff (x.value = y.value) ⟨ext, fun h => h ▸ rfl⟩

/-- `new_in_scope` of each kind of address. -/
def newInScope (kind : AddressKind) (application : String) (scope : TrafficScope)
    (context name : String) : Except ContractError (Address kind) :=
  match h : buildAddress kind application scope context name with
  | .ok value => .ok ⟨value, application, scope, context, name, h⟩
  | .error e => .error e

def application (a : Address kind) : String := segment a.value 0
def trafficScope (a : Address kind) : TrafficScope := addressTrafficScope a.value
def context (a : Address kind) : String := addressSegment a.value 2
def name (a : Address kind) : String := addressSegment a.value 3

theorem newInScope_eq_ok {application context name : String} {scope : TrafficScope}
    {a : Address kind} :
    newInScope kind application scope context name = .ok a ↔
      buildAddress kind application scope context name = .ok a.value := by
  unfold newInScope
  split
  · next value h =>
    have hvalue : buildAddress kind application scope context name = .ok a.value ↔
        value = a.value := by
      simp [h]
    rw [hvalue, Except.ok.injEq]
    exact ⟨fun heq => heq ▸ rfl, fun heq => ext heq⟩
  · next e h => simp [h]

/-- The parts of an address are those it was built from. -/
theorem parts_of_newInScope {application context name : String} {scope : TrafficScope}
    {a : Address kind} (h : newInScope kind application scope context name = .ok a) :
    a.application = application ∧ a.trafficScope = scope ∧ a.context = context ∧ a.name = name :=
  segments_of_build (newInScope_eq_ok.mp h)

theorem strLen_le (a : Address kind) : strLen a.value ≤ maxAddressBytes := by
  obtain ⟨_, _, _, _, h⟩ := a.built
  simp only [buildAddress, bind_unit_eq_ok, pure_eq_ok, rejectIf_eq_ok] at h
  rw [← h.2.2.2.2]
  exact Nat.not_lt.mp h.2.2.2.1

end Address

/-- `CommandAddress::new`. -/
def CommandAddress.new (application context name : String) : Except ContractError CommandAddress :=
  Address.newInScope .command application .normal context name

/-- An application's bounded context, with the scope of its traffic. -/
structure BoundedContext where
  application : ApplicationName
  trafficScope : TrafficScope
  name : BoundedContextName
deriving DecidableEq

/-- `BoundedContext::command_address`. -/
def BoundedContext.commandAddress (c : BoundedContext) (name : String) :
    Except ContractError CommandAddress :=
  Address.newInScope .command c.application.value c.trafficScope c.name.value name

/-- `BoundedContext::integration_event_address`. -/
def BoundedContext.integrationEventAddress (c : BoundedContext) (name : String) :
    Except ContractError IntegrationEventAddress :=
  Address.newInScope .integrationEvent c.application.value c.trafficScope c.name.value name

end Rostfrei.Messaging
