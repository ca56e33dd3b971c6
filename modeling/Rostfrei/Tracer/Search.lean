import Mathlib.Data.Finmap
import Mathlib.Data.Finset.Sort
import Rostfrei.Tracer.Observed

/-!
# The search for a complete assignment

`CompleteMatchSearch`: does the expected tree embed into the observed messages? `subtreeMatches`
compares two nodes and then their children; siblings are assigned by augmenting paths
(`siblingAssignment`, `augmentSibling`). Answers for pairs of nodes are remembered, and every
comparison spends a step of a budget.

The search is written for any type of indexes. `CompleteMatchSearch.new` is the search over the
positions in the two lists of nodes.

Recursion is by `fuel`. Every nested call of `subtreeMatches` and `augmentSibling` follows a step
that was spent, so one more than the steps that remain is enough fuel. `materialize` goes down the
expected tree.
-/

namespace Rostfrei.Tracer

open Lib Messaging

/-! ## Nodes that agree -/

mutual

/-- `payload_matches_subset`. -/
def payloadMatchesSubset : Json → Json → Bool
  | .obj expected, .obj actual => fieldsMatchSubset expected actual
  | .arr expected, .arr actual => itemsMatchSubset expected actual
  | .null, .null => true
  | .bool a, .bool b => a == b
  | .num a, .num b => a == b
  | .neg a, .neg b => a == b
  | .str a, .str b => a == b
  | _, _ => false

/-- Every expected field is there, and its value matches. -/
def fieldsMatchSubset : List (String × Json) → List (String × Json) → Bool
  | [], _ => true
  | (key, value) :: expected, actual =>
    (match actual.lookup key with
    | none => false
    | some other => payloadMatchesSubset value other) && fieldsMatchSubset expected actual

/-- The items match one by one. -/
def itemsMatchSubset : List Json → List Json → Bool
  | [], [] => true
  | value :: expected, other :: actual =>
    payloadMatchesSubset value other && itemsMatchSubset expected actual
  | _, _ => false

end

/-- `payload_mismatch`. -/
def payloadMismatch (expected : ExpectedMessageNode) (observed : ObservedMessageNode) : Bool :=
  expected.payload.any fun payload =>
    observed.payload.all fun other => !payloadMatchesSubset payload other

/-- `command_outcomes_match`. -/
def commandOutcomesMatch : TestOutcome → CommandResponseOutcome → Bool
  | .accepted, .accepted => true
  | .rejected expected, .rejected observed =>
    expected.code == observed.code.value &&
      expected.payload.all fun payload => observed.details.any (payloadMatchesSubset payload)
  | _, _ => false

/-- `outcome_mismatch`. -/
def outcomeMismatch (expected : ExpectedMessageNode) (observed : ObservedMessageNode)
    (series : ObservedMessageSeries) : Bool :=
  match expected.outcome with
  | none => false
  | some outcome =>
    match series.commandOutcome observed.messageId with
    | none => true
    | some other => !commandOutcomesMatch outcome other.outcome

/-- The comparison of `node_matches`. -/
def contentMatches (expected : ExpectedMessageNode) (observed : ObservedMessageNode)
    (series : ObservedMessageSeries) : Bool :=
  expected.kind = observed.kind ∧ expected.name = observed.name ∧
    expected.schemaVersion = observed.schemaVersion ∧ expected.context = observed.context ∧
    !payloadMismatch expected observed ∧ !outcomeMismatch expected observed series

/-- The document of `candidate_content_key`. -/
def contentDocument (observed : ObservedMessageNode) (series : ObservedMessageSeries) : Json :=
  .obj [("context", .orNull (observed.context.map .str)),
    ("kind", .str observed.kind.name),
    ("name", .str observed.name),
    ("outcome", .orNull ((series.commandOutcome observed.messageId).map fun o =>
      o.outcome.toJson.canonical)),
    ("payload", .orNull observed.payload),
    ("schemaVersion", .num observed.schemaVersion.toNat)]

/-- `candidate_content_key`, by its bytes, which is how texts compare. -/
def candidateContentKey [Crates] (observed : ObservedMessageNode) (series : ObservedMessageSeries) :
    List Nat :=
  (toVec (contentDocument observed series)).map UInt8.toNat

/-! ## The search -/

/-- The part of the search that does not change. -/
structure CompleteMatchSearch (I J : Type) where
  expectedKey : I → Option String
  observedId : J → Option String
  expectedRoots : List I
  observedRoots : List J
  /-- The children of a key, in the order of their keys. -/
  expectedChildren : String → List I
  /-- The children of a message, in the order of their contents. -/
  observedChildren : String → List J
  nodeMatches : I → J → Bool

/-- The part that changes. -/
structure SearchState (I J : Type) where
  compatibility : I → J → Option Bool
  remainingSteps : Nat
  exhausted : Bool

inductive CompleteCausalAssignment where
  | complete (assignment : Finmap fun _ : String => String)
  | incomplete (remainingSteps : Nat)
  | exhausted

namespace SearchState

variable {I J : Type} [DecidableEq I] [DecidableEq J]

/-- `spend_step`. -/
def spendStep (s : SearchState I J) : Bool × SearchState I J :=
  if s.remainingSteps = 0 then (false, { s with exhausted := true })
  else (true, { s with remainingSteps := s.remainingSteps - 1 })

/-- `compatibility.insert`. -/
def record (s : SearchState I J) (i : I) (j : J) (answer : Bool) : SearchState I J :=
  { s with
    compatibility := fun i' j' => if i' = i ∧ j' = j then some answer else s.compatibility i' j' }

end SearchState

/-- What a search for a place leaves. -/
structure Augmented (I J : Type) where
  found : Bool
  matched : J → Option I
  visited : Finset J
  state : SearchState I J

namespace CompleteMatchSearch

variable {I J : Type} [DecidableEq I] [DecidableEq J] (S : CompleteMatchSearch I J)

/-- The loop of `augment_sibling`, given its two nested calls. -/
def augmentLoop (subtree : I → J → SearchState I J → Bool × SearchState I J)
    (again : I → (J → Option I) → Finset J → SearchState I J → Augmented I J) (expected : I) :
    List J → (J → Option I) → Finset J → SearchState I J → Augmented I J
  | [], matched, visited, s => ⟨false, matched, visited, s⟩
  | observed :: rest, matched, visited, s =>
    match s.spendStep with
    | (false, s) => ⟨false, matched, visited, s⟩
    | (true, s) =>
      match subtree expected observed s with
      | (false, s) => augmentLoop subtree again expected rest matched visited s
      | (true, s) =>
        if observed ∈ visited then augmentLoop subtree again expected rest matched visited s
        else
          match matched observed with
          | none =>
            ⟨true, Function.update matched observed (some expected), insert observed visited, s⟩
          | some previous =>
            let r := again previous matched (insert observed visited) s
            if r.found then
              { r with matched := Function.update r.matched observed (some expected) }
            else augmentLoop subtree again expected rest r.matched r.visited r.state

/-- The loop of `sibling_assignment`, over the expected siblings from last to first. -/
def fillSiblings (augment : I → (J → Option I) → Finset J → SearchState I J → Augmented I J) :
    List I → (J → Option I) → SearchState I J → Option (J → Option I) × SearchState I J
  | [], matched, s => (some matched, s)
  | expected :: rest, matched, s =>
    let r := augment expected matched ∅ s
    if r.found then fillSiblings augment rest r.matched r.state else (none, r.state)

/-- `sibling_assignment`. The pairs are read in the order of `observed`; the sort makes the order of
the source's map irrelevant. -/
def siblingAssignment
    (augment : List J → I → (J → Option I) → Finset J → SearchState I J → Augmented I J)
    (expected : List I) (observed : List J) (s : SearchState I J) :
    Option (List (I × J)) × SearchState I J :=
  if expected.length > observed.length then (none, s)
  else
    match fillSiblings (augment observed) expected.reverse (fun _ => none) s with
    | (none, s) => (none, s)
    | (some matched, s) =>
      (some (sortBy (fun pair => (S.expectedKey pair.1).getD "")
        (observed.filterMap fun j => (matched j).map (·, j))), s)

mutual

/-- `subtree_matches`. -/
def subtreeMatches : Nat → I → J → SearchState I J → Bool × SearchState I J
  | 0, _, _, s => (false, s)
  | fuel + 1, expected, observed, s =>
    match s.compatibility expected observed with
    | some answer => (answer, s)
    | none =>
      match s.spendStep with
      | (false, s) => (false, s)
      | (true, s) =>
        if !S.nodeMatches expected observed then (false, s.record expected observed false)
        else
          match S.expectedKey expected, S.observedId observed with
          | some key, some id =>
            let r := S.siblingAssignment (augmentSibling fuel) (S.expectedChildren key)
              (S.observedChildren id) s
            (r.1.isSome, r.2.record expected observed r.1.isSome)
          | _, _ => (false, s)

/-- `augment_sibling`. -/
def augmentSibling : Nat → List J → I → (J → Option I) → Finset J → SearchState I J → Augmented I J
  | 0, _, _, matched, visited, s => ⟨false, matched, visited, s⟩
  | fuel + 1, observed, expected, matched, visited, s =>
    augmentLoop (subtreeMatches fuel) (augmentSibling fuel observed) expected observed matched
      visited s

end

/-- The children of two nodes, paired. -/
def pairChildren (key id : String) (s : SearchState I J) :
    Option (List (I × J)) × SearchState I J :=
  S.siblingAssignment (S.augmentSibling (s.remainingSteps + 1)) (S.expectedChildren key)
    (S.observedChildren id) s

/-- The last line of `materialize`. -/
def materializeAll (materialize : I → J → (Finmap fun _ : String => String) → SearchState I J →
      Bool × (Finmap fun _ : String => String) × SearchState I J) :
    List (I × J) → (Finmap fun _ : String => String) → SearchState I J →
      Bool × (Finmap fun _ : String => String) × SearchState I J
  | [], assignment, s => (true, assignment, s)
  | (expected, observed) :: rest, assignment, s =>
    match materialize expected observed assignment s with
    | (false, assignment, s) => (false, assignment, s)
    | (true, assignment, s) => materializeAll materialize rest assignment s

/-- `materialize`. -/
def materialize : Nat → I → J → (Finmap fun _ : String => String) → SearchState I J →
    Bool × (Finmap fun _ : String => String) × SearchState I J
  | 0, _, _, assignment, s => (false, assignment, s)
  | fuel + 1, expected, observed, assignment, s =>
    match S.expectedKey expected, S.observedId observed with
    | some key, some id =>
      match S.pairChildren key id s with
      | (none, s) => (false, assignment.insert key id, s)
      | (some pairs, s) => materializeAll (materialize fuel) pairs (assignment.insert key id) s
    | _, _ => (false, assignment, s)

/-- The loop of `assignment` over the observed roots. -/
def tryRoots (depth : Nat) (expected : I) : List J → SearchState I J → CompleteCausalAssignment
  | [], s => .incomplete s.remainingSteps
  | observed :: rest, s =>
    match S.subtreeMatches (s.remainingSteps + 1) expected observed s with
    | (false, s) => if s.exhausted then .exhausted else tryRoots depth expected rest s
    | (true, s) =>
      match S.materialize depth expected observed ∅ s with
      | (true, assignment, _) => .complete assignment
      | (false, _, s) => if s.exhausted then .exhausted else tryRoots depth expected rest s

/-- `assignment`, with a budget of steps and a bound of the expected tree's depth. -/
def assignment (steps depth : Nat) : CompleteCausalAssignment :=
  match S.expectedRoots with
  | [] => .incomplete steps
  | root :: _ => S.tryRoots depth root S.observedRoots ⟨fun _ _ => none, steps, false⟩

end CompleteMatchSearch

/-! ## Over two lists of nodes -/

def maximumComparisonSteps : Nat := 100000

/-- The positions of the nodes that satisfy a condition. -/
def positions {α : Type} (nodes : List α) (condition : α → Bool) : List Nat :=
  (List.range nodes.length).filter fun i => (nodes[i]?).any condition

/-- The order of observed nodes: their content, then their identity. -/
def observedOrder [Crates] (series : ObservedMessageSeries) (node : ObservedMessageNode) :
    List Nat ×ₗ String :=
  toLex (candidateContentKey node series, node.messageId)

/-- `CompleteMatchSearch::new`. -/
def CompleteMatchSearch.new [Crates] (expected : MessageGraphDefinition)
    (observed : ObservedMessageSeries) : CompleteMatchSearch Nat Nat :=
  let expectedNodes := expected.nodes.nodes
  let observedNodes := observed.messages.nodes
  let keyOf (i : Nat) := ((expectedNodes[i]?).map ExpectedMessageNode.key).getD ""
  let orderOf (i : Nat) :=
    ((observedNodes[i]?).map (observedOrder observed)).getD (toLex ([], ""))
  { expectedKey := fun i => (expectedNodes[i]?).map ExpectedMessageNode.key
    observedId := fun i => (observedNodes[i]?).map ObservedMessageNode.messageId
    expectedRoots := positions expectedNodes (·.parentKey.isNone)
    observedRoots := sortBy orderOf (positions observedNodes (·.causationId.isNone))
    expectedChildren := fun key =>
      sortBy keyOf (positions expectedNodes (·.parentKey = some key))
    observedChildren := fun id =>
      sortBy orderOf (positions observedNodes (·.causationId = some id))
    nodeMatches := fun i j =>
      match expectedNodes[i]?, observedNodes[j]? with
      | some e, some o => contentMatches e o observed
      | _, _ => false }

/-- `find_complete_causal_assignment`. -/
def findCompleteCausalAssignment [Crates] (expected : MessageGraphDefinition)
    (observed : ObservedMessageSeries) : CompleteCausalAssignment :=
  (CompleteMatchSearch.new expected observed).assignment maximumComparisonSteps
    expected.nodes.nodes.length

end Rostfrei.Tracer
