import Rostfrei.Core.Identity
import Rostfrei.Lib.Sort

/-!
# Message series

`message_series.rs` of `rostfrei-messaging-core`: messages in the order of their insertion, with
the causal links between them. A series has no two messages of one identity and at most 4096
messages; both are fields of `MessageSeries`.

`topologyIssues` reports what is wrong with the links: a parent that is not there, a parent of
another correlation, and cycles. The cycles are found by walks along the parents (`walk`), from
every message that no earlier walk has reached.
-/

namespace Rostfrei.Messaging

open Lib

def maxMessageSeriesNodes : Nat := 4096

/-- A message that can be in a series. -/
class MessageSeriesNode (N : Type) where
  Correlation : Type
  decEqCorrelation : DecidableEq Correlation
  messageId : N → String
  correlationId : N → Correlation
  causationId : N → Option String

export MessageSeriesNode (messageId correlationId causationId)

instance {N : Type} [MessageSeriesNode N] : DecidableEq (MessageSeriesNode.Correlation N) :=
  MessageSeriesNode.decEqCorrelation

inductive MessageSeriesInsertOutcome where
  | inserted
  | duplicate
deriving DecidableEq, Repr

structure MessageSeries (N : Type) [MessageSeriesNode N] where
  nodes : List N
  ids_nodup : (nodes.map messageId).Nodup
  nodes_le : nodes.length ≤ maxMessageSeriesNodes

inductive MessageSeriesTopologyIssue (N : Type) where
  | unresolvedParent (child : N)
  | crossCorrelation (child parent : N)
  | cycle (nodes : List N)

/-! ## Cycles -/

/-- How far the walks have come at a message. -/
inductive Mark where
  | unvisited
  | visiting
  | visited
deriving DecidableEq, Repr

/-- The parent of a message, by its index. -/
def parentOf (parents : List (Option Nat)) (index : Nat) : Option Nat := (parents[index]?).join

/-- The cycle with its smallest index first. -/
def rotateToEarliest (cycle : List Nat) : List Nat :=
  match cycle.min? with
  | none => cycle
  | some earliest => cycle.rotate (cycle.idxOf earliest)

/-- The marks, the path of a walk and the cycle it ran into. -/
structure Walk where
  states : List Mark
  path : List Nat
  cycle : Option (List Nat)

/-- The inner loop of `find_cycles`. Each turn marks a message that was not visited, so there are at
most as many turns as messages; `fuel` is one more. -/
def walk (parents : List (Option Nat)) : Nat → List Mark → List Nat → Option Nat → Walk
  | 0, states, path, _ => ⟨states, path, none⟩
  | _ + 1, states, path, none => ⟨states, path, none⟩
  | fuel + 1, states, path, some index =>
    match states[index]? with
    | none => ⟨states, path, none⟩
    | some .visited => ⟨states, path, none⟩
    | some .visiting =>
      ⟨states, path, (path.idxOf? index).map fun start => rotateToEarliest (path.drop start)⟩
    | some .unvisited =>
      walk parents fuel (states.set index .visiting) (path ++ [index]) (parentOf parents index)

/-- All indexes of a path become visited. -/
def markVisited (states : List Mark) (path : List Nat) : List Mark :=
  path.foldl (fun states index => states.set index .visited) states

/-- One turn of the outer loop of `find_cycles`. -/
def walkFrom (parents : List (Option Nat)) (found : List Mark × List (List Nat)) (start : Nat) :
    List Mark × List (List Nat) :=
  if found.1[start]? ≠ some .unvisited then found
  else
    let w := walk parents (parents.length + 1) found.1 [] (some start)
    (markVisited w.states w.path, found.2 ++ w.cycle.toList)

/-- `find_cycles`. -/
def findCycles (parents : List (Option Nat)) : List (List Nat) :=
  let found := (List.range parents.length).foldl (walkFrom parents)
    (List.replicate parents.length .unvisited, [])
  sortBy (fun cycle : List Nat => cycle.head?.getD (2 ^ 64 - 1)) found.2

/-! ## Series -/

namespace MessageSeries

variable {N : Type} [MessageSeriesNode N]

/-- `MessageSeries::new`. -/
def empty : MessageSeries N := ⟨[], by simp, by simp⟩

/-- `MessageSeries::get`. -/
def get (s : MessageSeries N) (id : String) : Option N := s.nodes.find? (messageId · = id)

/-- `MessageSeries::insert`. -/
def insert [DecidableEq N] (s : MessageSeries N) (node : N) :
    Except ContractError (MessageSeriesInsertOutcome × MessageSeries N) :=
  match h : s.get (messageId node) with
  | some existing =>
    if existing = node then .ok (.duplicate, s)
    else .error ⟨.identityConflict, "message series node", none, none⟩
  | none =>
    if hlen : s.nodes.length = maxMessageSeriesNodes then
      .error (.bounded .tooManyEntries "message series" (maxMessageSeriesNodes + 1)
        maxMessageSeriesNodes)
    else .ok (.inserted, {
      nodes := s.nodes ++ [node]
      ids_nodup := by
        rw [get, List.find?_eq_none] at h
        rw [List.map_append, List.nodup_append]
        refine ⟨s.ids_nodup, by simp, fun a ha b hb => ?_⟩
        obtain ⟨n, hn, rfl⟩ := List.mem_map.mp ha
        obtain rfl : b = messageId node := by simpa using hb
        simpa using h n hn
      nodes_le := by
        have := s.nodes_le
        simp only [List.length_append, List.length_singleton]
        omega })

/-- A new identity is added at the end. -/
theorem insert_new [DecidableEq N] {s : MessageSeries N} {node : N}
    {r : MessageSeriesInsertOutcome × MessageSeries N} (hget : s.get (messageId node) = none)
    (h : s.insert node = .ok r) :
    s.nodes.length ≠ maxMessageSeriesNodes ∧ r.1 = .inserted ∧ r.2.nodes = s.nodes ++ [node] := by
  unfold insert at h
  split at h
  · next existing hsome =>
    rw [hget] at hsome
    cases hsome
  · split at h
    · cases h
    · next hlength =>
      obtain rfl := Except.ok.inj h
      exact ⟨hlength, rfl, rfl⟩

theorem insert_new_ok [DecidableEq N] {s : MessageSeries N} {node : N}
    (hget : s.get (messageId node) = none) (hlength : s.nodes.length ≠ maxMessageSeriesNodes) :
    ∃ s', s.insert node = .ok (.inserted, s') := by
  unfold insert
  split
  · next existing hsome =>
    rw [hget] at hsome
    cases hsome
  · rw [dif_neg hlength]
    exact ⟨_, rfl⟩

/-- An identity that is there is there with this node. -/
theorem insert_existing [DecidableEq N] {s : MessageSeries N} {node existing : N}
    {r : MessageSeriesInsertOutcome × MessageSeries N}
    (hget : s.get (messageId node) = some existing) (h : s.insert node = .ok r) :
    existing = node := by
  unfold insert at h
  split at h
  · next found hfound =>
    obtain rfl := Option.some.inj (hget.symm.trans hfound)
    split at h
    · assumption
    · cases h
  · next hnone =>
    rw [hget] at hnone
    cases hnone

/-- `MessageSeries::try_from_nodes`. -/
def tryFromNodes [DecidableEq N] (nodes : List N) : Except ContractError (MessageSeries N) :=
  nodes.foldlM (fun s node => (s.insert node).map Prod.snd) empty

/-- The index of an identity. -/
def indexOf? (s : MessageSeries N) (id : String) : Option Nat :=
  s.nodes.findIdx? (messageId · = id)

/-- What is wrong with the link of a message. -/
def linkIssue (s : MessageSeries N) (child : N) : Option (MessageSeriesTopologyIssue N) :=
  match causationId child with
  | none => none
  | some causation =>
    match s.indexOf? causation with
    | none => some (.unresolvedParent child)
    | some index =>
      match s.nodes[index]? with
      | none => none
      | some parent =>
        if correlationId child ≠ correlationId parent then some (.crossCorrelation child parent)
        else none

/-- The index of every message's parent. -/
def parentIndexes (s : MessageSeries N) : List (Option Nat) :=
  s.nodes.map fun child => (causationId child).bind s.indexOf?

/-- `MessageSeries::topology_issues`. -/
def topologyIssues (s : MessageSeries N) : List (MessageSeriesTopologyIssue N) :=
  s.nodes.filterMap s.linkIssue ++
    (findCycles s.parentIndexes).map fun cycle => .cycle (cycle.filterMap (s.nodes[·]?))

end MessageSeries

end Rostfrei.Messaging
