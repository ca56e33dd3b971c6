import Mathlib.Data.Finset.Card
import Mathlib.Data.Int.Basic
import Mathlib.Logic.Function.Basic

/-!
# The message graph of the studio

`layoutMessageGraph` of `graph.ts`: nodes are placed in passes over the pending ones, a node as soon
as its parent is placed. A pass that places none places the first pending node instead, which breaks
a cycle of parents. A node stands one depth to the right of its parent, in the free lane of that
depth that is nearest to the one it prefers.

A missing or empty `parentId` is no link. Of a node, only what the layout reads is kept.
-/

namespace Rostfrei.Studio

/-! ## Nodes -/

inductive EdgeFidelity where
  | exact
  | grouped
deriving DecidableEq, Repr

inductive EdgeRelationship where
  | causation
  | streamOrder
  | context
deriving DecidableEq, Repr

structure MessageGraphNode where
  id : String
  parentId : Option String
  hideIncomingEdge : Bool
  edgeFidelity : Option EdgeFidelity
  edgeRelationship : Option EdgeRelationship
  /-- Whether `context` is set. -/
  context : Bool
deriving DecidableEq, Repr

/-- `node.parentId`, as far as it is truthy. -/
def MessageGraphNode.parentLink (node : MessageGraphNode) : Option String :=
  node.parentId.filter (· ≠ "")

/-- A node with its place. -/
structure PositionedNode where
  node : MessageGraphNode
  depth : Nat
  lane : Int
  x : Nat
  y : Int
deriving DecidableEq, Repr

structure GraphEdge where
  id : String
  source : PositionedNode
  target : PositionedNode
  fidelity : EdgeFidelity
  relationship : EdgeRelationship
  context : Bool
deriving DecidableEq, Repr

structure GraphLayout where
  nodes : List PositionedNode
  edges : List GraphEdge
deriving DecidableEq, Repr

def messageWidth : Nat := 240
def fixtureWidth : Nat := 168
def horizontalGap : Nat := 48
def laneGap : Int := 176

/-! ## Lanes -/

/-- `siblingLaneOffset`: after the first, one to each side in turn. -/
def siblingLaneOffset (index : Nat) : Int :=
  if index = 0 then 0
  else if index % 2 = 1 then ((index + 1) / 2 : Nat) else -((index + 1) / 2 : Nat)

/-- `rootLane`: every other lane. -/
def rootLane (index : Nat) : Int :=
  if index = 0 then 0
  else if index % 2 = 1 then ((index + 1) / 2 * 2 : Nat) else -((index + 1) / 2 * 2 : Nat)

/-- One turn of `nearestFreeLane`. -/
def freeAt (preferred : Int) (occupied : Finset Int) (distance : Nat) : Option Int :=
  if preferred + distance ∉ occupied then some (preferred + distance)
  else if preferred - distance ∉ occupied then some (preferred - distance)
  else none

/-- `nearestFreeLane`. -/
def nearestFreeLane (preferred : Int) (occupied : Finset Int) : Int :=
  if preferred ∉ occupied then preferred
  else ((List.range' 1 (occupied.card + 1)).findSome? (freeAt preferred occupied)).getD
    (preferred + occupied.card + 1)

/-! ## Placing -/

/-- The maps of the layout; a missing set of lanes is empty, and a missing count is zero. -/
structure Placement where
  positioned : String → Option PositionedNode
  occupiedByDepth : Nat → Finset Int
  childCount : String → Nat
  rootCount : Nat

def Placement.empty : Placement := ⟨fun _ => none, fun _ => ∅, fun _ => 0, 0⟩

namespace Placement

/-- The parent of a node, once it is placed. -/
def parent (s : Placement) (node : MessageGraphNode) : Option PositionedNode :=
  node.parentLink.bind s.positioned

/-- `place`. -/
def place (s : Placement) (node : MessageGraphNode) : Placement :=
  let depth := match s.parent node with
    | some parent => parent.depth + 1
    | none => 0
  let preferredLane := match s.parent node with
    | some parent => parent.lane + siblingLaneOffset (s.childCount parent.node.id)
    | none => rootLane s.rootCount
  let lane := nearestFreeLane preferredLane (s.occupiedByDepth depth)
  let x := match s.parent node with
    | some parent => parent.x + (if parent.node.context then fixtureWidth else messageWidth) +
        horizontalGap
    | none => 0
  { positioned := Function.update s.positioned node.id
      (some ⟨node, depth, lane, x, lane * laneGap⟩)
    occupiedByDepth := Function.update s.occupiedByDepth depth
      (insert lane (s.occupiedByDepth depth))
    childCount := match s.parent node with
      | some parent => Function.update s.childCount parent.node.id (s.childCount parent.node.id + 1)
      | none => s.childCount
    rootCount := match s.parent node with
      | some _ => s.rootCount
      | none => s.rootCount + 1 }

/-- `parentIsReady`. -/
def ready (ids : List String) (s : Placement) (node : MessageGraphNode) : Bool :=
  match node.parentLink with
  | none => true
  | some parentId => parentId ∉ ids ∨ (s.positioned parentId).isSome

/-- What a pass leaves: the placement, the nodes that stay pending, and whether one was placed. -/
structure Pass where
  placement : Placement
  pending : List MessageGraphNode
  placedInPass : Bool

/-- One pass over the pending nodes. -/
def pass (ids : List String) : Placement → List MessageGraphNode → Pass
  | s, [] => ⟨s, [], false⟩
  | s, node :: pending =>
    if s.ready ids node then
      { pass ids (s.place node) pending with placedInPass := true }
    else
      let rest := pass ids s pending
      { rest with pending := node :: rest.pending }

theorem pass_length (ids : List String) (s : Placement) (pending : List MessageGraphNode) :
    (pass ids s pending).pending.length ≤ pending.length ∧
      ((pass ids s pending).placedInPass →
        (pass ids s pending).pending.length < pending.length) := by
  induction pending generalizing s with
  | nil => simp [pass]
  | cons node pending ih =>
    rw [pass]
    split
    · have := (ih (s.place node)).1
      simp only [List.length_cons]
      omega
    · have := ih s
      simp only [List.length_cons, Nat.add_le_add_iff_right, Nat.add_lt_add_iff_right]
      exact this

/-- The passes, until no node is pending. -/
def placeAll (ids : List String) (s : Placement) (pending : List MessageGraphNode) : Placement :=
  if pending = [] then s
  else if (pass ids s pending).placedInPass then
    placeAll ids (pass ids s pending).placement (pass ids s pending).pending
  else
    match _h : (pass ids s pending).pending with
    | [] => (pass ids s pending).placement
    | node :: blocked => placeAll ids ((pass ids s pending).placement.place node) blocked
termination_by pending.length
decreasing_by
  · exact (pass_length ids s pending).2 ‹_›
  · have hlength := (pass_length ids s pending).1
    rw [_h, List.length_cons] at hlength
    omega

end Placement

/-! ## The layout -/

/-- The edge into a node, from its parent in the map of placed nodes. -/
def edgeTo (positionedById : String → Option PositionedNode) (target : PositionedNode) :
    Option GraphEdge := do
  let parentId ← target.node.parentLink
  if target.node.hideIncomingEdge then none
  else do
    let source ← positionedById parentId
    return ⟨source.node.id ++ ":" ++ target.node.id, source, target,
      target.node.edgeFidelity.getD .grouped, target.node.edgeRelationship.getD .causation,
      source.node.context || target.node.context⟩

/-- `layoutMessageGraph`; a node that the map misses would throw. -/
def layoutMessageGraph (nodes : List MessageGraphNode) : Option GraphLayout := do
  let placement := Placement.empty.placeAll (nodes.map (·.id)) nodes
  let positionedNodes ← nodes.mapM fun node => placement.positioned node.id
  let positionedById : String → Option PositionedNode :=
    positionedNodes.foldl (fun byId node => Function.update byId node.node.id (some node)) fun _ => none
  return ⟨positionedNodes, positionedNodes.filterMap (edgeTo positionedById)⟩

end Rostfrei.Studio
