import Rostfrei.Lib.JsonOrder
import Rostfrei.Messaging.Cycles

/-!
# Expected message graphs

The definitions of `message_series.rs` of `rostfrei-tracer`: the nodes that a test expects, and the
checks that a graph of them passes before it is used (`validateGraph`). A `MessageGraphDefinition`
is a graph that passed.
-/

namespace Rostfrei.Tracer

open Lib Messaging

def maximumExpectedGraphDepth : Nat := 64
def maximumExpectedSiblings : Nat := 64

/-! ## Nodes -/

structure TestRejection where
  code : String
  payload : Option Json
deriving DecidableEq

inductive TestOutcome where
  | accepted
  | rejected (rejection : TestRejection)
deriving DecidableEq

def TestOutcome.rejection : TestOutcome → Option TestRejection
  | accepted => none
  | rejected rejection => some rejection

def TestOutcome.toJson : TestOutcome → Json
  | accepted => .str "accepted"
  | rejected rejection =>
    .obj [("rejected",
      .obj (Json.sparse [("code", some (.str rejection.code)), ("payload", rejection.payload)]))]

/-- `ExpectedMessageKind`, which is also the kind of an observed message. -/
inductive MessageKind where
  | command
  | domainEvent
  | integrationEvent
deriving DecidableEq, Repr

/-- The `serde` name. -/
def MessageKind.name : MessageKind → String
  | command => "command"
  | domainEvent => "domain-event"
  | integrationEvent => "integration-event"

inductive ExpectedMessageNode where
  | command (key : String) (parentKey : Option String) (name : String) (schemaVersion : UInt32)
      (context : String) (payload : Option Json) (outcome : TestOutcome)
  | domainEvent (key : String) (parentKey : Option String) (name : String)
      (schemaVersion : UInt32) (payload : Option Json)
  | integrationEvent (key : String) (parentKey : Option String) (name : String)
      (schemaVersion : UInt32) (payload : Option Json)
deriving DecidableEq

namespace ExpectedMessageNode

def key : ExpectedMessageNode → String
  | command key .. | domainEvent key .. | integrationEvent key .. => key

def parentKey : ExpectedMessageNode → Option String
  | command _ parentKey .. | domainEvent _ parentKey .. | integrationEvent _ parentKey .. =>
    parentKey

def kind : ExpectedMessageNode → MessageKind
  | command .. => .command
  | domainEvent .. => .domainEvent
  | integrationEvent .. => .integrationEvent

def name : ExpectedMessageNode → String
  | command _ _ name .. | domainEvent _ _ name .. | integrationEvent _ _ name .. => name

def schemaVersion : ExpectedMessageNode → UInt32
  | command _ _ _ version .. | domainEvent _ _ _ version _ | integrationEvent _ _ _ version _ =>
    version

def context : ExpectedMessageNode → Option String
  | command _ _ _ _ context .. => some context
  | domainEvent .. | integrationEvent .. => none

def payload : ExpectedMessageNode → Option Json
  | command _ _ _ _ _ payload _ | domainEvent _ _ _ _ payload | integrationEvent _ _ _ _ payload =>
    payload

def outcome : ExpectedMessageNode → Option TestOutcome
  | command _ _ _ _ _ _ outcome => some outcome
  | domainEvent .. | integrationEvent .. => none

/-- The `serde` form. -/
def toJson (node : ExpectedMessageNode) : Json :=
  .obj (Json.sparse
    [("kind", some (.str node.kind.name)),
      ("key", some (.str node.key)),
      ("parentKey", node.parentKey.map .str),
      ("name", some (.str node.name)),
      ("schemaVersion", some (.num node.schemaVersion.toNat)),
      ("context", node.context.map .str),
      ("payload", node.payload),
      ("outcome", node.outcome.map TestOutcome.toJson)])

end ExpectedMessageNode

instance : MessageSeriesNode ExpectedMessageNode where
  Correlation := Unit
  decEqCorrelation := inferInstance
  messageId := ExpectedMessageNode.key
  correlationId _ := ()
  causationId := ExpectedMessageNode.parentKey

/-! ## Validation -/

structure MessageSeriesValidationIssue where
  code : String
  path : String
  message : String
deriving DecidableEq, Repr

/-- `graph_path`. -/
def graphPath (base field : String) : String :=
  if base = "" then "/" ++ field else base ++ "/" ++ field

/-- `trim().is_empty()`. -/
def isBlank (text : String) : Bool := (trim text.toList).isEmpty

/-- The issue, if the condition holds. -/
def issueIf (condition : Bool) (code path message : String) : List MessageSeriesValidationIssue :=
  if condition then [⟨code, path, message⟩] else []

@[simp] theorem issueIf_eq_nil {condition : Bool} {code path message : String} :
    issueIf condition code path message = [] ↔ condition = false := by
  cases condition <;> simp [issueIf]

/-- `validate_node_fields`. -/
def validateNodeFields (node : ExpectedMessageNode) (nodePath : String) :
    List MessageSeriesValidationIssue :=
  issueIf (node.parentKey.any isBlank) "empty-parent-key" (nodePath ++ "/parentKey")
      "parent key must not be empty" ++
    issueIf (isBlank node.name) "empty-message-name" (nodePath ++ "/name")
      "message name must not be empty" ++
    issueIf (node.schemaVersion == 0) "invalid-schema-version" (nodePath ++ "/schemaVersion")
      "message schema version must be greater than zero" ++
    issueIf (node.context.any isBlank) "empty-command-context" (nodePath ++ "/context")
      "command context must not be empty" ++
    issueIf ((node.outcome.bind TestOutcome.rejection).any fun r => isBlank r.code)
      "empty-rejection-code" (nodePath ++ "/outcome/rejected/code")
      "rejection code must not be empty"

/-- `first_by_key`: the first node of a key. -/
def firstByKey (nodes : List ExpectedMessageNode) (key : String) : Option Nat :=
  nodes.findIdx? (·.key = key)

/-- A turn of `validate_nodes`. -/
def validateNode (nodes : List ExpectedMessageNode) (nodesPath : String)
    (entry : ExpectedMessageNode × Nat) : List MessageSeriesValidationIssue :=
  let (node, index) := entry
  let nodePath := nodesPath ++ "/" ++ toString index
  issueIf (isBlank node.key) "empty-node-key" (nodePath ++ "/key") "node key must not be empty" ++
    (match firstByKey nodes node.key with
    | none => []
    | some first =>
      issueIf (first != index) "duplicate-node-key" (nodePath ++ "/key")
        ("node key `" ++ node.key ++ "` duplicates " ++ nodesPath ++ "/" ++ toString first ++
          "/key")) ++
    validateNodeFields node nodePath

/-- A key is repeated. -/
def duplicateKeys (nodes : List ExpectedMessageNode) : Bool :=
  nodes.zipIdx.any fun entry => firstByKey nodes entry.1.key != some entry.2

/-- `validate_parent_keys`. -/
def validateParentKeys (nodes : List ExpectedMessageNode) (nodesPath : String) :
    List MessageSeriesValidationIssue :=
  nodes.zipIdx.flatMap fun (node, index) =>
    match node.parentKey with
    | none => []
    | some parentKey =>
      issueIf (!isBlank parentKey && (firstByKey nodes parentKey).isNone) "unresolved-parent-key"
        (nodesPath ++ "/" ++ toString index ++ "/parentKey")
        ("parent key `" ++ parentKey ++ "` does not identify a node in this graph")

/-- `validate_root`. -/
def validateRoot (nodes : List ExpectedMessageNode) (nodesPath : String) :
    List MessageSeriesValidationIssue :=
  match nodes.zipIdx.filter (·.1.parentKey.isNone) with
  | [(root, index)] =>
    if root.kind ≠ .command then
      [⟨"root-not-command", nodesPath ++ "/" ++ toString index ++ "/kind",
        "message graph root must be a command"⟩]
    else
      issueIf root.payload.isNone "missing-root-command-payload"
        (nodesPath ++ "/" ++ toString index ++ "/payload")
        "root command must contain its complete input payload"
  | roots =>
    [⟨"invalid-root-count", nodesPath,
      "message graph must contain exactly one root; found " ++ toString roots.length⟩]

/-- `TopologyNode`: a key and its parent. -/
structure TopologyNode where
  key : String
  parentKey : Option String
deriving DecidableEq, Repr

instance : MessageSeriesNode TopologyNode where
  Correlation := Unit
  decEqCorrelation := inferInstance
  messageId := TopologyNode.key
  correlationId _ := ()
  causationId := TopologyNode.parentKey

/-- The issue of a cycle. -/
def cycleIssue (nodes : List ExpectedMessageNode) (nodesPath : String) :
    MessageSeriesTopologyIssue TopologyNode → List MessageSeriesValidationIssue
  | .cycle members =>
    match members.head?.bind fun first => firstByKey nodes first.key with
    | none => []
    | some index =>
      [⟨"causation-cycle", nodesPath ++ "/" ++ toString index ++ "/parentKey",
        "causation cycle contains node keys: " ++ ", ".intercalate (members.map (·.key))⟩]
  | _ => []

/-- `validate_cycles`. -/
def validateCycles (nodes : List ExpectedMessageNode) (nodesPath : String) :
    List MessageSeriesValidationIssue :=
  if !duplicateKeys nodes ∧ nodes.length ≤ maxMessageSeriesNodes then
    match MessageSeries.tryFromNodes (nodes.map fun node => TopologyNode.mk node.key node.parentKey) with
    | .error _ => []
    | .ok topology => topology.topologyIssues.flatMap (cycleIssue nodes nodesPath)
  else []

/-- The parent of a key. -/
def parentOfKey (nodes : List ExpectedMessageNode) (key : String) : Option String :=
  (firstByKey nodes key).bind fun index => (nodes[index]?).bind (·.parentKey)

/-- The loop of `validate_comparison_bounds` over the parents of a node. It returns when the depth
exceeds its maximum, so that `fuel`, one more than the maximum, does not run out. -/
def exceedsDepth (nodes : List ExpectedMessageNode) :
    Nat → List String → Nat → Option String → Bool
  | 0, _, _, _ => false
  | _ + 1, _, _, none => false
  | fuel + 1, visited, depth, some parent =>
    if parent ∈ visited then false
    else if depth + 1 > maximumExpectedGraphDepth then true
    else exceedsDepth nodes fuel (parent :: visited) (depth + 1) (parentOfKey nodes parent)

/-- `validate_comparison_bounds`. The first parent with too many children is reported, whichever the
map of the source gives first. -/
def validateComparisonBounds (nodes : List ExpectedMessageNode) (nodesPath : String) :
    List MessageSeriesValidationIssue :=
  let count (parent : String) := (nodes.filter (·.parentKey = some parent)).length
  (match (nodes.filterMap (·.parentKey)).find? fun parent => count parent > maximumExpectedSiblings with
    | none => []
    | some parent =>
      [⟨"too-many-siblings", nodesPath,
        "node `" ++ parent ++ "` has " ++ toString (count parent) ++ " children; at most " ++
          toString maximumExpectedSiblings ++ " are supported"⟩]) ++
    issueIf
      (!duplicateKeys nodes && nodes.any fun node =>
        exceedsDepth nodes (maximumExpectedGraphDepth + 1) [] 0 node.parentKey)
      "message-graph-too-deep" nodesPath
      ("message graph depth exceeds the supported maximum of " ++
        toString maximumExpectedGraphDepth)

/-- `validate_graph`. -/
def validateGraph (nodes : List ExpectedMessageNode) (path : String) :
    List MessageSeriesValidationIssue :=
  let nodesPath := graphPath path "nodes"
  if nodes.isEmpty then
    [⟨"empty-message-graph", nodesPath, "message graph must contain at least one node"⟩]
  else
    issueIf (nodes.length > maxMessageSeriesNodes) "too-many-nodes" nodesPath
        ("message graph contains more than " ++ toString maxMessageSeriesNodes ++ " nodes") ++
      nodes.zipIdx.flatMap (validateNode nodes nodesPath) ++
      validateParentKeys nodes nodesPath ++ validateRoot nodes nodesPath ++
      validateCycles nodes nodesPath ++ validateComparisonBounds nodes nodesPath

/-! ## Accepted graphs -/

section Accepted

variable {nodes : List ExpectedMessageNode} {path : String}

theorem firstByKey_eq_none {key : String} :
    firstByKey nodes key = none ↔ ∀ node ∈ nodes, node.key ≠ key := by
  simp [firstByKey, List.findIdx?_eq_none_iff]

/-- The parts of a validation without issues. -/
theorem validateGraph_eq_nil (h : validateGraph nodes path = []) :
    nodes.length ≤ maxMessageSeriesNodes ∧
      (∀ entry ∈ nodes.zipIdx, validateNode nodes (graphPath path "nodes") entry = []) ∧
      validateParentKeys nodes (graphPath path "nodes") = [] ∧
      validateRoot nodes (graphPath path "nodes") = [] ∧
      validateCycles nodes (graphPath path "nodes") = [] := by
  unfold validateGraph at h
  dsimp only at h
  split at h
  · cases h
  · simp only [List.append_eq_nil_iff, issueIf_eq_nil, List.flatMap_eq_nil_iff,
      decide_eq_false_iff_not, not_lt, gt_iff_lt] at h
    exact ⟨h.1.1.1.1.1, h.1.1.1.1.2, h.1.1.1.2, h.1.1.2, h.1.2⟩

theorem firstByKey_of_valid (h : validateGraph nodes path = []) {i : Nat}
    {node : ExpectedMessageNode} (hi : nodes[i]? = some node) :
    firstByKey nodes node.key = some i := by
  have hnode := (validateGraph_eq_nil h).2.1 (node, i) (List.mem_zipIdx_iff_getElem?.mpr hi)
  simp only [validateNode, List.append_eq_nil_iff] at hnode
  rcases hfirst : firstByKey nodes node.key with _ | first
  · exact absurd rfl (firstByKey_eq_none.mp hfirst node (List.mem_of_getElem? hi))
  · rw [hfirst] at hnode
    have := hnode.1.2
    simp only [issueIf_eq_nil, bne_eq_false_iff_eq] at this
    rw [this]

theorem keys_nodup_of_valid (h : validateGraph nodes path = []) :
    (nodes.map ExpectedMessageNode.key).Nodup := by
  rw [List.nodup_iff_getElem?_ne_getElem?]
  intro i j hij hj heq
  rw [List.length_map] at hj
  simp only [List.getElem?_map] at heq
  rw [List.getElem?_eq_getElem (hij.trans hj), List.getElem?_eq_getElem hj, Option.map_some,
    Option.map_some, Option.some.injEq] at heq
  have hi' := firstByKey_of_valid h (List.getElem?_eq_getElem (hij.trans hj))
  have hj' := firstByKey_of_valid h (List.getElem?_eq_getElem hj)
  rw [heq, hj', Option.some.injEq] at hi'
  omega

end Accepted

/-- A graph that was accepted. -/
structure MessageGraphDefinition where
  nodes : MessageSeries ExpectedMessageNode
  valid : ∃ path, validateGraph nodes.nodes path = []

/-- `MessageGraphDefinition::build`, without the durations of the graph. -/
def MessageGraphDefinition.build (nodes : List ExpectedMessageNode) (path : String) :
    Except (List MessageSeriesValidationIssue) MessageGraphDefinition :=
  if hvalid : validateGraph nodes path = [] then
    match h : MessageSeries.tryFromNodes nodes with
    | .error e => .error [⟨"invalid-message-graph", graphPath path "nodes", e.toString⟩]
    | .ok series => .ok {
        nodes := series
        valid := ⟨path, by
          rw [MessageSeries.nodes_of_tryFromNodes h (keys_nodup_of_valid hvalid)]
          exact hvalid⟩ }
  else .error (validateGraph nodes path)

end Rostfrei.Tracer
