import Rostfrei.Messaging.Topology
import Rostfrei.Tracer.Observed

/-!
# Accepted graphs are trees

The checks of `validate_graph` each pass over some graphs that another check refuses: a repeated
key, a parent that is missing, a cycle. Together they accept exactly the trees of valid nodes
(`validateGraph_eq_nil_iff`), for nodes with different keys check by check; each check is the
subject of one equivalence below.

In a tree the walk of `expected_depth` up from a node ends (`expectedDepth_of_atDepth`).
-/

namespace Rostfrei.Tracer

open Lib Messaging

/-! ## Trees of expected messages -/

/-- The fields of a node are valid. -/
structure ExpectedMessageNode.Valid (node : ExpectedMessageNode) : Prop where
  key : isBlank node.key = false
  parentKey : ∀ key, node.parentKey = some key → isBlank key = false
  name : isBlank node.name = false
  schemaVersion : node.schemaVersion ≠ 0
  context : ∀ context, node.context = some context → isBlank context = false
  rejection : ∀ outcome rejection, node.outcome = some outcome → outcome.rejection = some rejection →
    isBlank rejection.code = false

/-- A single tree of valid nodes: each leads up to the root, which is a command with a payload. -/
structure MessageTree (nodes : List ExpectedMessageNode) : Prop where
  ne_nil : nodes ≠ []
  length_le : nodes.length ≤ maxMessageSeriesNodes
  keys : (nodes.map ExpectedMessageNode.key).Nodup
  valid : ∀ node ∈ nodes, node.Valid
  root : ∃ root ∈ nodes, root.parentKey = none ∧ root.kind = .command ∧ root.payload.isSome = true ∧
    (∀ other ∈ nodes, other.parentKey = none → other = root) ∧
    ∀ node ∈ nodes, Relation.ReflTransGen (CausedBy nodes) node root
  depth : ∀ node ∈ nodes, ∃ d ≤ maximumExpectedGraphDepth, AtDepth nodes node d
  siblings : ∀ parent ∈ nodes,
    (nodes.filter (·.parentKey = some parent.key)).length ≤ maximumExpectedSiblings

/-- A turn of the loop of `expected_depth` for each unit of fuel; nothing, if it needs more. -/
def expectedDepthFrom (expected : MessageSeries ExpectedMessageNode) :
    Nat → Nat → Option String → Option Nat
  | _, depth, none => some depth
  | 0, _, some _ => none
  | fuel + 1, depth, some parentKey =>
    expectedDepthFrom expected fuel (saturatingAdd depth 1)
      ((expected.get parentKey).bind (·.parentKey))

/-- `expected_depth`. -/
def MessageGraphDefinition.expectedDepth (graph : MessageGraphDefinition) (fuel : Nat)
    (node : ExpectedMessageNode) : Option Nat :=
  expectedDepthFrom graph.nodes fuel 0 node.parentKey

/-! ## The checks, for nodes with different keys -/

section Checks

variable {s : MessageSeries ExpectedMessageNode} {nodesPath : String} {node : ExpectedMessageNode}
  {i : Nat}

theorem firstByKey_self (hi : s.nodes[i]? = some node) : firstByKey s.nodes node.key = some i :=
  s.indexOf?_eq_some.mpr ⟨node, hi, rfl⟩

theorem duplicateKeys_eq_false : duplicateKeys s.nodes = false := by
  simp only [duplicateKeys, List.any_eq_false, bne_iff_ne, not_not]
  intro entry hentry
  exact firstByKey_self (List.mem_zipIdx_iff_getElem?.mp hentry)

theorem validateNodeFields_eq_nil {nodePath : String} :
    isBlank node.key = false ∧ validateNodeFields node nodePath = [] ↔ node.Valid := by
  simp only [validateNodeFields, List.append_eq_nil_iff, issueIf_eq_nil, Option.any_eq_false,
    beq_eq_false_iff_ne]
  constructor
  · rintro ⟨hkey, ⟨⟨⟨hparent, hname⟩, hversion⟩, hcontext⟩, hcode⟩
    exact ⟨hkey, hparent, hname, hversion, hcontext, fun outcome rejection houtcome hrejection =>
      hcode rejection (by rw [houtcome]; exact hrejection)⟩
  · rintro ⟨hkey, hparent, hname, hversion, hcontext, hcode⟩
    refine ⟨hkey, ⟨⟨⟨hparent, hname⟩, hversion⟩, hcontext⟩, fun rejection hrejection => ?_⟩
    obtain ⟨outcome, houtcome, hrejection⟩ := Option.bind_eq_some_iff.mp hrejection
    exact hcode outcome rejection houtcome hrejection

theorem validateNodes_eq_nil :
    (∀ entry ∈ s.nodes.zipIdx, validateNode s.nodes nodesPath entry = []) ↔
      ∀ node ∈ s.nodes, node.Valid := by
  have hentry : ∀ {node : ExpectedMessageNode} {i : Nat}, s.nodes[i]? = some node →
      (validateNode s.nodes nodesPath (node, i) = [] ↔ node.Valid) := by
    intro node i hi
    rw [← @validateNodeFields_eq_nil node (nodesPath ++ "/" ++ toString i)]
    simp [validateNode, firstByKey_self hi]
  constructor
  · intro h node hnode
    obtain ⟨i, hi⟩ := List.mem_iff_getElem?.mp hnode
    exact (hentry hi).mp (h (node, i) (List.mem_zipIdx_iff_getElem?.mpr hi))
  · rintro h ⟨node, i⟩ hmem
    have hi := List.mem_zipIdx_iff_getElem?.mp hmem
    exact (hentry hi).mpr (h node (List.mem_of_getElem? hi))

/-- A parent key that is not blank is one of the keys. -/
theorem validateParentKeys_eq_nil (hvalid : ∀ node ∈ s.nodes, node.Valid) :
    validateParentKeys s.nodes nodesPath = [] ↔
      ∀ node ∈ s.nodes, ∀ key, node.parentKey = some key → ∃ parent ∈ s.nodes, parent.key = key := by
  rw [validateParentKeys, List.flatMap_eq_nil_iff]
  have hentry : ∀ {node : ExpectedMessageNode} {key : String} {code path message : String},
      node ∈ s.nodes → node.parentKey = some key →
      (issueIf (!isBlank key && (firstByKey s.nodes key).isNone) code path message = [] ↔
        ∃ parent ∈ s.nodes, parent.key = key) := by
    intro node key code path message hnode hparent
    simp only [issueIf_eq_nil, (hvalid node hnode).parentKey key hparent, Bool.not_false,
      Bool.true_and, Option.isNone_eq_false_iff]
    constructor
    · intro hsome
      obtain ⟨j, hj⟩ := Option.isSome_iff_exists.mp hsome
      obtain ⟨parent, hparent, hkey⟩ := s.indexOf?_eq_some.mp hj
      exact ⟨parent, List.mem_of_getElem? hparent, hkey⟩
    · rintro ⟨parent, hmem, rfl⟩
      obtain ⟨j, hj⟩ := List.mem_iff_getElem?.mp hmem
      rw [firstByKey_self hj]
      rfl
  constructor
  · intro h node hnode key hkey
    obtain ⟨i, hi⟩ := List.mem_iff_getElem?.mp hnode
    have hissue := h (node, i) (List.mem_zipIdx_iff_getElem?.mpr hi)
    dsimp only at hissue
    rw [hkey] at hissue
    exact (hentry hnode hkey).mp hissue
  · rintro h ⟨node, i⟩ hmem
    have hnode := List.mem_of_getElem? (List.mem_zipIdx_iff_getElem?.mp hmem)
    dsimp only
    cases hparent : node.parentKey with
    | none => rfl
    | some key => exact (hentry hnode hparent).mpr (h node hnode key hparent)

theorem validateRoot_eq_nil {nodes : List ExpectedMessageNode} :
    validateRoot nodes nodesPath = [] ↔ ∃ root, nodes.filter (·.parentKey.isNone) = [root] ∧
      root.kind = .command ∧ root.payload.isSome = true := by
  have hfilter : nodes.filter (·.parentKey.isNone) =
      (nodes.zipIdx.filter (·.1.parentKey.isNone)).map Prod.fst := by
    conv_lhs => rw [← List.zipIdx_map_fst 0 nodes, List.filter_map]
    rfl
  rw [hfilter, validateRoot]
  split
  · next root index heq =>
    rw [heq]
    by_cases hkind : root.kind = .command
    · simp [hkind]
    · simp [hkind]
  · next hroots =>
    refine iff_of_false (by simp) ?_
    rintro ⟨root, hmap, -⟩
    obtain ⟨⟨root', index⟩, hsingle, -⟩ := List.map_eq_singleton_iff.mp hmap
    exact hroots root' index hsingle

/-- The walks go over the keys alone. -/
theorem validateCycles_eq_nil :
    validateCycles s.nodes nodesPath = [] ↔
      ∀ node, ¬ Relation.TransGen (CausedBy s.nodes) node node := by
  let toNode := fun node : ExpectedMessageNode => TopologyNode.mk node.key node.parentKey
  have hnodup : ((s.nodes.map toNode).map messageId).Nodup := by
    rw [List.map_map]
    exact s.ids_nodup
  have hle := s.nodes_le
  obtain ⟨topology, htopology⟩ := MessageSeries.tryFromNodes_ok hnodup (by simpa using hle)
  have hnodes : topology.nodes = s.nodes.map toNode :=
    MessageSeries.nodes_of_tryFromNodes htopology hnodup
  have hparents : topology.parentIndexes = s.parentIndexes := by
    have hindex : topology.indexOf? = s.indexOf? := by
      funext id
      rw [MessageSeries.indexOf?, hnodes, List.findIdx?_map]
      rfl
    rw [MessageSeries.parentIndexes, hindex, hnodes, List.map_map]
    rfl
  rw [← s.findCycles_eq_nil, ← hparents, validateCycles,
    if_pos ⟨by rw [duplicateKeys_eq_false]; rfl, hle⟩, htopology]
  simp only [MessageSeries.topologyIssues, List.flatMap_append, List.append_eq_nil_iff]
  have hlinks : (topology.nodes.filterMap topology.linkIssue).flatMap (cycleIssue s.nodes nodesPath)
      = [] := by
    refine List.flatMap_eq_nil_iff.mpr fun issue hissue => ?_
    obtain ⟨child, -, hchild⟩ := List.mem_filterMap.mp hissue
    -- a link issue is no cycle
    unfold MessageSeries.linkIssue at hchild
    split at hchild
    · cases hchild
    split at hchild
    · obtain rfl := Option.some.inj hchild
      rfl
    split at hchild
    · cases hchild
    split at hchild
    · obtain rfl := Option.some.inj hchild
      rfl
    · cases hchild
  refine ⟨?_, fun hnone => ⟨hlinks, by rw [hnone]; rfl⟩⟩
  rintro ⟨-, hcycles⟩
  refine List.eq_nil_iff_forall_not_mem.mpr fun cycle hcycle => ?_
  have hissue := List.flatMap_eq_nil_iff.mp hcycles _ (List.mem_map_of_mem hcycle)
  -- the first index of the cycle is one of a node
  have hiscycle := findCycles_isCycle topology.parentIndexes_lt cycle hcycle
  obtain ⟨i, rest, rfl⟩ := List.exists_cons_of_ne_nil hiscycle.ne_nil
  obtain ⟨j, -, hj⟩ := Relation.TransGen.tail'_iff.mp (hiscycle.periodic i List.mem_cons_self)
  obtain ⟨-, member, -, hmember, -⟩ := topology.parentOf_parentIndexes.mp hj
  obtain ⟨first, hfirst, rfl⟩ : ∃ first, s.nodes[i]? = some first ∧ toNode first = member := by
    rwa [hnodes, List.getElem?_map, Option.map_eq_some_iff] at hmember
  rw [List.filterMap_cons_some hmember] at hissue
  simp only [cycleIssue, List.head?_cons, Option.bind_some, toNode, firstByKey_self hfirst] at hissue
  cases hissue

/-- The walk up from a node, past the parents below it. -/
theorem exceedsDepth_eq {d fuel depth : Nat} {visited : List String}
    (hnode : AtDepth s.nodes node d) (hfuel : fuel + depth = maximumExpectedGraphDepth + 1)
    (hpos : 0 < fuel)
    (hvisited : ∀ other ∈ s.nodes, other.key ∈ visited → ∀ e, AtDepth s.nodes other e → d ≤ e) :
    exceedsDepth s.nodes fuel visited depth node.parentKey =
      decide (maximumExpectedGraphDepth < depth + d) := by
  induction hnode generalizing fuel depth visited with
  | root _ hcause =>
    have hnone : ExpectedMessageNode.parentKey _ = none := hcause
    obtain ⟨fuel, rfl⟩ := Nat.exists_eq_succ_of_ne_zero hpos.ne'
    rw [hnone, exceedsDepth, eq_comm, decide_eq_false_iff_not]
    omega
  | @child child parent d hcaused hparent ih =>
    have hkey : child.parentKey = some parent.key := hcaused.2.2
    obtain ⟨fuel, rfl⟩ := Nat.exists_eq_succ_of_ne_zero hpos.ne'
    have hfresh : parent.key ∉ visited := by
      intro hmem
      have := hvisited parent hcaused.2.1 hmem d hparent
      omega
    rw [hkey, exceedsDepth, if_neg hfresh]
    split
    · next hdeep =>
      rw [eq_comm, decide_eq_true_eq]
      omega
    · next hdeep =>
      have hup : parentOfKey s.nodes parent.key = parent.parentKey := by
        obtain ⟨j, hj⟩ := List.mem_iff_getElem?.mp hcaused.2.1
        rw [parentOfKey, firstByKey_self hj, Option.bind_some, hj, Option.bind_some]
      rw [hup, ih (by omega) (by omega) fun other hother hmem e he => ?_]
      · congr 2
        omega
      · rcases List.mem_cons.mp hmem with hsame | hmem
        · obtain rfl := s.eq_of_messageId hother hcaused.2.1 hsame
          exact (hparent.unique s.ids_nodup he).le
        · have := hvisited other hother hmem e he
          omega

theorem validateComparisonBounds_eq_nil
    (hdepth : ∀ node ∈ s.nodes, ∃ d, AtDepth s.nodes node d) :
    validateComparisonBounds s.nodes nodesPath = [] ↔
      (∀ node ∈ s.nodes, ∃ d ≤ maximumExpectedGraphDepth, AtDepth s.nodes node d) ∧
      ∀ parent ∈ s.nodes,
        (s.nodes.filter (·.parentKey = some parent.key)).length ≤ maximumExpectedSiblings := by
  have hsiblings : (s.nodes.filterMap (·.parentKey)).find? (fun parent => decide
      ((s.nodes.filter (·.parentKey = some parent)).length > maximumExpectedSiblings)) = none ↔
      ∀ parent ∈ s.nodes,
        (s.nodes.filter (·.parentKey = some parent.key)).length ≤ maximumExpectedSiblings := by
    simp only [List.find?_eq_none, List.mem_filterMap, decide_eq_true_eq, not_lt, gt_iff_lt,
      forall_exists_index, and_imp]
    constructor
    · intro h parent _
      by_contra hmany
      -- a parent with children is the parent of one of them
      obtain ⟨child, hchild⟩ := List.exists_mem_of_length_pos (Nat.zero_lt_of_lt (not_le.mp hmany))
      obtain ⟨hmem, hkey⟩ := List.mem_filter.mp hchild
      exact hmany (h parent.key child hmem (of_decide_eq_true hkey))
    · intro h key child hchild hkey
      obtain ⟨d, hd⟩ := hdepth child hchild
      cases hd with
      | root _ hcause => exact absurd (hcause.symm.trans hkey) (by simp)
      | @child _ parent _ hcaused _ =>
        obtain rfl : parent.key = key := Option.some.inj (hcaused.2.2.symm.trans hkey)
        exact h parent hcaused.2.1
  have hexceeds : (s.nodes.any fun node =>
      exceedsDepth s.nodes (maximumExpectedGraphDepth + 1) [] 0 node.parentKey) = false ↔
      ∀ node ∈ s.nodes, ∃ d ≤ maximumExpectedGraphDepth, AtDepth s.nodes node d := by
    simp only [List.any_eq_false, Bool.not_eq_true]
    refine forall₂_congr fun node hnode => ?_
    obtain ⟨d, hd⟩ := hdepth node hnode
    rw [exceedsDepth_eq hd (by omega) (by omega) (by simp), decide_eq_false_iff_not, Nat.zero_add,
      not_lt]
    constructor
    · exact fun hle => ⟨d, hle, hd⟩
    · rintro ⟨e, hle, he⟩
      rwa [hd.unique s.ids_nodup he]
  rw [validateComparisonBounds, List.append_eq_nil_iff, issueIf_eq_nil, duplicateKeys_eq_false,
    Bool.not_false, Bool.true_and, hexceeds, ← hsiblings, and_comm]
  refine and_congr_right fun _ => ?_
  dsimp only
  split <;> simp_all

/-- The parent keys that are there. -/
theorem linksComplete_iff :
    s.LinksComplete ↔
      (∀ node ∈ s.nodes, ∀ key, node.parentKey = some key → ∃ parent ∈ s.nodes, parent.key = key) ∧
        ∀ node, ¬ Relation.TransGen (CausedBy s.nodes) node node := by
  constructor
  · intro h
    refine ⟨fun node hnode key hkey => ?_, h.acyclic⟩
    obtain ⟨parent, hparent, hid, -⟩ := h.resolved node hnode key hkey
    exact ⟨parent, hparent, hid⟩
  · rintro ⟨hparents, hacyclic⟩
    refine ⟨fun node hnode key hkey => ?_, hacyclic⟩
    obtain ⟨parent, hparent, hid⟩ := hparents node hnode key hkey
    exact ⟨parent, hparent, hid, rfl⟩

/-- Without issues, nodes with different keys are a tree, and a tree has no issues. -/
theorem validateGraph_eq_nil_iff {path : String} :
    validateGraph s.nodes path = [] ↔ MessageTree s.nodes := by
  have hle : ¬ s.nodes.length > maxMessageSeriesNodes := not_lt.mpr s.nodes_le
  constructor
  · intro h
    unfold validateGraph at h
    dsimp only at h
    split at h
    · cases h
    · next hempty =>
      simp only [List.append_eq_nil_iff, List.flatMap_eq_nil_iff] at h
      obtain ⟨⟨⟨⟨⟨-, hnodes⟩, hparents⟩, hroot⟩, hcycles⟩, hbounds⟩ := h
      have hvalid := validateNodes_eq_nil.mp hnodes
      have hlinks : s.LinksComplete := linksComplete_iff.mpr
        ⟨(validateParentKeys_eq_nil hvalid).mp hparents, validateCycles_eq_nil.mp hcycles⟩
      obtain ⟨hdepth, hsiblings⟩ := (validateComparisonBounds_eq_nil
        fun node hnode => hlinks.exists_atDepth hnode).mp hbounds
      obtain ⟨root, hfilter, hkind, hpayload⟩ := validateRoot_eq_nil.mp hroot
      have hroots : ∀ other ∈ s.nodes, other.parentKey = none → other = root := by
        intro other hother hnone
        have : other ∈ s.nodes.filter (·.parentKey.isNone) :=
          List.mem_filter.mpr ⟨hother, by simp [hnone]⟩
        rw [hfilter] at this
        exact List.mem_singleton.mp this
      have hmem : root ∈ s.nodes.filter (·.parentKey.isNone) := by simp [hfilter]
      obtain ⟨hmem, hnone⟩ := List.mem_filter.mp hmem
      refine ⟨by simpa using hempty, s.nodes_le, s.ids_nodup, hvalid,
        ⟨root, hmem, by simpa using hnone, hkind, hpayload, hroots, fun node hnode => ?_⟩, hdepth,
        hsiblings⟩
      obtain ⟨d, -, hd⟩ := hdepth node hnode
      obtain ⟨top, htop, hcause, hreach⟩ := hd.reaches
      exact hroots top htop hcause ▸ hreach
  · intro h
    have hdepth : ∀ node ∈ s.nodes, ∃ d, AtDepth s.nodes node d := fun node hnode => by
      obtain ⟨d, -, hd⟩ := h.depth node hnode
      exact ⟨d, hd⟩
    obtain ⟨root, hroot, hnone, hkind, hpayload, hroots, -⟩ := h.root
    have hempty : s.nodes.isEmpty = false := by simpa using h.ne_nil
    unfold validateGraph
    simp only [hempty, Bool.false_eq_true, if_false, List.append_eq_nil_iff,
      List.flatMap_eq_nil_iff, issueIf_eq_nil, decide_eq_false_iff_not]
    refine ⟨⟨⟨⟨⟨hle, validateNodes_eq_nil.mpr h.valid⟩, (validateParentKeys_eq_nil h.valid).mpr ?_⟩,
      validateRoot_eq_nil.mpr ⟨root, ?_, hkind, hpayload⟩⟩,
      validateCycles_eq_nil.mpr (MessageSeries.acyclic_of_atDepth hdepth)⟩,
      (validateComparisonBounds_eq_nil hdepth).mpr ⟨h.depth, h.siblings⟩⟩
    · intro node hnode key hkey
      obtain ⟨d, hd⟩ := hdepth node hnode
      cases hd with
      | root _ hcause => exact absurd (hcause.symm.trans hkey) (by simp)
      | @child _ parent _ hcaused _ =>
        exact ⟨parent, hcaused.2.1, Option.some.inj (hcaused.2.2.symm.trans hkey)⟩
    · refine List.perm_singleton.mp ((List.perm_ext_iff_of_nodup
        ((List.Nodup.of_map _ s.ids_nodup).filter _) (by simp)).mpr fun other => ?_)
      simp only [List.mem_filter, Option.isNone_iff_eq_none, List.mem_singleton]
      constructor
      · rintro ⟨hother, hcause⟩
        exact hroots other hother hcause
      · rintro rfl
        exact ⟨hroot, hnone⟩

end Checks

/-! ## Accepted graphs -/

/-- As many turns as the node is deep end the walk. -/
theorem expectedDepthFrom_of_atDepth {expected : MessageSeries ExpectedMessageNode}
    {node : ExpectedMessageNode} {d fuel depth : Nat} (h : AtDepth expected.nodes node d)
    (hfuel : d ≤ fuel) (hbound : depth + d < 2 ^ 64) :
    expectedDepthFrom expected fuel depth node.parentKey = some (depth + d) := by
  induction h generalizing fuel depth with
  | root _ hcause =>
    have hnone : ExpectedMessageNode.parentKey _ = none := hcause
    rw [hnone]
    cases fuel <;> rfl
  | @child child parent d hcaused _ ih =>
    have hkey : child.parentKey = some parent.key := hcaused.2.2
    obtain ⟨fuel, rfl⟩ : ∃ n, fuel = n + 1 := ⟨fuel - 1, by omega⟩
    have hget : expected.get parent.key = some parent :=
      expected.get_eq_some.mpr ⟨hcaused.2.1, rfl⟩
    have hnext : saturatingAdd depth 1 = depth + 1 := by
      rw [saturatingAdd, min_eq_left]
      have : counterMax = 2 ^ 64 - 1 := rfl
      omega
    rw [hkey, expectedDepthFrom, hget, Option.bind_some, hnext, ih (by omega) (by omega)]
    congr 1
    omega

/-- A list of nodes is built into a graph exactly if it is a tree. In the graph, the walk up from a
node ends after as many turns as the node is deep. -/
theorem build_iff_tree (nodes : List ExpectedMessageNode) (path : String) :
    ((∃ graph, MessageGraphDefinition.build nodes path = .ok graph) ↔ MessageTree nodes) ∧
      ∀ graph, MessageGraphDefinition.build nodes path = .ok graph → graph.nodes.nodes = nodes ∧
        ∀ node ∈ nodes, ∃ d ≤ maximumExpectedGraphDepth, AtDepth nodes node d ∧
          ∀ fuel, d ≤ fuel → graph.expectedDepth fuel node = some d := by
  have hvalid : ∀ graph, MessageGraphDefinition.build nodes path = .ok graph →
      graph.nodes.nodes = nodes ∧ MessageTree nodes := by
    intro graph hgraph
    unfold MessageGraphDefinition.build at hgraph
    split at hgraph
    · next hvalid =>
      split at hgraph
      · cases hgraph
      · next series hseries =>
        obtain rfl := Except.ok.inj hgraph
        have hnodes := MessageSeries.nodes_of_tryFromNodes hseries (keys_nodup_of_valid hvalid)
        refine ⟨hnodes, ?_⟩
        rw [← hnodes] at hvalid ⊢
        exact validateGraph_eq_nil_iff.mp hvalid
    · cases hgraph
  refine ⟨⟨fun ⟨graph, hgraph⟩ => (hvalid graph hgraph).2, fun htree => ?_⟩, fun graph hgraph => ?_⟩
  · obtain ⟨series, hseries⟩ := MessageSeries.tryFromNodes_ok htree.keys htree.length_le
    have hnodes := MessageSeries.nodes_of_tryFromNodes hseries htree.keys
    have hnil : validateGraph nodes path = [] := by
      rw [← hnodes] at htree ⊢
      exact validateGraph_eq_nil_iff.mpr htree
    unfold MessageGraphDefinition.build
    rw [dif_pos hnil]
    split
    · next hfailed => rw [hseries] at hfailed; cases hfailed
    · exact ⟨_, rfl⟩
  · obtain ⟨hnodes, htree⟩ := hvalid graph hgraph
    refine ⟨hnodes, fun node hnode => ?_⟩
    obtain ⟨d, hle, hd⟩ := htree.depth node hnode
    refine ⟨d, hle, hd, fun fuel hfuel => ?_⟩
    have hmax : maximumExpectedGraphDepth = 64 := rfl
    rw [← hnodes] at hd
    rw [MessageGraphDefinition.expectedDepth, expectedDepthFrom_of_atDepth hd hfuel (by omega),
      Nat.zero_add]

/-- The command of an order and the event that it causes. -/
def orderGraph : List ExpectedMessageNode :=
  [.command "place" none "PlaceOrder" 1 "orders" (some (.obj [])) .accepted,
    .domainEvent "placed" (some "place") "OrderPlaced" 1 none]

theorem build_iff_tree_order : MessageTree orderGraph := by
  refine (build_iff_tree orderGraph "").1.mp ?_
  have hok : (MessageGraphDefinition.build orderGraph "").isOk = true := by decide +kernel
  rcases hbuild : MessageGraphDefinition.build orderGraph "" with issues | graph
  · rw [hbuild] at hok
    cases hok
  · exact ⟨graph, rfl⟩

end Rostfrei.Tracer
