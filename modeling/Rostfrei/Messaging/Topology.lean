import Rostfrei.Messaging.Cycles

/-!
# Trees of messages

The causal links of a series as a relation on its messages (`CausedBy`), and the number of links
from a message up to one without a cause (`AtDepth`).

`topologyIssues` is empty for a series exactly if every cause of it is there with the same
correlation and no message causes itself (`topologyIssues_eq_nil`). Then every message has a depth
(`exists_atDepth`), so that a series with messages has a message without a cause
(`exists_root`): a finite number of messages cannot all have their cause among them.
-/

namespace Rostfrei.Messaging

open Lib

section Nodes

variable {N : Type} [MessageSeriesNode N] {nodes : List N} {child parent node : N} {d e : Nat}

/-- The parent is one of the messages, and the cause of the child. -/
def CausedBy (nodes : List N) (child parent : N) : Prop :=
  child ∈ nodes ∧ parent ∈ nodes ∧ causationId child = some (messageId parent)

/-- The number of links from a message to one without a cause. -/
inductive AtDepth (nodes : List N) : N → Nat → Prop where
  | root {node : N} (hnode : node ∈ nodes) (hcause : causationId node = none) : AtDepth nodes node 0
  | child {child parent : N} {d : Nat} (hcaused : CausedBy nodes child parent)
      (hparent : AtDepth nodes parent d) : AtDepth nodes child (d + 1)

theorem AtDepth.mem (h : AtDepth nodes node d) : node ∈ nodes := by
  cases h with
  | root hnode => exact hnode
  | child hcaused => exact hcaused.1

/-- The cause of a message is one message. -/
theorem CausedBy.unique {parent' : N} (hnodup : (nodes.map messageId).Nodup)
    (h : CausedBy nodes child parent) (h' : CausedBy nodes child parent') : parent = parent' :=
  List.inj_on_of_nodup_map hnodup h.2.1 h'.2.1 (Option.some.inj (h.2.2.symm.trans h'.2.2))

theorem CausedBy.ne_root (h : CausedBy nodes child parent) : causationId child ≠ none := by
  rw [h.2.2]
  exact Option.some_ne_none _

theorem AtDepth.unique (hnodup : (nodes.map messageId).Nodup) (h : AtDepth nodes node d)
    (h' : AtDepth nodes node e) : d = e := by
  induction h generalizing e with
  | root _ hcause =>
    cases h' with
    | root => rfl
    | child hcaused => exact absurd hcause hcaused.ne_root
  | child hcaused _ ih =>
    cases h' with
    | root _ hcause => exact absurd hcause hcaused.ne_root
    | child hcaused' hparent' => rw [ih (hcaused.unique hnodup hcaused' ▸ hparent')]

/-- The way up from a message ends at one without a cause. -/
theorem AtDepth.reaches (h : AtDepth nodes node d) :
    ∃ root ∈ nodes, causationId root = none ∧ Relation.ReflTransGen (CausedBy nodes) node root := by
  induction h with
  | root hnode hcause => exact ⟨_, hnode, hcause, .refl⟩
  | child hcaused _ ih =>
    obtain ⟨root, hroot, hcause, hreach⟩ := ih
    exact ⟨root, hroot, hcause, .head hcaused hreach⟩

theorem atDepth_of_reaches {root : N} (hroot : root ∈ nodes) (hcause : causationId root = none)
    (h : Relation.ReflTransGen (CausedBy nodes) node root) : ∃ d, AtDepth nodes node d := by
  induction h using Relation.ReflTransGen.head_induction_on with
  | refl => exact ⟨0, .root hroot hcause⟩
  | head hcaused _ ih =>
    obtain ⟨d, hd⟩ := ih
    exact ⟨d + 1, .child hcaused hd⟩

/-- A message with a depth does not cause itself. -/
theorem AtDepth.not_cyclic (hnodup : (nodes.map messageId).Nodup) (h : AtDepth nodes node d) :
    ¬ Relation.TransGen (CausedBy nodes) node node := by
  induction h with
  | root _ hcause =>
    intro hcycle
    obtain ⟨parent, hcaused, -⟩ := Relation.TransGen.head'_iff.mp hcycle
    exact hcaused.ne_root hcause
  | child hcaused _ ih =>
    intro hcycle
    obtain ⟨parent, hcaused', hback⟩ := Relation.TransGen.head'_iff.mp hcycle
    obtain rfl := hcaused.unique hnodup hcaused'
    exact ih (Relation.TransGen.tail' hback hcaused)

end Nodes

/-! ## Series -/

namespace MessageSeries

variable {N : Type} [MessageSeriesNode N] (s : MessageSeries N)

/-- Every cause of a message is a message of the same correlation, and no message causes itself. -/
structure LinksComplete : Prop where
  resolved : ∀ child ∈ s.nodes, ∀ id, causationId child = some id →
    ∃ parent ∈ s.nodes, messageId parent = id ∧ correlationId child = correlationId parent
  acyclic : ∀ node, ¬ Relation.TransGen (CausedBy s.nodes) node node

variable {s} in
/-- A message has one index. -/
theorem index_unique {i j : Nat} {a b : N} (hi : s.nodes[i]? = some a) (hj : s.nodes[j]? = some b)
    (h : messageId a = messageId b) : i = j := by
  have hids : (s.nodes.map messageId)[i]? = (s.nodes.map messageId)[j]? := by
    rw [List.getElem?_map, List.getElem?_map, hi, hj, Option.map_some, Option.map_some, h]
  have hlt := (List.getElem?_eq_some_iff.mp hi).1
  exact (List.getElem?_inj (by simpa using hlt) s.ids_nodup).mp hids

theorem parentOf_eq_some {i j : Nat} {child : N} (hi : s.nodes[i]? = some child) :
    parentOf s.parentIndexes i = some j ↔
      ∃ parent, s.nodes[j]? = some parent ∧ CausedBy s.nodes child parent := by
  rw [s.parentOf_parentIndexes]
  constructor
  · rintro ⟨child', parent, hi', hj, hcause⟩
    obtain rfl := Option.some.inj (hi.symm.trans hi')
    exact ⟨parent, hj, List.mem_of_getElem? hi, List.mem_of_getElem? hj, hcause⟩
  · rintro ⟨parent, hj, hcaused⟩
    exact ⟨child, parent, hi, hj, hcaused.2.2⟩

/-- The indexes go along with the messages. -/
theorem indexes_of_nodes {a b : N} (h : Relation.TransGen (CausedBy s.nodes) a b) {i : Nat}
    (hi : s.nodes[i]? = some a) : ∃ j, s.nodes[j]? = some b ∧
      Relation.TransGen (fun i j => parentOf s.parentIndexes i = some j) i j := by
  induction h with
  | single hcaused =>
    obtain ⟨j, hj⟩ := List.mem_iff_getElem?.mp hcaused.2.1
    exact ⟨j, hj, .single ((s.parentOf_eq_some hi).mpr ⟨_, hj, hcaused⟩)⟩
  | tail _ hcaused ih =>
    obtain ⟨j, hj, hij⟩ := ih
    obtain ⟨k, hk⟩ := List.mem_iff_getElem?.mp hcaused.2.1
    exact ⟨k, hk, hij.tail ((s.parentOf_eq_some hj).mpr ⟨_, hk, hcaused⟩)⟩

/-- The messages go along with the indexes. -/
theorem nodes_of_indexes {i j : Nat}
    (h : Relation.TransGen (fun i j => parentOf s.parentIndexes i = some j) i j) {a : N}
    (ha : s.nodes[i]? = some a) :
    ∃ b, s.nodes[j]? = some b ∧ Relation.TransGen (CausedBy s.nodes) a b := by
  induction h with
  | single hparent =>
    obtain ⟨b, hb, hcaused⟩ := (s.parentOf_eq_some ha).mp hparent
    exact ⟨b, hb, .single hcaused⟩
  | tail _ hparent ih =>
    obtain ⟨b, hb, hab⟩ := ih
    obtain ⟨c, hc, hcaused⟩ := (s.parentOf_eq_some hb).mp hparent
    exact ⟨c, hc, hab.tail hcaused⟩

/-- A cycle of indexes is one of messages. -/
theorem periodic_parentIndexes {i : Nat} {node : N} (hi : s.nodes[i]? = some node) :
    Periodic (parentOf s.parentIndexes) i ↔ Relation.TransGen (CausedBy s.nodes) node node := by
  constructor
  · intro hper
    obtain ⟨node', hnode', hback⟩ := s.nodes_of_indexes hper hi
    exact Option.some.inj (hi.symm.trans hnode') ▸ hback
  · intro hcycle
    obtain ⟨j, hj, hij⟩ := s.indexes_of_nodes hcycle hi
    obtain rfl := index_unique hi hj rfl
    exact hij

/-- The messages of a cycle are messages of the series. -/
theorem exists_node_of_periodic {i : Nat} (h : Periodic (parentOf s.parentIndexes) i) :
    ∃ node, s.nodes[i]? = some node := by
  obtain ⟨j, -, hj⟩ := Relation.TransGen.tail'_iff.mp h
  obtain ⟨_, node, -, hnode, -⟩ := s.parentOf_parentIndexes.mp hj
  exact ⟨node, hnode⟩

theorem findCycles_eq_nil :
    findCycles s.parentIndexes = [] ↔ ∀ node, ¬ Relation.TransGen (CausedBy s.nodes) node node := by
  constructor
  · intro hnone node hcycle
    obtain ⟨parent, hfirst, -⟩ := Relation.TransGen.head'_iff.mp hcycle
    obtain ⟨i, hi⟩ := List.mem_iff_getElem?.mp hfirst.1
    obtain ⟨hlt, -⟩ := List.getElem?_eq_some_iff.mp hi
    exact (grounded_of_findCycles s.parentIndexes_lt hnone
      (by rwa [s.length_parentIndexes])).not_periodic ((s.periodic_parentIndexes hi).mpr hcycle)
  · intro hacyclic
    refine List.eq_nil_iff_forall_not_mem.mpr fun c hc => ?_
    have hcycle := findCycles_isCycle s.parentIndexes_lt c hc
    obtain ⟨i, hi⟩ := List.exists_mem_of_ne_nil c hcycle.ne_nil
    have hper := hcycle.periodic i hi
    obtain ⟨node, hnode⟩ := s.exists_node_of_periodic hper
    exact hacyclic node ((s.periodic_parentIndexes hnode).mp hper)

theorem linkIssue_eq_none {child : N} :
    s.linkIssue child = none ↔ ∀ id, causationId child = some id →
      ∃ parent ∈ s.nodes, messageId parent = id ∧ correlationId child = correlationId parent := by
  unfold linkIssue
  rcases hcause : causationId child with _ | id
  · simp
  · simp only [Option.some.injEq, forall_eq']
    rcases hindex : s.indexOf? id with _ | i
    · simp only [reduceCtorEq, false_iff, not_exists, not_and]
      exact fun parent hparent hid => absurd hid (s.indexOf?_eq_none.mp hindex parent hparent)
    · obtain ⟨parent, hi, hid⟩ := s.indexOf?_eq_some.mp hindex
      simp only [hi, ite_eq_right_iff, reduceCtorEq, imp_false, not_not]
      constructor
      · exact fun hsame => ⟨parent, List.mem_of_getElem? hi, hid, hsame⟩
      · rintro ⟨other, hother, hid', hsame⟩
        rwa [s.eq_of_messageId (List.mem_of_getElem? hi) hother (hid.trans hid'.symm)]

theorem topologyIssues_eq_nil : s.topologyIssues = [] ↔ s.LinksComplete := by
  rw [topologyIssues, List.append_eq_nil_iff, List.filterMap_eq_nil_iff, List.map_eq_nil_iff,
    s.findCycles_eq_nil]
  simp only [s.linkIssue_eq_none]
  exact ⟨fun ⟨hresolved, hacyclic⟩ => ⟨hresolved, hacyclic⟩,
    fun h => ⟨h.resolved, h.acyclic⟩⟩

variable {s}

/-- The links of a complete series go up to a message without a cause. -/
theorem LinksComplete.exists_atDepth (h : s.LinksComplete) {node : N} (hnode : node ∈ s.nodes) :
    ∃ d, AtDepth s.nodes node d := by
  obtain ⟨i, hi⟩ := List.mem_iff_getElem?.mp hnode
  have hground : Grounded (parentOf s.parentIndexes) i :=
    grounded_of_findCycles s.parentIndexes_lt (s.findCycles_eq_nil.mpr h.acyclic)
      (by rw [s.length_parentIndexes]; exact (List.getElem?_eq_some_iff.mp hi).1)
  induction hground generalizing node with
  | @root i hnone =>
    refine ⟨0, .root hnode (Option.eq_none_iff_forall_ne_some.mpr fun id hid => ?_)⟩
    obtain ⟨parent, hparent, rfl, -⟩ := h.resolved node hnode id hid
    obtain ⟨j, hj⟩ := List.mem_iff_getElem?.mp hparent
    have := (s.parentOf_eq_some hi).mpr ⟨parent, hj, hnode, hparent, hid⟩
    simp [hnone] at this
  | child hparent _ ih =>
    obtain ⟨parent, hj, hcaused⟩ := (s.parentOf_eq_some hi).mp hparent
    obtain ⟨d, hd⟩ := ih hcaused.2.1 hj
    exact ⟨d + 1, .child hcaused hd⟩

/-- Not every message of a series has its cause in the series. -/
theorem LinksComplete.exists_root (h : s.LinksComplete) (hne : s.nodes ≠ []) :
    ∃ root ∈ s.nodes, causationId root = none := by
  obtain ⟨node, hnode⟩ := List.exists_mem_of_ne_nil _ hne
  obtain ⟨d, hd⟩ := h.exists_atDepth hnode
  obtain ⟨root, hroot, hcause, -⟩ := hd.reaches
  exact ⟨root, hroot, hcause⟩

/-- A series in which every message has a depth has no cycles. -/
theorem acyclic_of_atDepth (h : ∀ node ∈ s.nodes, ∃ d, AtDepth s.nodes node d) (node : N) :
    ¬ Relation.TransGen (CausedBy s.nodes) node node := by
  intro hcycle
  obtain ⟨parent, hfirst, -⟩ := Relation.TransGen.head'_iff.mp hcycle
  obtain ⟨d, hd⟩ := h node hfirst.1
  exact hd.not_cyclic s.ids_nodup hcycle

end MessageSeries

end Rostfrei.Messaging
