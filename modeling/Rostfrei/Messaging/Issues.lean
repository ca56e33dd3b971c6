import Rostfrei.Messaging.Topology

/-!
# What is reported of a series

`find_cycles` lists every cycle of the parents once (`mem_findCycles`, `findCycles_ordered`): a
cycle is listed from its smallest index along the parents (`ListedCycle`), and the cycles are listed
by their first indexes. The walks of `find_cycles` end, however many turns they may take
(`walk_turns`).

`topology_issues_exact` says the same of the messages of a series: the cycles that are reported, and
the links whose parent is reported as missing.
-/

namespace Rostfrei.Messaging

open Lib

/-! ## Listed cycles -/

/-- A cycle in the order of the parents, its smallest member first. -/
structure ListedCycle (p : Nat → Option Nat) (l : List Nat) : Prop where
  ne_nil : l ≠ []
  nodup : l.Nodup
  next : ∀ (i k : Nat), l[i]? = some k → p k = l[(i + 1) % l.length]?
  earliest : ∀ first ∈ l.head?, ∀ i ∈ l, first ≤ i

section Listed

variable {p : Nat → Option Nat} {l l' : List Nat}

/-- The index after another of a path that comes back to its first. -/
theorem getElem?_turn {first i : Nat} {path : List Nat} (hi : i < (first :: path).length) :
    ((first :: path) ++ [first])[i + 1]? = (first :: path)[(i + 1) % (first :: path).length]? := by
  rcases Nat.lt_or_ge (i + 1) (first :: path).length with hlt | hge
  · rw [Nat.mod_eq_of_lt hlt, List.getElem?_append_left hlt]
  · have hlast : i + 1 = (first :: path).length := by omega
    rw [hlast, Nat.mod_self, List.getElem?_append_right (Nat.le_refl _), Nat.sub_self]
    rfl

/-- Along the parents, from the first index of a path back to it. -/
theorem next_of_chain {first : Nat} {path : List Nat}
    (h : ((first :: path) ++ [first]).IsChain fun i j => p i = some j) (i k : Nat)
    (hk : (first :: path)[i]? = some k) :
    p k = (first :: path)[(i + 1) % (first :: path).length]? := by
  obtain ⟨hi, rfl⟩ := List.getElem?_eq_some_iff.mp hk
  have hnext : i + 1 < ((first :: path) ++ [first]).length := by simpa using hi
  have hstep := List.isChain_iff_getElem.mp h i hnext
  rw [List.getElem_append_left hi] at hstep
  rw [hstep, ← getElem?_turn hi, List.getElem?_eq_getElem hnext]

theorem next_rotate (h : ∀ (i k : Nat), l[i]? = some k → p k = l[(i + 1) % l.length]?) (n i k : Nat)
    (hk : (l.rotate n)[i]? = some k) : p k = (l.rotate n)[(i + 1) % (l.rotate n).length]? := by
  obtain ⟨hi, -⟩ := List.getElem?_eq_some_iff.mp hk
  rw [List.length_rotate] at hi ⊢
  rw [List.getElem?_rotate hi] at hk
  rw [List.getElem?_rotate (Nat.mod_lt _ (Nat.zero_lt_of_lt hi)), h _ k hk]
  congr 1
  rw [Nat.mod_add_mod, Nat.mod_add_mod]
  congr 1
  omega

/-- Going on from the first index, the list comes back to it. -/
theorem ListedCycle.isCycle (h : ListedCycle p l) : IsCycle p l := by
  obtain ⟨first, path, rfl⟩ := List.exists_cons_of_ne_nil h.ne_nil
  refine isCycle_of_chain h.nodup (List.isChain_iff_getElem.mpr fun i hi => ?_)
  have hlt : i < (first :: path).length := by simpa using hi
  rw [List.getElem_append_left hlt, h.next i _ (List.getElem?_eq_getElem hlt), ← getElem?_turn hlt,
    List.getElem?_eq_getElem hi]

/-- A cycle is listed in one way. -/
theorem ListedCycle.eq (h : ListedCycle p l) (h' : ListedCycle p l') {i : Nat} (hi : i ∈ l)
    (hi' : i ∈ l') : l = l' := by
  have hsame : ∀ j, j ∈ l ↔ j ∈ l' := fun j =>
    (h.isCycle.orbit i hi j).trans (h'.isCycle.orbit i hi' j).symm
  have hlength : l.length = l'.length :=
    ((List.perm_ext_iff_of_nodup h.nodup h'.nodup).mpr hsame).length_eq
  refine List.ext_getElem? fun n => ?_
  induction n with
  | zero =>
    obtain ⟨first, path, rfl⟩ := List.exists_cons_of_ne_nil h.ne_nil
    obtain ⟨first', path', rfl⟩ := List.exists_cons_of_ne_nil h'.ne_nil
    refine congrArg some (Nat.le_antisymm ?_ ?_)
    · exact h.earliest first rfl first' ((hsame first').mpr List.mem_cons_self)
    · exact h'.earliest first' rfl first ((hsame first).mp List.mem_cons_self)
  | succ n ih =>
    rcases Nat.lt_or_ge (n + 1) l.length with hlt | hge
    · obtain ⟨k, hk⟩ : ∃ k, l[n]? = some k := ⟨_, List.getElem?_eq_getElem (by omega)⟩
      have hnext := h.next n k hk
      rw [h'.next n k (ih ▸ hk), ← hlength, Nat.mod_eq_of_lt hlt] at hnext
      exact hnext.symm
    · rw [List.getElem?_eq_none hge, List.getElem?_eq_none (hlength ▸ hge)]

theorem listedCycle_of_chain {first : Nat} {path : List Nat} (hnodup : (first :: path).Nodup)
    (h : ((first :: path) ++ [first]).IsChain fun i j => p i = some j) :
    ListedCycle p (rotateToEarliest (first :: path)) := by
  unfold rotateToEarliest
  split
  · next hmin => simp at hmin
  · next earliest hmin =>
    obtain ⟨hmem, hle⟩ := List.min?_eq_some_iff.mp hmin
    refine ⟨by simp, List.nodup_rotate.mpr hnodup, next_rotate (next_of_chain h) _, ?_⟩
    intro head hhead i hi
    rw [List.head?_rotate (List.idxOf_lt_length_of_mem hmem),
      List.getElem?_idxOf hmem, Option.mem_some_iff] at hhead
    exact hhead ▸ hle i (List.mem_rotate.mp hi)

end Listed

/-! ## Turns of a walk -/

/-- A walk ends within a turn for each index that is not visited, and one more. -/
theorem walk_turns {parents : List (Option Nat)} {turns : Nat} {states : List Mark}
    (h : states.count .unvisited < turns) (path : List Nat) (current : Option Nat) :
    walk parents turns states path current =
      walk parents (states.count .unvisited + 1) states path current := by
  induction turns generalizing states path current with
  | zero => omega
  | succ turns ih =>
    rcases current with _ | i
    · rfl
    · rw [walk, walk]
      rcases hmark : states[i]? with _ | mark
      · rfl
      · cases mark with
        | visited => rfl
        | visiting => rfl
        | unvisited =>
          obtain ⟨hi, hget⟩ := List.getElem?_eq_some_iff.mp hmark
          have hpos : 0 < states.count .unvisited :=
            List.count_pos_iff.mpr (List.mem_of_getElem? hmark)
          have hcount : (states.set i .visiting).count .unvisited + 1 =
              states.count .unvisited := by
            simp only [List.count_set hi, hget, beq_self_eq_true, if_true, beq_iff_eq, reduceCtorEq,
              if_false]
            omega
          simp only []
          rw [ih (by omega), hcount]

/-! ## All listed cycles -/

section Found

variable {parents : List (Option Nat)}
  (hrange : ∀ i j, parentOf parents i = some j → j < parents.length)
include hrange

theorem listed_walkFrom {found : List Mark × List (List Nat)}
    (hfound : Found parents found.1 found.2) {start : Nat} (hstart : start < parents.length)
    (h : ∀ l ∈ found.2, ListedCycle (parentOf parents) l) :
    ∀ l ∈ (walkFrom parents found start).2, ListedCycle (parentOf parents) l := by
  unfold walkFrom
  split
  · exact h
  · obtain ⟨hends, -, -⟩ := walk_ends hrange (parents.length + 1)
      (.start hfound.length hfound.settled start) (by simpa using hstart) (by simp)
    intro l hl
    refine (List.mem_append.mp hl).elim (h l) fun hl => ?_
    cases hends with
    | root _ hcycle => simp [hcycle] at hl
    | visited _ _ hcycle => simp [hcycle] at hl
    | @cycle k pre rest hwalking hpath hcycle =>
      obtain ⟨hnodup, hchain⟩ := hwalking.closed hpath
      obtain rfl : l = rotateToEarliest (k :: rest) := by simpa [hcycle, eq_comm] using hl
      exact listedCycle_of_chain hnodup hchain

theorem listed_foldl {n : Nat} (hn : n ≤ parents.length) :
    ∀ l ∈ ((List.range n).foldl (walkFrom parents)
      (List.replicate parents.length .unvisited, [])).2, ListedCycle (parentOf parents) l := by
  induction n with
  | zero => simp
  | succ n ih =>
    rw [List.range_succ, List.foldl_append, List.foldl_cons, List.foldl_nil]
    exact listed_walkFrom hrange (found_foldl hrange (by omega) rfl).1 (by omega) (ih (by omega))

/-- The cycles are those of the parents, each from its first index. -/
theorem mem_findCycles {l : List Nat} : l ∈ findCycles parents ↔ ListedCycle (parentOf parents) l := by
  have hlisted : ∀ l ∈ findCycles parents, ListedCycle (parentOf parents) l := fun l hl =>
    listed_foldl hrange le_rfl l (mem_sortBy.mp hl)
  refine ⟨hlisted l, fun h => ?_⟩
  obtain ⟨i, hi⟩ := List.exists_mem_of_ne_nil l h.ne_nil
  obtain ⟨l', hl', hi'⟩ := exists_cycle_of_periodic hrange (h.isCycle.periodic i hi)
  rw [h.eq (hlisted l' hl') hi hi']
  exact hl'

/-- Each cycle is listed once, and their first indexes increase. -/
theorem findCycles_ordered : (findCycles parents).Pairwise fun l l' =>
    ∀ first ∈ l.head?, ∀ first' ∈ l'.head?, first < first' := by
  have hsorted := pairwise_sortBy (fun l : List Nat => l.head?.getD (2 ^ 64 - 1))
    ((List.range parents.length).foldl (walkFrom parents)
      (List.replicate parents.length .unvisited, [])).2
  refine (hsorted.and (findCycles_disjoint hrange)).imp fun {l l'} ⟨hle, hdisjoint⟩ => ?_
  intro first hfirst first' hfirst'
  have hle' : first ≤ first' := by
    simpa [KeyOrder, Option.mem_def.mp hfirst, Option.mem_def.mp hfirst'] using hle
  refine lt_of_le_of_ne hle' fun heq => ?_
  exact hdisjoint (List.mem_of_mem_head? hfirst) (heq ▸ List.mem_of_mem_head? hfirst')

end Found

/-! ## Reported issues -/

/-- The messages of a reported cycle. -/
def MessageSeriesTopologyIssue.cycleNodes {N : Type} [MessageSeriesNode N] :
    MessageSeriesTopologyIssue N → Option (List N)
  | .cycle nodes => some nodes
  | _ => none

/-- The message whose parent is reported as missing. -/
def MessageSeriesTopologyIssue.unresolvedChild {N : Type} [MessageSeriesNode N] :
    MessageSeriesTopologyIssue N → Option N
  | .unresolvedParent child => some child
  | _ => none

/-- The cause of the message is not one of the messages. -/
def CauseMissing {N : Type} [MessageSeriesNode N] (nodes : List N) (child : N) : Prop :=
  ∃ id ∈ causationId child, ∀ node ∈ nodes, messageId node ≠ id

instance {N : Type} [MessageSeriesNode N] (nodes : List N) : DecidablePred (CauseMissing nodes) :=
  fun child => inferInstanceAs
    (Decidable (∃ id ∈ causationId child, ∀ node ∈ nodes, messageId node ≠ id))

namespace MessageSeries

variable {N : Type} [MessageSeriesNode N] (s : MessageSeries N)

theorem cycleNodes_topologyIssues : s.topologyIssues.filterMap (·.cycleNodes) =
    (findCycles s.parentIndexes).map fun cycle => cycle.filterMap (s.nodes[·]?) := by
  have hlinks : (s.nodes.filterMap s.linkIssue).filterMap (·.cycleNodes) = [] := by
    refine List.filterMap_eq_nil_iff.mpr fun issue hissue => ?_
    obtain ⟨child, -, hchild⟩ := List.mem_filterMap.mp hissue
    unfold linkIssue at hchild
    repeat' split at hchild
    all_goals first | cases hchild; rfl | cases hchild
  rw [topologyIssues, List.filterMap_append, hlinks, List.nil_append, List.filterMap_map]
  exact congrFun List.filterMap_eq_map _

theorem unresolvedChild_linkIssue (child : N) : (s.linkIssue child).bind (·.unresolvedChild) =
    if CauseMissing s.nodes child then some child else none := by
  split
  · next h =>
    obtain ⟨id, hid, hmissing⟩ := h
    rw [linkIssue, Option.mem_def.mp hid]
    simp only [s.indexOf?_eq_none.mpr hmissing]
    rfl
  · next h =>
    unfold linkIssue
    rcases hcause : causationId child with _ | id
    · rfl
    · rcases hindex : s.indexOf? id with _ | i
      · exact absurd ⟨id, hcause, s.indexOf?_eq_none.mp hindex⟩ h
      · obtain ⟨parent, hi, -⟩ := s.indexOf?_eq_some.mp hindex
        simp only [hindex, hi]
        split <;> rfl

theorem unresolvedChild_topologyIssues : s.topologyIssues.filterMap (·.unresolvedChild) =
    s.nodes.filter (CauseMissing s.nodes) := by
  have hcycles : ((findCycles s.parentIndexes).map fun cycle =>
      MessageSeriesTopologyIssue.cycle (cycle.filterMap (s.nodes[·]?))).filterMap
        (·.unresolvedChild) = [] := by
    rw [List.filterMap_map]
    exact List.filterMap_eq_nil_iff.mpr fun _ _ => rfl
  rw [topologyIssues, List.filterMap_append, hcycles, List.append_nil, List.filterMap_filterMap]
  simp only [s.unresolvedChild_linkIssue]
  rw [← List.filterMap_eq_filter]
  refine List.filterMap_congr fun child _ => ?_
  simp [Option.guard]

/-- The messages of the reported cycles are those that cause themselves. -/
theorem mem_cycleNodes (node : N) :
    (∃ members ∈ s.topologyIssues.filterMap (·.cycleNodes), node ∈ members) ↔
      Relation.TransGen (CausedBy s.nodes) node node := by
  rw [s.cycleNodes_topologyIssues]
  simp only [List.mem_map, exists_exists_and_eq_and, List.mem_filterMap]
  constructor
  · rintro ⟨cycle, hcycle, i, hi, hnode⟩
    have hper := (findCycles_isCycle s.parentIndexes_lt cycle hcycle).periodic i hi
    exact (s.periodic_parentIndexes hnode).mp hper
  · intro h
    obtain ⟨parent, hfirst, -⟩ := Relation.TransGen.head'_iff.mp h
    obtain ⟨i, hi⟩ := List.mem_iff_getElem?.mp hfirst.1
    obtain ⟨cycle, hcycle, hmem⟩ := exists_cycle_of_periodic s.parentIndexes_lt
      ((s.periodic_parentIndexes hi).mpr h)
    exact ⟨cycle, hcycle, i, hmem, hi⟩

/-- What `topology_issues` reports of the cycles and of missing parents. -/
theorem topology_issues_exact :
    (∀ i j, parentOf s.parentIndexes i = some j ↔ ∃ child parent, s.nodes[i]? = some child ∧
      s.nodes[j]? = some parent ∧ CausedBy s.nodes child parent) ∧
    (∀ turns states path current, states.length = s.nodes.length → states.length < turns →
      walk s.parentIndexes turns states path current =
        walk s.parentIndexes (s.nodes.length + 1) states path current) ∧
    (∀ cycle, cycle ∈ findCycles s.parentIndexes ↔
      ListedCycle (parentOf s.parentIndexes) cycle) ∧
    (findCycles s.parentIndexes).Pairwise (fun cycle cycle' =>
      ∀ first ∈ cycle.head?, ∀ first' ∈ cycle'.head?, first < first') ∧
    s.topologyIssues.filterMap (·.cycleNodes) =
      (findCycles s.parentIndexes).map (fun cycle => cycle.filterMap (s.nodes[·]?)) ∧
    (∀ node, (∃ members ∈ s.topologyIssues.filterMap (·.cycleNodes), node ∈ members) ↔
      Relation.TransGen (CausedBy s.nodes) node node) ∧
    s.topologyIssues.filterMap (·.unresolvedChild) = s.nodes.filter (CauseMissing s.nodes) := by
  refine ⟨fun i j => ?_, fun turns states path current hlength hturns => ?_,
    fun cycle => mem_findCycles s.parentIndexes_lt, findCycles_ordered s.parentIndexes_lt,
    s.cycleNodes_topologyIssues, s.mem_cycleNodes, s.unresolvedChild_topologyIssues⟩
  · rw [s.parentOf_parentIndexes]
    constructor
    · rintro ⟨child, parent, hi, hj, hcause⟩
      exact ⟨child, parent, hi, hj, List.mem_of_getElem? hi, List.mem_of_getElem? hj, hcause⟩
    · rintro ⟨child, parent, hi, hj, hcaused⟩
      exact ⟨child, parent, hi, hj, hcaused.2.2⟩
  · have hcount : states.count .unvisited ≤ states.length := List.count_le_length
    rw [@walk_turns _ turns _ (by omega), @walk_turns _ (s.nodes.length + 1) _ (by omega)]

end MessageSeries

end Rostfrei.Messaging
