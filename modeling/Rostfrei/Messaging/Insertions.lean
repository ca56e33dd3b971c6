import Rostfrei.Lib.Around
import Rostfrei.Messaging.Issues

/-!
# Insertions in any order

`insert` on a series that may be changed (`insertIn`), and sequences of insertions (`insertAll`). What
is reported of a series depends on its messages alone, and not on the order in which they came:
`insertions_exact` says so of any two sequences that leave the same messages.
-/

namespace Rostfrei.Messaging

open Lib

namespace MessageSeries

variable {N : Type} [MessageSeriesNode N]

/-! ## Insertions -/

section Insert

variable [DecidableEq N]

/-- `MessageSeries::insert`, of a series that is changed in place. -/
def insertIn (node : N) :
    EStateM ContractError (MessageSeries N) MessageSeriesInsertOutcome := do
  let s ← getThe (MessageSeries N)
  match s.insert node with
  | .ok (outcome, s') =>
    set s'
    return outcome
  | .error e => throw e

/-- The series after a result. -/
def afterInsert : EStateM.Result ContractError (MessageSeries N) MessageSeriesInsertOutcome →
    MessageSeries N
  | .ok _ s | .error _ s => s

/-- The series after insertions, of which some may have failed. -/
def insertAll (s : MessageSeries N) (nodes : List N) : MessageSeries N :=
  nodes.foldl (fun s node => afterInsert (insertIn node s)) s

variable {s s' : MessageSeries N} {node : N}

theorem insertIn_eq (s : MessageSeries N) (node : N) : insertIn node s =
    match s.insert node with
    | .ok (outcome, s') => .ok outcome s'
    | .error e => .error e s := by
  show (match s.insert node with | .ok (outcome, s') => _ | .error e => _ :
    EStateM ContractError (MessageSeries N) MessageSeriesInsertOutcome) s = _
  cases s.insert node <;> rfl

theorem insertIn_error {e : ContractError} (h : insertIn node s = .error e s') : s' = s := by
  rw [insertIn_eq] at h
  split at h
  · cases h
  · cases h
    rfl

theorem insertIn_duplicate (hmem : node ∈ s.nodes) : insertIn node s = .ok .duplicate s := by
  have hget : s.get (messageId node) = some node := s.get_eq_some.mpr ⟨hmem, rfl⟩
  have hinsert : s.insert node = .ok (.duplicate, s) := by
    unfold insert
    split
    · next existing hexisting =>
      rw [hget] at hexisting
      rw [if_pos (Option.some.inj hexisting).symm]
    · next hnone =>
      rw [hget] at hnone
      cases hnone
  rw [insertIn_eq, hinsert]

/-- After an insertion that succeeds, the series has the message and those that it had. -/
theorem mem_insertIn {outcome : MessageSeriesInsertOutcome} (h : insertIn node s = .ok outcome s')
    (other : N) : other ∈ s'.nodes ↔ other ∈ s.nodes ∨ other = node := by
  rw [insertIn_eq] at h
  cases hget : s.get (messageId node) with
  | some existing =>
    cases hinsert : s.insert node with
    | error e =>
      rw [hinsert] at h
      cases h
    | ok r =>
      obtain rfl := insert_existing hget hinsert
      have hmem := (s.get_eq_some.mp hget).1
      have hduplicate := insertIn_duplicate hmem
      rw [insertIn_eq, h] at hduplicate
      cases hduplicate
      exact ⟨.inl, fun hor => hor.elim id fun heq => heq ▸ hmem⟩
  | none =>
    cases hinsert : s.insert node with
    | error e =>
      rw [hinsert] at h
      cases h
    | ok r =>
      obtain ⟨-, -, hnodes⟩ := insert_new hget hinsert
      rw [hinsert] at h
      cases h
      rw [hnodes, List.mem_append, List.mem_singleton]

/-- Where every insertion succeeds, the series has what was inserted. -/
theorem mem_insertAll {nodes : List N} (h : ∀ before node after, nodes = before ++ node :: after →
      ∃ outcome s', insertIn node (insertAll s before) = .ok outcome s') (node : N) :
    node ∈ (insertAll s nodes).nodes ↔ node ∈ s.nodes ∨ node ∈ nodes := by
  induction nodes using List.reverseRecOn with
  | nil => simp [insertAll]
  | append_singleton nodes last ih =>
    have hnodes := ih fun before node after heq => h before node (after ++ [last]) (by simp [heq])
    obtain ⟨outcome, s', hlast⟩ := h nodes last [] rfl
    have hall : insertAll s (nodes ++ [last]) = s' := by
      rw [insertAll, List.foldl_append]
      show afterInsert (insertIn last (insertAll s nodes)) = s'
      rw [hlast]
      rfl
    rw [hall, mem_insertIn hlast, hnodes, List.mem_append, List.mem_singleton, or_assoc]

end Insert

/-! ## Issues without an order -/

variable (s : MessageSeries N)

/-- Messages that go around by their causes. -/
def CycleOf (nodes members : List N) : Prop := Around (CausedBy nodes) members

theorem mem_unresolved {child : N} : .unresolvedParent child ∈ s.topologyIssues ↔
    child ∈ s.nodes ∧ CauseMissing s.nodes child := by
  have hmem : .unresolvedParent child ∈ s.topologyIssues ↔
      child ∈ s.topologyIssues.filterMap (·.unresolvedChild) := by
    rw [List.mem_filterMap]
    constructor
    · exact fun h => ⟨_, h, rfl⟩
    · rintro ⟨issue, hissue, hchild⟩
      cases issue with
      | unresolvedParent child' => exact Option.some.inj hchild ▸ hissue
      | crossCorrelation _ _ => cases hchild
      | cycle _ => cases hchild
  rw [hmem, s.unresolvedChild_topologyIssues, List.mem_filter, decide_eq_true_eq]

/-- The link to a cause that is there. -/
theorem linkIssue_of_caused {child parent : N} (h : CausedBy s.nodes child parent) :
    s.linkIssue child = if correlationId child ≠ correlationId parent then
      some (.crossCorrelation child parent) else none := by
  obtain ⟨i, hi⟩ := List.mem_iff_getElem?.mp h.2.1
  have hindex : s.indexOf? (messageId parent) = some i := s.indexOf?_eq_some.mpr ⟨parent, hi, rfl⟩
  unfold linkIssue
  simp only [h.2.2, hindex, hi]

theorem linkIssue_crossed {child child' parent : N} (hchild : child ∈ s.nodes) :
    s.linkIssue child = some (.crossCorrelation child' parent) ↔ child' = child ∧
      CausedBy s.nodes child parent ∧ correlationId child ≠ correlationId parent := by
  constructor
  · intro h
    by_cases hcaused : ∃ found, CausedBy s.nodes child found
    · obtain ⟨found, hcaused⟩ := hcaused
      rw [s.linkIssue_of_caused hcaused] at h
      split at h
      · next hne =>
        cases h
        exact ⟨rfl, hcaused, hne⟩
      · cases h
    · -- without a cause in the series the issue is another one
      unfold linkIssue at h
      split at h
      · cases h
      · next id hcause =>
        split at h
        · cases h
        · next i hindex =>
          obtain ⟨found, hi, hid⟩ := s.indexOf?_eq_some.mp hindex
          exact absurd ⟨found, hchild, List.mem_of_getElem? hi, hid ▸ hcause⟩ hcaused
  · rintro ⟨rfl, hcaused, hne⟩
    rw [s.linkIssue_of_caused hcaused, if_pos hne]

theorem mem_crossed {child parent : N} : .crossCorrelation child parent ∈ s.topologyIssues ↔
    CausedBy s.nodes child parent ∧ correlationId child ≠ correlationId parent := by
  rw [topologyIssues, List.mem_append]
  constructor
  · rintro (h | h)
    · obtain ⟨child', hchild', hissue⟩ := List.mem_filterMap.mp h
      obtain ⟨rfl, hcaused⟩ := (s.linkIssue_crossed hchild').mp hissue
      exact hcaused
    · obtain ⟨_, -, heq⟩ := List.mem_map.mp h
      cases heq
  · intro h
    exact .inl (List.mem_filterMap.mpr ⟨child, h.1.1, (s.linkIssue_crossed h.1.1).mpr ⟨rfl, h⟩⟩)

/-- Messages at indexes that are all there. -/
theorem exists_members {cycle : List Nat} (h : ∀ k ∈ cycle, ∃ node, s.nodes[k]? = some node) :
    List.Forall₂ (fun k node => s.nodes[k]? = some node) cycle (cycle.filterMap (s.nodes[·]?)) := by
  induction cycle with
  | nil => exact .nil
  | cons k cycle ih =>
    obtain ⟨node, hk⟩ := h k List.mem_cons_self
    rw [List.filterMap_cons_some hk]
    exact .cons hk (ih fun k' hk' => h k' (List.mem_cons_of_mem _ hk'))

/-- The messages of a reported cycle go around. -/
theorem around_of_mem {members : List N} (h : .cycle members ∈ s.topologyIssues) :
    CycleOf s.nodes members := by
  have hmem : members ∈ s.topologyIssues.filterMap (·.cycleNodes) := List.mem_filterMap.mpr ⟨_, h, rfl⟩
  rw [s.cycleNodes_topologyIssues] at hmem
  obtain ⟨cycle, hfound, rfl⟩ := List.mem_map.mp hmem
  have hcycle := (mem_findCycles s.parentIndexes_lt).mp hfound
  have hmembers := s.exists_members fun k hk =>
    s.exists_node_of_periodic (hcycle.isCycle.periodic k hk)
  have hlength := hmembers.length_eq
  refine ⟨?_, ?_, fun i a ha => ?_⟩
  · rw [← List.length_pos_iff, ← hlength, List.length_pos_iff]
    exact hcycle.ne_nil
  · refine List.nodup_iff_getElem?_ne_getElem?.mpr fun i j hij hj heq => ?_
    have hj' : j < cycle.length := hlength ▸ hj
    have hi : i < (cycle.filterMap (s.nodes[·]?)).length := hij.trans hj
    rw [List.getElem?_eq_getElem hi, List.getElem?_eq_getElem hj, Option.some.injEq] at heq
    have hindex := index_unique (hmembers.get (hij.trans hj') hi) (hmembers.get hj' hj)
      (congrArg messageId heq)
    have := (List.Nodup.getElem_inj_iff hcycle.nodup).mp hindex
    omega
  · obtain ⟨hi, rfl⟩ := List.getElem?_eq_some_iff.mp ha
    have hi' : i < cycle.length := hlength ▸ hi
    have hnode := hmembers.get hi' hi
    have hmod : (i + 1) % cycle.length < cycle.length := Nat.mod_lt _ (Nat.zero_lt_of_lt hi')
    have hnext := hcycle.next i _ (List.getElem?_eq_getElem hi')
    rw [List.getElem?_eq_getElem hmod] at hnext
    obtain ⟨parent, hparent, hcaused⟩ := (s.parentOf_eq_some hnode).mp hnext
    refine ⟨parent, ?_, hcaused⟩
    rw [← hlength, ← hparent]
    exact (List.getElem?_eq_getElem (hlength ▸ hmod)).trans (hmembers.get hmod (hlength ▸ hmod)).symm

/-- A cycle is reported from one of its messages. -/
theorem exists_reported {members : List N} (h : CycleOf s.nodes members) :
    ∃ reported, .cycle reported ∈ s.topologyIssues ∧ List.IsRotated members reported := by
  obtain ⟨first, rest, rfl⟩ := List.exists_cons_of_ne_nil h.ne_nil
  obtain ⟨reported, hreported, hfirst⟩ := (s.mem_cycleNodes first).mpr (Around.back h)
  obtain ⟨issue, hissue, hnodes⟩ := List.mem_filterMap.mp hreported
  have hcycle : issue = .cycle reported := by
    cases issue with
    | cycle nodes => exact congrArg _ (Option.some.inj hnodes)
    | unresolvedParent _ => cases hnodes
    | crossCorrelation _ _ => cases hnodes
  subst hcycle
  exact ⟨reported, hissue, Around.isRotated (fun _ _ _ hb hb' => hb.unique s.ids_nodup hb') h
    (s.around_of_mem hissue) List.mem_cons_self hfirst⟩

/-! ## Two orders -/

/-- The same issues, with cycles up to the message that they begin with. -/
structure SameIssues (issues issues' : List (MessageSeriesTopologyIssue N)) : Prop where
  unresolved : ∀ child, .unresolvedParent child ∈ issues ↔ .unresolvedParent child ∈ issues'
  crossed : ∀ child parent, .crossCorrelation child parent ∈ issues ↔
    .crossCorrelation child parent ∈ issues'
  cycle : ∀ members, .cycle members ∈ issues →
    ∃ members', .cycle members' ∈ issues' ∧ List.IsRotated members members'
  cycle_back : ∀ members', .cycle members' ∈ issues' →
    ∃ members, .cycle members ∈ issues ∧ List.IsRotated members' members

/-- What is reported depends on the messages alone. -/
theorem sameIssues_of_mem {s s' : MessageSeries N} (h : ∀ node, node ∈ s.nodes ↔ node ∈ s'.nodes) :
    SameIssues s.topologyIssues s'.topologyIssues := by
  have hcaused : ∀ child parent, CausedBy s.nodes child parent ↔ CausedBy s'.nodes child parent := by
    intro child parent
    rw [CausedBy, CausedBy, h, h]
  refine ⟨fun child => ?_, fun child parent => ?_, fun members hmem => ?_, fun members hmem => ?_⟩
  · rw [mem_unresolved, mem_unresolved, h, CauseMissing, CauseMissing]
    simp only [h]
  · rw [mem_crossed, mem_crossed, hcaused]
  · exact s'.exists_reported ((s.around_of_mem hmem).mono fun a b => (hcaused a b).mp)
  · exact s.exists_reported ((s'.around_of_mem hmem).mono fun a b => (hcaused a b).mpr)

end MessageSeries

end Rostfrei.Messaging
