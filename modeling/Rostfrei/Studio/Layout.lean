import Rostfrei.Lib.Cycles
import Rostfrei.Lib.Fallible
import Rostfrei.Studio.Graph

/-!
# Where nodes are placed

`Inv` is what holds between two placings: the placed nodes are those that are not pending, no two of
them share a lane of a depth, and each stands where its parent sends it (`Stands`) or broke a cycle.
A node breaks a cycle (`Breaks`) if it leads into one and comes before all nodes that it leads to.

`layoutMessageGraph_exact`: the layout has every node once, in the order of the input, and in a lane of
its own; a node is one depth to the right of its parent, unless it breaks a cycle, and one node of every
cycle does. A node that hangs off a cycle can break it too, without being on it
(`layoutMessageGraph_tail_root`).
-/

namespace Rostfrei.Studio

open Lib Relation

/-! ## Free lanes -/

theorem freeAt_notMem {preferred lane : Int} {occupied : Finset Int} {distance : Nat}
    (h : freeAt preferred occupied distance = some lane) : lane ∉ occupied := by
  rw [freeAt] at h
  split at h
  next hfree => exact Option.some.inj h ▸ hfree
  next =>
    rw [Option.ite_none_right_eq_some] at h
    exact Option.some.inj h.2 ▸ h.1

/-- One more lane to a side than there are occupied ones cannot all be occupied. -/
theorem nearestFreeLane_notMem (preferred : Int) (occupied : Finset Int) :
    nearestFreeLane preferred occupied ∉ occupied := by
  rw [nearestFreeLane]
  split
  next hfree => exact hfree
  next =>
    cases hfound : (List.range' 1 (occupied.card + 1)).findSome? (freeAt preferred occupied) with
    | some lane =>
      obtain ⟨distance, -, hlane⟩ := List.exists_of_findSome?_eq_some hfound
      exact freeAt_notMem hlane
    | none =>
      have hall : ∀ distance ∈ List.range' 1 (occupied.card + 1),
          preferred + (distance : Int) ∈ occupied := by
        intro distance hdistance
        have hnone := List.findSome?_eq_none_iff.mp hfound distance hdistance
        by_contra hfree
        rw [freeAt, if_pos hfree] at hnone
        cases hnone
      have hmaps : ∀ k ∈ Finset.range (occupied.card + 1),
          preferred + ((k + 1 : Nat) : Int) ∈ occupied := by
        intro k hk
        refine hall (k + 1) (List.mem_range'_1.mpr ?_)
        rw [Finset.mem_range] at hk
        omega
      have hcard := Finset.card_le_card_of_injOn (fun k : Nat => preferred + ((k + 1 : Nat) : Int))
        hmaps (fun k _ k' _ heq => by simpa using heq)
      rw [Finset.card_range] at hcard
      omega

/-! ## Parents -/

section Layout

variable {nodes : List MessageGraphNode}

/-- The parent of a node is one of the nodes. -/
def Parent (nodes : List MessageGraphNode) (n p : MessageGraphNode) : Prop :=
  p ∈ nodes ∧ n.parentLink = some p.id

/-- A node that leads into a cycle and comes before every node that it leads to. -/
def Breaks (nodes : List MessageGraphNode) (n : MessageGraphNode) : Prop :=
  LeadsToCycle (Parent nodes) n ∧
    ∀ m, TransGen (Parent nodes) n m → nodes.idxOf n ≤ nodes.idxOf m

theorem eq_of_id (hdistinct : (nodes.map (·.id)).Nodup) {n m : MessageGraphNode} (hn : n ∈ nodes)
    (hm : m ∈ nodes) (h : n.id = m.id) : n = m :=
  List.inj_on_of_nodup_map hdistinct hn hm h

theorem parent_unique (hdistinct : (nodes.map (·.id)).Nodup) {n p p' : MessageGraphNode}
    (h : Parent nodes n p) (h' : Parent nodes n p') : p = p' :=
  eq_of_id hdistinct h.1 h'.1 (Option.some.inj (h.2.symm.trans h'.2))

/-- Where a placed node stands: to the right of its parent, or as a root. -/
inductive Stands (nodes : List MessageGraphNode) (s : Placement) (p : PositionedNode) : Prop where
  | right (q : PositionedNode) (positioned : s.positioned q.node.id = some q)
      (parent : Parent nodes p.node q.node) (depth : p.depth = q.depth + 1)
      (x : p.x = q.x + (if q.node.context then fixtureWidth else messageWidth) + horizontalGap)
      (kept : ¬ Breaks nodes p.node)
  | root (none : ∀ m, ¬ Parent nodes p.node m) (depth : p.depth = 0)
  | broken (parent : ∃ m, Parent nodes p.node m) (breaks : Breaks nodes p.node) (depth : p.depth = 0)

/-- What holds between two placings. -/
structure Inv (nodes : List MessageGraphNode) (s : Placement) (pending : List MessageGraphNode) :
    Prop where
  sublist : pending.Sublist nodes
  placed : ∀ n ∈ nodes, n ∉ pending → ∃ p, s.positioned n.id = some p
  node : ∀ {id p}, s.positioned id = some p → p.node ∈ nodes ∧ p.node.id = id ∧ p.node ∉ pending
  occupied : ∀ {id p}, s.positioned id = some p → p.lane ∈ s.occupiedByDepth p.depth
  lanes : ∀ {id id' p q}, s.positioned id = some p → s.positioned id' = some q →
    p.depth = q.depth → p.lane = q.lane → id = id'
  stands : ∀ {id p}, s.positioned id = some p → Stands nodes s p
  /-- A placed node leads to one that was placed when all that are pending now came after it. -/
  before : ∀ {id p}, s.positioned id = some p → LeadsToCycle (Parent nodes) p.node →
    ∃ f, ReflTransGen (Parent nodes) p.node f ∧ ∀ m ∈ pending, nodes.idxOf f < nodes.idxOf m

theorem Inv.empty (nodes : List MessageGraphNode) : Inv nodes .empty nodes where
  sublist := .refl nodes
  placed n hn hnot := absurd hn hnot
  node h := by cases h
  occupied h := by cases h
  lanes h := by cases h
  stands h := by cases h
  before h := by cases h

namespace Placement

/-- The node that `place` puts. -/
def put (s : Placement) (node : MessageGraphNode) : PositionedNode :=
  let depth := match s.parent node with
    | some parent => parent.depth + 1
    | none => 0
  let preferredLane := match s.parent node with
    | some parent => parent.lane + siblingLaneOffset (s.childCount parent.node.id)
    | none => rootLane s.rootCount
  let lane := nearestFreeLane preferredLane (s.occupiedByDepth depth)
  let x := match s.parent node with
    | some parent => parent.x + (if parent.node.context then fixtureWidth else messageWidth) +
        horizontalGap
    | none => 0
  ⟨node, depth, lane, x, lane * laneGap⟩

@[simp] theorem put_node (s : Placement) (node : MessageGraphNode) : (s.put node).node = node := rfl

theorem put_lane_notMem (s : Placement) (node : MessageGraphNode) :
    (s.put node).lane ∉ s.occupiedByDepth (s.put node).depth :=
  nearestFreeLane_notMem _ _

theorem positioned_place (s : Placement) (node : MessageGraphNode) :
    (s.place node).positioned = Function.update s.positioned node.id (some (s.put node)) := rfl

theorem occupied_place (s : Placement) (node : MessageGraphNode) :
    (s.place node).occupiedByDepth = Function.update s.occupiedByDepth (s.put node).depth
      (insert (s.put node).lane (s.occupiedByDepth (s.put node).depth)) := rfl

/-- What is placed is the new node or was there before. -/
theorem positioned_place_cases {s : Placement} {node : MessageGraphNode} {id : String}
    {p : PositionedNode} (h : (s.place node).positioned id = some p) :
    (id = node.id ∧ p = s.put node) ∨ (id ≠ node.id ∧ s.positioned id = some p) := by
  rw [positioned_place] at h
  by_cases hid : id = node.id
  · subst hid
    rw [Function.update_self] at h
    exact .inl ⟨rfl, (Option.some.inj h).symm⟩
  · rw [Function.update_of_ne hid] at h
    exact .inr ⟨hid, h⟩

end Placement

/-! ## One placing -/

/-- The nodes in their order: a pending node comes after those before it. -/
theorem pairwise_idxOf (hdistinct : (nodes.map (·.id)).Nodup) {pending : List MessageGraphNode}
    (h : pending.Sublist nodes) : pending.Pairwise fun n m => nodes.idxOf n < nodes.idxOf m := by
  refine List.Pairwise.sublist h (List.pairwise_iff_getElem.mpr fun i j hi hj hlt => ?_)
  rw [hdistinct.of_map.idxOf_getElem i hi, hdistinct.of_map.idxOf_getElem j hj]
  exact hlt

theorem Stands.mono {s s' : Placement} {p : PositionedNode} (h : Stands nodes s p)
    (hkeep : ∀ {id q}, s.positioned id = some q → s'.positioned id = some q) : Stands nodes s' p := by
  cases h with
  | right q hq hparent hdepth hx hkept => exact .right q (hkeep hq) hparent hdepth hx hkept
  | root hnone hdepth => exact .root hnone hdepth
  | broken hparent hbreaks hdepth => exact .broken hparent hbreaks hdepth

section Step

variable {s : Placement} {before after : List MessageGraphNode} {node : MessageGraphNode}

/-- Placed nodes stay where they are. -/
theorem Inv.keep (hinv : Inv nodes s (before ++ node :: after)) (hdistinct : (nodes.map (·.id)).Nodup)
    {id : String} {q : PositionedNode} (hq : s.positioned id = some q) :
    id ≠ node.id ∧ (s.place node).positioned id = some q := by
  have hne : id ≠ node.id := by
    rintro rfl
    obtain ⟨hmem, hid, hnot⟩ := hinv.node hq
    have hnode : node ∈ nodes := hinv.sublist.subset (by simp)
    rw [eq_of_id hdistinct hmem hnode hid] at hnot
    exact hnot (by simp)
  exact ⟨hne, by rw [Placement.positioned_place, Function.update_of_ne hne, hq]⟩

/-- Placing a pending node keeps the invariant, if the node stands where it should. -/
theorem Inv.place (hinv : Inv nodes s (before ++ node :: after))
    (hdistinct : (nodes.map (·.id)).Nodup) (hstands : Stands nodes s (s.put node))
    (hbefore : LeadsToCycle (Parent nodes) node → ∃ f, ReflTransGen (Parent nodes) node f ∧
      ∀ m ∈ before ++ after, nodes.idxOf f < nodes.idxOf m) :
    Inv nodes (s.place node) (before ++ after) := by
  have hmem : node ∈ nodes := hinv.sublist.subset (by simp)
  have hfewer : ∀ m ∈ before ++ after, m ∈ before ++ node :: after := by
    intro m hm
    rcases List.mem_append.mp hm with hm | hm <;> simp [hm]
  have hnot : node ∉ before ++ after := by
    have hnodup := hinv.sublist.nodup hdistinct.of_map
    rw [List.nodup_append] at hnodup
    obtain ⟨-, hafter, hdisjoint⟩ := hnodup
    rw [List.mem_append]
    rintro (hin | hin)
    · exact hdisjoint node hin node List.mem_cons_self rfl
    · exact (List.nodup_cons.mp hafter).1 hin
  have hkeep : ∀ {id q}, s.positioned id = some q → (s.place node).positioned id = some q :=
    fun hq => (hinv.keep hdistinct hq).2
  refine ⟨?_, ?_, ?_, ?_, ?_, ?_, ?_⟩
  · exact .trans (.append_left (List.sublist_cons_self node after) before) hinv.sublist
  · intro n hn hpending
    by_cases heq : n = node
    · exact ⟨s.put node, by rw [heq, Placement.positioned_place, Function.update_self]⟩
    · obtain ⟨p, hp⟩ := hinv.placed n hn fun hin => by
        rcases List.mem_append.mp hin with hin | hin
        · exact hpending (List.mem_append_left _ hin)
        · exact hpending (List.mem_append_right _ ((List.mem_cons.mp hin).resolve_left heq))
      exact ⟨p, hkeep hp⟩
  · intro id p hp
    rcases Placement.positioned_place_cases hp with ⟨rfl, rfl⟩ | ⟨-, hp⟩
    · exact ⟨hmem, rfl, hnot⟩
    · obtain ⟨hp, hid, hpending⟩ := hinv.node hp
      exact ⟨hp, hid, fun hin => hpending (hfewer _ hin)⟩
  · intro id p hp
    rw [Placement.occupied_place]
    rcases Placement.positioned_place_cases hp with ⟨rfl, rfl⟩ | ⟨-, hp⟩
    · rw [Function.update_self]
      exact Finset.mem_insert_self _ _
    · have hlane := hinv.occupied hp
      by_cases hdepth : p.depth = (s.put node).depth
      · rw [hdepth] at hlane ⊢
        rw [Function.update_self]
        exact Finset.mem_insert_of_mem hlane
      · rw [Function.update_of_ne hdepth]
        exact hlane
  · -- a new node stands in a lane that was free
    have hnew : ∀ {id p}, s.positioned id = some p → p.depth = (s.put node).depth →
        p.lane ≠ (s.put node).lane := by
      intro id p hp hdepth hlane
      have hoccupied := hinv.occupied hp
      rw [hdepth, hlane] at hoccupied
      exact s.put_lane_notMem node hoccupied
    intro id id' p q hp hq hdepth hlane
    rcases Placement.positioned_place_cases hp with ⟨rfl, rfl⟩ | ⟨-, hp⟩ <;>
      rcases Placement.positioned_place_cases hq with ⟨rfl, rfl⟩ | ⟨-, hq⟩
    · rfl
    · exact absurd hlane.symm (hnew hq hdepth.symm)
    · exact absurd hlane (hnew hp hdepth)
    · exact hinv.lanes hp hq hdepth hlane
  · intro id p hp
    rcases Placement.positioned_place_cases hp with ⟨rfl, rfl⟩ | ⟨-, hp⟩
    · exact hstands.mono hkeep
    · exact (hinv.stands hp).mono hkeep
  · intro id p hp hleads
    rcases Placement.positioned_place_cases hp with ⟨rfl, rfl⟩ | ⟨-, hp⟩
    · exact hbefore hleads
    · obtain ⟨f, hf, hlater⟩ := hinv.before hp hleads
      exact ⟨f, hf, fun m hm => hlater m (hfewer m hm)⟩

/-- A ready node is placed. -/
theorem Inv.place_ready (hinv : Inv nodes s (before ++ node :: after))
    (hdistinct : (nodes.map (·.id)).Nodup) (hready : s.ready (nodes.map (·.id)) node = true) :
    Inv nodes (s.place node) (before ++ after) := by
  have hunique : ∀ {n p p'}, Parent nodes n p → Parent nodes n p' → p = p' := parent_unique hdistinct
  cases hparent : s.parent node with
  | some q =>
    obtain ⟨id, hlink, hq⟩ := Option.bind_eq_some_iff.mp hparent
    obtain ⟨hqmem, hqid, -⟩ := hinv.node hq
    have hstep : Parent nodes node q.node := ⟨hqmem, hqid ▸ hlink⟩
    have hearlier : LeadsToCycle (Parent nodes) node → ∃ f, ReflTransGen (Parent nodes) q.node f ∧
        ∀ m ∈ before ++ node :: after, nodes.idxOf f < nodes.idxOf m :=
      fun hleads => hinv.before hq (hleads.step hunique hstep)
    refine hinv.place hdistinct (.right q (hqid.symm ▸ hq) hstep ?_ ?_ ?_) fun hleads => ?_
    · simp [Placement.put, hparent]
    · simp [Placement.put, hparent]
    · rintro ⟨hleads, hfirst⟩
      obtain ⟨f, hf, hlater⟩ := hearlier hleads
      exact absurd (hlater node (by simp)) (Nat.not_lt.mpr (hfirst f (.head' hstep hf)))
    · obtain ⟨f, hf, hlater⟩ := hearlier hleads
      refine ⟨f, .head hstep hf, fun m hm => hlater m ?_⟩
      rcases List.mem_append.mp hm with hm | hm <;> simp [hm]
  | none =>
    have hnone : ∀ m, ¬ Parent nodes node m := by
      rintro m ⟨hm, hlink⟩
      rw [Placement.parent, hlink, Option.bind_some] at hparent
      have hids : m.id ∈ nodes.map (·.id) := List.mem_map_of_mem hm
      simp [Placement.ready, hlink, hparent] at hready
      exact hready m hm rfl
    refine hinv.place hdistinct (.root hnone ?_) fun hleads => ?_
    · simp [Placement.put, hparent]
    · obtain ⟨c, hc, -⟩ := hleads
      obtain ⟨m, hm, -⟩ := TransGen.head'_iff.mp hc
      exact absurd hm (hnone m)

/-- A blocked node waits for a pending one. -/
theorem Inv.blocked {pending : List MessageGraphNode} (hinv : Inv nodes s pending)
    {m : MessageGraphNode} (h : s.ready (nodes.map (·.id)) m = false) :
    ∃ m' ∈ pending, Parent nodes m m' := by
  rw [Placement.ready] at h
  split at h
  next => cases h
  next id hlink =>
    simp only [decide_eq_false_iff_not, not_or, not_not, Option.not_isSome_iff_eq_none] at h
    obtain ⟨hid, hnone⟩ := h
    obtain ⟨m', hm', rfl⟩ := List.mem_map.mp hid
    refine ⟨m', ?_, hm', hlink⟩
    by_contra hnot
    obtain ⟨p, hp⟩ := hinv.placed m' hm' hnot
    rw [hp] at hnone
    cases hnone

/-- If all pending nodes are blocked, the first of them breaks a cycle. -/
theorem Inv.place_blocked (hinv : Inv nodes s (node :: after))
    (hdistinct : (nodes.map (·.id)).Nodup)
    (hblocked : ∀ m ∈ node :: after, s.ready (nodes.map (·.id)) m = false) :
    Inv nodes (s.place node) after := by
  have hunique : ∀ {n p p'}, Parent nodes n p → Parent nodes n p' → p = p' := parent_unique hdistinct
  have hnext : ∀ m ∈ node :: after, ∃ m' ∈ node :: after, Parent nodes m m' :=
    fun m hm => hinv.blocked (hblocked m hm)
  have hleads : LeadsToCycle (Parent nodes) node :=
    exists_cycle (List.finite_toSet (node :: after)) hnext List.mem_cons_self
  have horder := List.pairwise_cons.mp (pairwise_idxOf hdistinct hinv.sublist)
  -- what a pending node leads to is pending
  have hclosed : ∀ {m}, TransGen (Parent nodes) node m → m ∈ node :: after := by
    intro m hm
    induction hm with
    | single hstep =>
      obtain ⟨m', hm', hstep'⟩ := hnext node List.mem_cons_self
      exact hunique hstep hstep' ▸ hm'
    | tail _ hstep ih =>
      obtain ⟨m', hm', hstep'⟩ := hnext _ ih
      exact hunique hstep hstep' ▸ hm'
  have hbreaks : Breaks nodes node := by
    refine ⟨hleads, fun m hm => ?_⟩
    rcases List.mem_cons.mp (hclosed hm) with rfl | hin
    · exact Nat.le_refl _
    · exact Nat.le_of_lt (horder.1 m hin)
  have hparent : s.parent node = none := by
    have hready := hblocked node List.mem_cons_self
    rw [Placement.ready] at hready
    rw [Placement.parent]
    split at hready
    next => cases hready
    next id hlink =>
      rw [hlink, Option.bind_some]
      simp only [decide_eq_false_iff_not, not_or, not_not, Option.not_isSome_iff_eq_none] at hready
      exact hready.2
  obtain ⟨m, -, hstep⟩ := hnext node List.mem_cons_self
  have hfirst : Inv nodes s ([] ++ node :: after) := hinv
  refine hfirst.place hdistinct (.broken ⟨m, hstep⟩ hbreaks ?_) fun _ => ⟨node, .refl, horder.1⟩
  simp [Placement.put, hparent]

end Step

/-! ## The passes -/

theorem Inv.pass (hdistinct : (nodes.map (·.id)).Nodup) {s : Placement}
    (before : List MessageGraphNode) {pending : List MessageGraphNode}
    (hinv : Inv nodes s (before ++ pending)) :
    Inv nodes (s.pass (nodes.map (·.id)) pending).placement
      (before ++ (s.pass (nodes.map (·.id)) pending).pending) := by
  induction pending generalizing s before with
  | nil => exact hinv
  | cons node pending ih =>
    rw [Placement.pass]
    split
    next hready => exact ih before (hinv.place_ready hdistinct hready)
    next =>
      have hrest : Inv nodes s ((before ++ [node]) ++ pending) := by simpa using hinv
      simpa using ih (before ++ [node]) hrest

/-- A pass that places no node changes nothing, and all nodes are blocked. -/
theorem pass_blocked {ids : List String} {s : Placement} {pending : List MessageGraphNode}
    (h : (s.pass ids pending).placedInPass = false) :
    (s.pass ids pending).placement = s ∧ (s.pass ids pending).pending = pending ∧
      ∀ m ∈ pending, s.ready ids m = false := by
  induction pending with
  | nil => exact ⟨rfl, rfl, by simp⟩
  | cons node pending ih =>
    rw [Placement.pass] at h ⊢
    split at h
    next => cases h
    next hready =>
      obtain ⟨hplacement, hpending, hrest⟩ := ih h
      rw [if_neg hready]
      exact ⟨hplacement, congrArg (node :: ·) hpending,
        List.forall_mem_cons.mpr ⟨Bool.not_eq_true _ ▸ hready, hrest⟩⟩

/-- The passes end with every node placed. -/
theorem Inv.placeAll (hdistinct : (nodes.map (·.id)).Nodup) {s : Placement}
    {pending : List MessageGraphNode} (hinv : Inv nodes s pending) :
    Inv nodes (s.placeAll (nodes.map (·.id)) pending) [] := by
  induction s, pending using Placement.placeAll.induct (nodes.map (·.id)) with
  | case1 s =>
    rw [Placement.placeAll, if_pos rfl]
    exact hinv
  | case2 s pending hne hplaced ih =>
    rw [Placement.placeAll, if_neg hne, if_pos hplaced]
    exact ih (hinv.pass hdistinct [])
  | case3 s pending hne hplaced hnil =>
    obtain ⟨-, hpending, -⟩ := pass_blocked (Bool.not_eq_true _ ▸ hplaced)
    exact absurd (hpending.symm.trans hnil) hne
  | case4 s pending hne hplaced node blocked hcons ih =>
    obtain ⟨hplacement, hpending, hblocked⟩ := pass_blocked (Bool.not_eq_true _ ▸ hplaced)
    rw [hcons] at hpending
    subst hpending
    rw [Placement.placeAll, if_neg hne, if_neg hplaced]
    split
    next hnil => rw [hnil] at hcons; cases hcons
    next node' blocked' hcons' =>
      obtain ⟨rfl, rfl⟩ := List.cons.inj (hcons'.symm.trans hcons)
      refine ih ?_
      rw [hplacement]
      exact hinv.place_blocked hdistinct hblocked

theorem exists_mapM {α β : Type} {f : α → Option β} {l : List α} (h : ∀ a ∈ l, ∃ b, f a = some b) :
    ∃ bs, l.mapM f = some bs ∧ List.Forall₂ (fun a b => f a = some b) l bs := by
  induction l with
  | nil => exact ⟨[], rfl, .nil⟩
  | cons a l ih =>
    obtain ⟨⟨b, hb⟩, hrest⟩ := List.forall_mem_cons.mp h
    obtain ⟨bs, hbs, hall⟩ := ih hrest
    refine ⟨b :: bs, ?_, .cons hb hall⟩
    rw [List.mapM_cons, hb, hbs]
    rfl

/-- What a finished placement says about the graph of parents. -/
structure Laid (nodes : List MessageGraphNode) (positioned : List PositionedNode) : Prop where
  /-- Every node once, in the order of the input. -/
  order : positioned.map (·.node) = nodes
  lanes : ∀ p ∈ positioned, ∀ q ∈ positioned, p.depth = q.depth → p.lane = q.lane → p = q
  /-- A node stands one depth to the right of its parent, unless it breaks a cycle. -/
  right : ∀ p ∈ positioned, ∀ q ∈ positioned, Parent nodes p.node q.node → ¬ Breaks nodes p.node →
    p.depth = q.depth + 1 ∧
      p.x = q.x + (if q.node.context then fixtureWidth else messageWidth) + horizontalGap
  broken : ∀ p ∈ positioned, Breaks nodes p.node → p.depth = 0
  root : ∀ p ∈ positioned, (∀ m, ¬ Parent nodes p.node m) → p.depth = 0
  /-- Of every cycle, exactly one node is a root. -/
  cycle : ∀ c ∈ nodes, OnCycle (Parent nodes) c →
    ∃! p, p ∈ positioned ∧ TransGen (Parent nodes) c p.node ∧ p.depth = 0

/-- One of the nodes of a cycle comes first, and breaks it. -/
theorem exists_breaks (hdistinct : (nodes.map (·.id)).Nodup) {c : MessageGraphNode}
    (hc : OnCycle (Parent nodes) c) : ∃ m, TransGen (Parent nodes) c m ∧ Breaks nodes m := by
  obtain ⟨m, hm, hmin⟩ := (measure fun n => nodes.idxOf n).wf.has_min
    {m | TransGen (Parent nodes) c m} ⟨c, hc⟩
  have hback : TransGen (Parent nodes) m c :=
    OnCycle.back (R := Parent nodes) (parent_unique hdistinct) hc hm
  exact ⟨m, hm, ⟨c, hback, hc⟩, fun k hk => Nat.not_lt.mp (hmin k (hm.trans hk))⟩

/-- No two nodes of a cycle break it. -/
theorem breaks_unique (hdistinct : (nodes.map (·.id)).Nodup) {c m m' : MessageGraphNode}
    (hc : OnCycle (Parent nodes) c) (hm : TransGen (Parent nodes) c m)
    (hm' : TransGen (Parent nodes) c m') (hbreaks : Breaks nodes m) (hbreaks' : Breaks nodes m') :
    m = m' := by
  have hback : ∀ {k}, TransGen (Parent nodes) c k → TransGen (Parent nodes) k c :=
    OnCycle.back (R := Parent nodes) (parent_unique hdistinct) hc
  have hmem : ∀ {k}, TransGen (Parent nodes) c k → k ∈ nodes := by
    intro k hk
    obtain ⟨_, _, hstep⟩ := TransGen.tail'_iff.mp hk
    exact hstep.1
  have hle := hbreaks.2 m' ((hback hm).trans hm')
  have hge := hbreaks'.2 m ((hback hm').trans hm)
  exact (List.idxOf_inj (hmem hm)).mp (Nat.le_antisymm hle hge)

theorem Inv.laid (hdistinct : (nodes.map (·.id)).Nodup) {s : Placement} (hinv : Inv nodes s [])
    {positioned : List PositionedNode}
    (hall : List.Forall₂ (fun n p => s.positioned n.id = some p) nodes positioned) :
    Laid nodes positioned := by
  have hpairs : List.Forall₂ (fun n p => n = p.node ∧ s.positioned n.id = some p) nodes positioned := by
    refine List.Forall₂.imp ?_ ((List.forall₂_and_left nodes positioned).mpr ⟨fun _ h => h, hall⟩)
    rintro n p ⟨hn, hp⟩
    obtain ⟨hmem, hid, -⟩ := hinv.node hp
    exact ⟨eq_of_id hdistinct hn hmem hid.symm, hp⟩
  have horder : positioned.map (·.node) = nodes := by
    have hsame : List.Forall₂ (fun n p => n = p.node) nodes positioned := hpairs.imp fun _ _ h => h.1
    rw [← List.forall₂_map_right_iff, List.forall₂_eq_eq_eq] at hsame
    exact hsame.symm
  have hmap : positioned.map (fun p => s.positioned p.node.id) = positioned.map some := by
    have hsome : nodes.map (fun n => s.positioned n.id) = positioned.map some := by
      rw [← List.forall₂_eq_eq_eq, List.forall₂_map_left_iff, List.forall₂_map_right_iff]
      exact hall
    rw [← hsome, ← horder, List.map_map]
    rfl
  have hplaced : ∀ p ∈ positioned, s.positioned p.node.id = some p :=
    List.map_inj_left.mp hmap
  have hexists : ∀ n ∈ nodes, ∃ p ∈ positioned, p.node = n := by
    intro n hn
    rw [← horder] at hn
    exact List.mem_map.mp hn
  have hbroken : ∀ p ∈ positioned, Breaks nodes p.node → p.depth = 0 := by
    intro p hp hbreaks
    cases hinv.stands (hplaced p hp) with
    | right q hq hparent hdepth hx hkept => exact absurd hbreaks hkept
    | root hnone hdepth => exact hdepth
    | broken hparent _ hdepth => exact hdepth
  refine ⟨horder, ?_, ?_, hbroken, ?_, ?_⟩
  · intro p hp q hq hdepth hlane
    have hid := hinv.lanes (hplaced p hp) (hplaced q hq) hdepth hlane
    have hp := hplaced p hp
    rw [hid, hplaced q hq] at hp
    exact (Option.some.inj hp).symm
  · intro p hp q hq hparent hkept
    cases hinv.stands (hplaced p hp) with
    | right q' hq' hparent' hdepth hx _ =>
      have hsame := hplaced q hq
      rw [parent_unique hdistinct hparent hparent', hq'] at hsame
      obtain rfl := Option.some.inj hsame
      exact ⟨hdepth, hx⟩
    | root hnone _ => exact absurd hparent (hnone _)
    | broken _ hbreaks _ => exact absurd hbreaks hkept
  · intro p hp hnone
    cases hinv.stands (hplaced p hp) with
    | right q _ hparent _ _ _ => exact absurd hparent (hnone _)
    | root _ hdepth => exact hdepth
    | broken _ _ hdepth => exact hdepth
  · intro c hc hcycle
    -- a root on a cycle has a parent, so it broke the cycle
    have hbreaks : ∀ p ∈ positioned, TransGen (Parent nodes) c p.node → p.depth = 0 →
        Breaks nodes p.node := by
      intro p hp hon hdepth
      cases hinv.stands (hplaced p hp) with
      | right q _ _ hright _ _ => omega
      | root hnone _ =>
        have hback := OnCycle.back (R := Parent nodes) (parent_unique hdistinct) hcycle hon
        obtain ⟨m, hm, -⟩ := TransGen.head'_iff.mp hback
        exact absurd hm (hnone m)
      | broken _ hbreaks _ => exact hbreaks
    obtain ⟨m, hm, hfirst⟩ := exists_breaks hdistinct hcycle
    obtain ⟨_, _, hstep⟩ := TransGen.tail'_iff.mp hm
    obtain ⟨p, hp, rfl⟩ := hexists m hstep.1
    refine ⟨p, ⟨hp, hm, hbroken p hp hfirst⟩, ?_⟩
    rintro q ⟨hq, hon, hdepth⟩
    have hsame := breaks_unique hdistinct hcycle hon hm (hbreaks q hq hon hdepth) hfirst
    have hqplaced := hplaced q hq
    rw [hsame, hplaced p hp] at hqplaced
    exact (Option.some.inj hqplaced).symm

/-- The layout of nodes with distinct ids: every node once, in the order of the input, in a lane of
its depth of its own; one node of every cycle is a root; and a node whose parent is there stands one
depth to the right of it, unless the node breaks a cycle, which makes it a root. -/
theorem layoutMessageGraph_exact (nodes : List MessageGraphNode)
    (hdistinct : (nodes.map (·.id)).Nodup) :
    ∃ layout, layoutMessageGraph nodes = some layout ∧ Laid nodes layout.nodes := by
  have hinv := (Inv.empty nodes).placeAll hdistinct
  obtain ⟨positioned, hpositioned, hall⟩ :=
    exists_mapM fun n hn => hinv.placed n hn List.not_mem_nil
  simp only [layoutMessageGraph, hpositioned, Option.bind_eq_bind, Option.bind_some]
  exact ⟨_, rfl, hinv.laid hdistinct hall⟩

end Layout

namespace Sample

/-- A node with a parent link. -/
def linked (id parentId : String) : MessageGraphNode := ⟨id, some parentId, false, none, none, false⟩

/-- Two nodes that are each other's parent, after a node that hangs off them. -/
def tail : List MessageGraphNode := [linked "tail" "first", linked "first" "second",
  linked "second" "first"]

/-- Where they are placed. -/
def tailPlaces : List PositionedNode := [⟨linked "tail" "first", 0, 0, 0, 0⟩,
  ⟨linked "first" "second", 0, 2, 0, 352⟩, ⟨linked "second" "first", 1, 2, 288, 352⟩]

/-- The node off the cycle is placed as a root, at the depth of its parent. -/
theorem layoutMessageGraph_tail_root :
    (tail.map (·.id)).Nodup ∧ ∃ layout p q, layoutMessageGraph tail = some layout ∧
      p ∈ layout.nodes ∧ q ∈ layout.nodes ∧ Parent tail p.node q.node ∧
      ¬ OnCycle (Parent tail) p.node ∧ p.depth = 0 ∧ q.depth = 0 := by
  have hplaces : (layoutMessageGraph tail).map (·.nodes) = some tailPlaces := by decide +kernel
  obtain ⟨layout, hlayout, hnodes⟩ := Option.map_eq_some_iff.mp hplaces
  refine ⟨by decide +kernel, layout, ⟨linked "tail" "first", 0, 0, 0, 0⟩,
    ⟨linked "first" "second", 0, 2, 0, 352⟩, hlayout, ?_⟩
  rw [hnodes]
  refine ⟨by decide +kernel, by decide +kernel, ⟨by decide +kernel, by decide +kernel⟩,
    fun hcycle => ?_, rfl, rfl⟩
  -- it is no node's parent
  have hnone : ∀ n ∈ tail, n.parentLink ≠ some "tail" := by decide +kernel
  obtain ⟨m, hpath, -, hlink⟩ := TransGen.tail'_iff.mp hcycle
  rcases reflTransGen_iff_eq_or_transGen.mp hpath with rfl | hpath
  · exact hnone _ (by decide +kernel) hlink
  · obtain ⟨_, _, hstep⟩ := TransGen.tail'_iff.mp hpath
    exact hnone m hstep.1 hlink

/-- The layout of the same nodes. -/
theorem layoutMessageGraph_exact_tail :
    ∃ layout, layoutMessageGraph tail = some layout ∧ Laid tail layout.nodes :=
  layoutMessageGraph_exact tail (by decide +kernel)

end Sample

end Rostfrei.Studio
