import Mathlib.Data.List.Rotate
import Mathlib.Logic.Relation
import Rostfrei.Messaging.Series

/-!
# What `find_cycles` finds

The parents make a function on the indexes. `findCycles` gives every cycle of it once
(`findCycles_isCycle`, `findCycles_disjoint`, `exists_cycle_of_periodic`), and where it gives none,
the way up ends at a root from every index (`grounded_of_findCycles`).
-/

namespace Rostfrei.Messaging

open Lib

/-! ## Functions to parents -/

section Parents

variable {p : Nat → Option Nat}

/-- The parents and their parents, the index itself included. -/
def Reaches (p : Nat → Option Nat) : Nat → Nat → Prop :=
  Relation.ReflTransGen fun i j => p i = some j

/-- The way up comes back. -/
def Periodic (p : Nat → Option Nat) (i : Nat) : Prop :=
  Relation.TransGen (fun i j => p i = some j) i i

/-- The way up ends. -/
inductive Grounded (p : Nat → Option Nat) : Nat → Prop where
  | root {i : Nat} (h : p i = none) : Grounded p i
  | child {i j : Nat} (h : p i = some j) (hj : Grounded p j) : Grounded p i

/-- The members of a cycle are what each of them reaches. -/
structure IsCycle (p : Nat → Option Nat) (cycle : List Nat) : Prop where
  ne_nil : cycle ≠ []
  nodup : cycle.Nodup
  orbit : ∀ i ∈ cycle, ∀ j, j ∈ cycle ↔ Reaches p i j
  periodic : ∀ i ∈ cycle, Periodic p i

theorem IsCycle.perm {c c' : List Nat} (h : IsCycle p c) (hperm : c.Perm c') : IsCycle p c' where
  ne_nil hnil := h.ne_nil (by rw [hnil] at hperm; exact hperm.eq_nil)
  nodup := hperm.nodup_iff.mp h.nodup
  orbit i hi j := by
    rw [← hperm.mem_iff]
    exact h.orbit i (hperm.mem_iff.mpr hi) j
  periodic i hi := h.periodic i (hperm.mem_iff.mpr hi)

theorem Grounded.not_periodic {i : Nat} (h : Grounded p i) : ¬ Periodic p i := by
  induction h with
  | root h =>
    intro hper
    obtain ⟨j, hj, -⟩ := Relation.TransGen.head'_iff.mp hper
    simp [h] at hj
  | @child i j h _ ih =>
    intro hper
    obtain ⟨k, hk, hback⟩ := Relation.TransGen.head'_iff.mp hper
    obtain rfl : j = k := Option.some.inj (h.symm.trans hk)
    exact ih (Relation.TransGen.tail'_iff.mpr ⟨i, hback, h⟩)

/-- The number of steps to the root. -/
inductive DepthIs (p : Nat → Option Nat) : Nat → Nat → Prop where
  | root {i : Nat} (h : p i = none) : DepthIs p i 0
  | child {i j d : Nat} (h : p i = some j) (hj : DepthIs p j d) : DepthIs p i (d + 1)

theorem Grounded.exists_depth {i : Nat} (h : Grounded p i) : ∃ d, DepthIs p i d := by
  induction h with
  | root h => exact ⟨0, .root h⟩
  | child h _ ih =>
    obtain ⟨d, hd⟩ := ih
    exact ⟨d + 1, .child h hd⟩

theorem DepthIs.unique {i d e : Nat} (h : DepthIs p i d) (h' : DepthIs p i e) : d = e := by
  induction h generalizing e with
  | root h =>
    cases h' with
    | root => rfl
    | child h' => simp [h] at h'
  | child h _ ih =>
    cases h' with
    | root h' => simp [h] at h'
    | child h' hj => rw [ih (Option.some.inj (h.symm.trans h') ▸ hj)]

/-- The way to the root has different indexes. -/
theorem DepthIs.lt {n : Nat} (hrange : ∀ i j, p i = some j → j < n) {i d : Nat} (hi : i < n)
    (h : DepthIs p i d) : d < n := by
  have hpath : ∃ path : List Nat, path.length = d + 1 ∧ path.Nodup ∧
      ∀ j ∈ path, j < n ∧ ∃ e ≤ d, DepthIs p j e := by
    induction h with
    | @root i h => exact ⟨[i], rfl, by simp, by simpa using ⟨hi, .root h⟩⟩
    | @child i j d h hj ih =>
      obtain ⟨path, hlength, hnodup, hmem⟩ := ih (hrange i j h)
      refine ⟨i :: path, by rw [List.length_cons, hlength], List.nodup_cons.mpr ⟨fun hmem' => ?_, hnodup⟩,
        List.forall_mem_cons.mpr ⟨⟨hi, d + 1, le_rfl, .child h hj⟩, fun k hk => ?_⟩⟩
      · obtain ⟨-, e, he, hdepth⟩ := hmem i hmem'
        have := hdepth.unique (.child h hj)
        omega
      · obtain ⟨hlt, e, he, hdepth⟩ := hmem k hk
        exact ⟨hlt, e, by omega, hdepth⟩
  obtain ⟨path, hlength, hnodup, hmem⟩ := hpath
  have hsub : path ⊆ List.range n := fun j hj => List.mem_range.mpr (hmem j hj).1
  have := (List.subperm_of_subset hnodup hsub).length_le
  rw [List.length_range] at this
  omega

/-- Where every way up ends, indexes have depths. -/
theorem exists_depths {n : Nat} (hrange : ∀ i j, p i = some j → j < n)
    (h : ∀ i < n, Grounded p i) :
    ∃ depth : Nat → Nat, (∀ i < n, depth i < n) ∧
      ∀ i < n, ∀ j, p i = some j → depth i = depth j + 1 := by
  classical
  have hdepth : ∀ i, ∃ d, i < n → DepthIs p i d := by
    intro i
    by_cases hi : i < n
    · obtain ⟨d, hd⟩ := (h i hi).exists_depth
      exact ⟨d, fun _ => hd⟩
    · exact ⟨0, fun h => absurd h hi⟩
  choose depth hdepth using hdepth
  exact ⟨depth, fun i hi => (hdepth i hi).lt hrange hi, fun i hi j hj =>
    (hdepth i hi).unique (.child hj (hdepth j (hrange i j hj)))⟩

/-- A set that the parents do not leave. -/
theorem Reaches.mem {S : Nat → Prop} (hS : ∀ i j, S i → p i = some j → S j) {i j : Nat}
    (h : Reaches p i j) (hi : S i) : S j := by
  induction h with
  | refl => exact hi
  | tail _ hstep ih => exact hS _ _ ih hstep

/-- What a periodic index reaches comes back to it. -/
theorem Periodic.back {i j : Nat} (hper : Periodic p i) (h : Reaches p i j) : Reaches p j i := by
  induction h with
  | refl => exact .refl
  | @tail j k _ hstep ih =>
    rcases Relation.ReflTransGen.cases_head ih with rfl | ⟨l, hl, hback⟩
    · obtain ⟨l, hl, hback⟩ := Relation.TransGen.head'_iff.mp hper
      obtain rfl : k = l := Option.some.inj (hstep.symm.trans hl)
      exact hback
    · obtain rfl : k = l := Option.some.inj (hstep.symm.trans hl)
      exact hback

theorem chain_tail {path : List Nat} {last : Nat}
    (h : (path ++ [last]).IsChain fun i j => p i = some j) :
    ∀ i ∈ path, (∃ j ∈ path ++ [last], p i = some j) ∧ Reaches p i last := by
  induction path with
  | nil => simp
  | cons a path ih =>
    have hrest := h.tail
    have hfirst : p a = (path ++ [last]).head? := by
      cases path with
      | nil => simpa using h
      | cons b path => exact h.rel
    intro i hi
    rcases List.mem_cons.mp hi with rfl | hi
    · obtain ⟨b, hb⟩ : ∃ b, (path ++ [last]).head? = some b := by
        cases path <;> simp
      have hmem : b ∈ path ++ [last] := List.mem_of_mem_head? hb
      refine ⟨⟨b, List.mem_cons_of_mem i hmem, hfirst.trans hb⟩, ?_⟩
      have hreach : Reaches p b last := by
        rcases List.mem_append.mp hmem with hb' | hb'
        · exact (ih hrest b hb').2
        · obtain rfl := List.mem_singleton.mp hb'
          exact .refl
      exact .head (hfirst.trans hb) hreach
    · obtain ⟨⟨j, hj, hstep⟩, hreach⟩ := ih hrest i hi
      exact ⟨⟨j, List.mem_cons_of_mem a hj, hstep⟩, hreach⟩

theorem chain_head {first : Nat} {path : List Nat}
    (h : (first :: path).IsChain fun i j => p i = some j) :
    ∀ i ∈ first :: path, Reaches p first i := by
  induction path generalizing first with
  | nil => simpa using .refl
  | cons a path ih =>
    intro i hi
    rcases List.mem_cons.mp hi with rfl | hi
    · exact .refl
    · exact .head h.rel (ih h.tail i hi)

/-- A path whose last parent is its first index is a cycle. -/
theorem isCycle_of_chain {first : Nat} {path : List Nat} (hnodup : (first :: path).Nodup)
    (h : ((first :: path) ++ [first]).IsChain fun i j => p i = some j) :
    IsCycle p (first :: path) := by
  have hnext : ∀ i ∈ first :: path, ∃ j ∈ first :: path, p i = some j := by
    intro i hi
    obtain ⟨⟨j, hj, hstep⟩, -⟩ := chain_tail h i hi
    refine ⟨j, ?_, hstep⟩
    rcases List.mem_append.mp hj with hj | hj
    · exact hj
    · obtain rfl := List.mem_singleton.mp hj
      exact List.mem_cons_self
  have hreach : ∀ i ∈ first :: path, ∀ j ∈ first :: path, Reaches p i j := fun i hi j hj =>
    ((chain_tail h i hi).2).trans (chain_head (List.isChain_append.mp h).1 j hj)
  refine ⟨by simp, hnodup, fun i hi j => ⟨hreach i hi j, fun hij => ?_⟩, fun i hi => ?_⟩
  · refine hij.mem (fun i j hi hstep => ?_) hi
    obtain ⟨k, hk, hk'⟩ := hnext i hi
    exact Option.some.inj (hstep.symm.trans hk') ▸ hk
  · obtain ⟨j, hj, hstep⟩ := hnext i hi
    exact Relation.TransGen.head' hstep (hreach j hj i hi)

end Parents

theorem rotateToEarliest_perm (cycle : List Nat) : (rotateToEarliest cycle).Perm cycle := by
  unfold rotateToEarliest
  split
  · exact .refl _
  · exact List.rotate_perm cycle _

/-! ## One walk -/

section Walk

variable {parents : List (Option Nat)}

/-- The indexes that are visited. -/
def Visited (states : List Mark) (i : Nat) : Prop := states[i]? = some .visited

/-- What holds in a walk: the indexes on the path are those being visited, each is the parent of the
one before, and the next index is the parent of the last. -/
structure Walking (parents : List (Option Nat)) (before states : List Mark) (path : List Nat)
    (current : Option Nat) : Prop where
  length : states.length = parents.length
  nodup : path.Nodup
  visiting : ∀ i, states[i]? = some .visiting ↔ i ∈ path
  visited : ∀ i, Visited states i ↔ Visited before i
  chain : path.IsChain fun i j => parentOf parents i = some j
  next : ∀ last ∈ path.getLast?, parentOf parents last = current

/-- The end of a walk: at a root, at an index that was visited, or on its own path. -/
inductive Ends (parents : List (Option Nat)) (before : List Mark) (w : Walk) : Prop where
  | root (h : Walking parents before w.states w.path none) (hcycle : w.cycle = none)
  | visited {i : Nat} (h : Walking parents before w.states w.path (some i))
      (hi : Visited before i) (hcycle : w.cycle = none)
  | cycle {i : Nat} {pre path : List Nat} (h : Walking parents before w.states w.path (some i))
      (hpath : w.path = pre ++ i :: path) (hcycle : w.cycle = some (rotateToEarliest (i :: path)))

theorem Walking.lt {before states : List Mark} {path : List Nat} {current : Option Nat}
    (h : Walking parents before states path current) {i : Nat} (hi : i ∈ path) :
    i < parents.length := by
  have := (List.getElem?_eq_some_iff.mp ((h.visiting i).mpr hi)).1
  rwa [h.length] at this

theorem Walking.length_le {before states : List Mark} {path : List Nat} {current : Option Nat}
    (h : Walking parents before states path current) : path.length ≤ parents.length := by
  have hsub : path ⊆ List.range parents.length := fun i hi => List.mem_range.mpr (h.lt hi)
  simpa using (List.subperm_of_subset h.nodup hsub).length_le

/-- The next index is added to the path. -/
theorem Walking.step {before states : List Mark} {path : List Nat} {i : Nat}
    (h : Walking parents before states path (some i)) (hi : states[i]? = some .unvisited) :
    Walking parents before (states.set i .visiting) (path ++ [i]) (parentOf parents i) := by
  obtain ⟨hlt, -⟩ := List.getElem?_eq_some_iff.mp hi
  have hnew : i ∉ path := fun hmem => by simp [(h.visiting i).mpr hmem] at hi
  refine ⟨by rw [List.length_set, h.length], ?_, fun j => ?_, fun j => ?_, ?_, ?_⟩
  · exact List.nodup_append.mpr ⟨h.nodup, by simp, fun a ha b hb heq => hnew (by
      rw [← List.mem_singleton.mp hb, ← heq]
      exact ha)⟩
  · rw [List.mem_append, List.mem_singleton]
    by_cases hj : i = j
    · subst hj
      simp [hlt]
    · rw [List.getElem?_set_ne hj, h.visiting]
      exact ⟨.inl, fun hor => hor.resolve_right fun heq => hj heq.symm⟩
  · unfold Visited
    by_cases hj : i = j
    · subst hj
      have hbefore := (h.visited i).not.mp (by simp [Visited, hi])
      simpa [hlt, Visited] using hbefore
    · rw [List.getElem?_set_ne hj]
      exact h.visited j
  · refine List.isChain_append.mpr ⟨h.chain, by simp, fun last hlast first hfirst => ?_⟩
    obtain rfl : i = first := by simpa using hfirst
    exact h.next last hlast
  · simp

theorem walk_ends (hrange : ∀ i j, parentOf parents i = some j → j < parents.length)
    {before : List Mark} (fuel : Nat) {states : List Mark} {path : List Nat} {current : Option Nat}
    (h : Walking parents before states path current)
    (hcurrent : ∀ i ∈ current, i < parents.length)
    (hfuel : fuel + path.length = parents.length + 1) :
    Ends parents before (walk parents fuel states path current) ∧
      path <+: (walk parents fuel states path current).path ∧
      ∀ i ∈ current, Visited before i ∨ i ∈ (walk parents fuel states path current).path := by
  induction fuel generalizing states path current with
  | zero =>
    have := h.length_le
    omega
  | succ fuel ih =>
    cases current with
    | none => exact ⟨.root h rfl, List.prefix_rfl, by simp⟩
    | some i =>
      have hlt : i < states.length := by rw [h.length]; exact hcurrent i rfl
      obtain ⟨mark, hmark⟩ : ∃ mark, states[i]? = some mark :=
        ⟨_, List.getElem?_eq_getElem hlt⟩
      rw [walk, hmark]
      cases mark with
      | visited =>
        have hi : Visited before i := (h.visited i).mp hmark
        exact ⟨.visited h hi rfl, List.prefix_rfl, by simpa using .inl hi⟩
      | visiting =>
        have hi := (h.visiting i).mp hmark
        obtain ⟨pre, rest, hsplit⟩ := List.append_of_mem hi
        have hpre : i ∉ pre := by
          intro hmem
          have := hsplit ▸ h.nodup
          simp only [List.nodup_append, List.mem_cons] at this
          exact this.2.2 i hmem i (.inl rfl) rfl
        have hidx : path.idxOf? i = some pre.length := by
          have hnone : pre.findIdx? (· == i) = none := List.idxOf?_eq_none_iff.mpr hpre
          rw [hsplit, List.idxOf?, List.findIdx?_append, hnone]
          simp [List.findIdx?_cons]
        refine ⟨.cycle h hsplit ?_, List.prefix_rfl, by simpa using .inr hi⟩
        simp only [hidx, Option.map_some, Option.some.injEq]
        rw [hsplit, List.drop_left]
      | unvisited =>
        have hstep := h.step hmark
        obtain ⟨hends, hinitial, -⟩ := ih hstep (fun j hj => hrange i j hj)
          (by rw [List.length_append, List.length_singleton]; omega)
        have hsub : path ++ [i] <+: (walk parents fuel (states.set i .visiting) (path ++ [i])
          (parentOf parents i)).path := hinitial
        refine ⟨hends, (List.prefix_append path [i]).trans hsub, fun j hj => ?_⟩
        obtain rfl : i = j := by simpa using hj
        exact .inr (hsub.subset (by simp))

/-- The indexes of a path are visited after it, and no others become so. -/
theorem getElem?_markVisited (states : List Mark) (path : List Nat) (i : Nat) :
    (markVisited states path)[i]? =
      if i ∈ path ∧ i < states.length then some .visited else states[i]? := by
  unfold markVisited
  induction path generalizing states with
  | nil => simp
  | cons a path ih =>
    rw [List.foldl_cons, ih, List.length_set]
    by_cases hlt : i < states.length
    · by_cases hi : i ∈ path
      · simp [hi, hlt]
      · by_cases ha : a = i
        · subst ha
          simp [hi, hlt]
        · have hne : i ≠ a := fun h => ha h.symm
          simp [hi, hne, List.getElem?_set_ne ha]
    · simp [hlt]

theorem length_markVisited (states : List Mark) (path : List Nat) :
    (markVisited states path).length = states.length := by
  unfold markVisited
  induction path generalizing states with
  | nil => rfl
  | cons a path ih => rw [List.foldl_cons, ih, List.length_set]

theorem Walking.visited_markVisited {before states : List Mark} {path : List Nat}
    {current : Option Nat} (h : Walking parents before states path current) (i : Nat) :
    Visited (markVisited states path) i ↔ Visited before i ∨ i ∈ path := by
  rw [Visited, getElem?_markVisited, ← h.visited]
  by_cases hi : i ∈ path
  · have hlt : i < states.length := by
      rw [h.length]
      exact h.lt hi
    simp [hi, hlt]
  · simp [hi, Visited]

end Walk

/-! ## All walks -/

section Found

variable {parents : List (Option Nat)}

/-- What holds between the walks: the indexes that are visited are closed under parents, and their
cycles have been found. -/
structure Found (parents : List (Option Nat)) (states : List Mark) (cycles : List (List Nat)) :
    Prop where
  length : states.length = parents.length
  settled : ∀ i : Nat, states[i]? ≠ some .visiting
  closed : ∀ i j, Visited states i → parentOf parents i = some j → Visited states j
  isCycle : ∀ c ∈ cycles, IsCycle (parentOf parents) c ∧ ∀ i ∈ c, Visited states i
  disjoint : cycles.Pairwise List.Disjoint
  periodic : ∀ i, Visited states i → Periodic (parentOf parents) i → ∃ c ∈ cycles, i ∈ c
  grounded : ∀ i, Visited states i → Grounded (parentOf parents) i ∨
    ∃ c ∈ cycles, ∃ j ∈ c, Reaches (parentOf parents) i j

theorem found_start : Found parents (List.replicate parents.length .unvisited) [] := by
  have hnone : ∀ {i : Nat} {mark : Mark},
      (List.replicate parents.length Mark.unvisited)[i]? = some mark → mark = .unvisited := by
    intro i mark h
    obtain ⟨hlt, heq⟩ := List.getElem?_eq_some_iff.mp h
    rw [← heq, List.getElem_replicate]
  refine ⟨by simp, fun i h => ?_, fun i j h => ?_, by simp, .nil, fun i h => ?_, fun i h => ?_⟩ <;>
  exact nomatch hnone h

/-- The walk from the first index of a path along it. -/
theorem Walking.start {states : List Mark} (hlength : states.length = parents.length)
    (hsettled : ∀ i : Nat, states[i]? ≠ some .visiting) (start : Nat) :
    Walking parents states states [] (some start) where
  length := hlength
  nodup := .nil
  visiting i := by simp [hsettled i]
  visited _ := Iff.rfl
  chain := .nil
  next := by simp

/-- From every index of a path the last parent is reached. -/
theorem Walking.reaches {before states : List Mark} {path : List Nat} {next : Nat}
    (h : Walking parents before states path (some next)) :
    ∀ i ∈ path, Reaches (parentOf parents) i next := by
  have hchain : (path ++ [next]).IsChain fun i j => parentOf parents i = some j :=
    List.isChain_append.mpr ⟨h.chain, by simp, fun last hlast first hfirst => by
      obtain rfl : next = first := by simpa using hfirst
      exact h.next last hlast⟩
  exact fun i hi => (chain_tail hchain i hi).2

/-- The parents of the indexes of a path are on the path, or the next index. -/
theorem Walking.parent {before states : List Mark} {path : List Nat} {current : Option Nat}
    (h : Walking parents before states path current) {i j : Nat} (hi : i ∈ path)
    (hj : parentOf parents i = some j) : j ∈ path ∨ current = some j := by
  obtain ⟨pre, rest, rfl⟩ := List.append_of_mem hi
  cases rest with
  | nil => exact .inr ((h.next i (by simp)).symm.trans hj)
  | cons k rest =>
    have hchain := (List.isChain_append.mp h.chain).2.1
    obtain rfl : j = k := Option.some.inj (hj.symm.trans hchain.rel)
    exact .inl (by simp)

/-- A walk that ends at a root is along grounded indexes. -/
theorem Walking.grounded {before states : List Mark} {path : List Nat}
    (h : Walking parents before states path none) : ∀ i ∈ path, Grounded (parentOf parents) i := by
  have hall : ∀ suffix, suffix <:+ path → ∀ i ∈ suffix, Grounded (parentOf parents) i := by
    intro suffix
    induction suffix with
    | nil => simp
    | cons a suffix ih =>
      intro hsuffix
      have hrest := ih ((List.suffix_cons a suffix).trans hsuffix)
      obtain ⟨pre, rfl⟩ := hsuffix
      refine List.forall_mem_cons.mpr ⟨?_, hrest⟩
      cases suffix with
      | nil => exact .root (h.next a (by simp))
      | cons b suffix =>
        have hchain := (List.isChain_append.mp h.chain).2.1
        exact .child hchain.rel (hrest b List.mem_cons_self)
  exact hall path (List.suffix_rfl)

/-- No index of a path was visited before the walk. -/
theorem Walking.not_visited {before states : List Mark} {path : List Nat} {current : Option Nat}
    (h : Walking parents before states path current) {i : Nat} (hi : i ∈ path) :
    ¬ Visited before i := by
  intro hvisited
  have hmark := (h.visited i).mpr hvisited
  rw [Visited, (h.visiting i).mpr hi] at hmark
  cases hmark

theorem Grounded.of_reaches {p : Nat → Option Nat} {i j : Nat} (h : Reaches p i j)
    (hj : Grounded p j) : Grounded p i := by
  induction h using Relation.ReflTransGen.head_induction_on with
  | refl => exact hj
  | head hstep _ ih => exact .child hstep ih

/-- What a walk adds to the visited indexes, given what it says of those on its path. -/
theorem Found.extend {states : List Mark} {cycles found : List (List Nat)}
    (hfound : Found parents states cycles) {w : Walk} {current : Option Nat}
    (h : Walking parents states w.states w.path current)
    (hcurrent : ∀ i, current = some i → Visited states i ∨ i ∈ w.path)
    (hcycles : ∀ c ∈ found, IsCycle (parentOf parents) c ∧ ∀ i ∈ c, i ∈ w.path)
    (hpairwise : found.Pairwise List.Disjoint)
    (hperiodic : ∀ i ∈ w.path, Periodic (parentOf parents) i → ∃ c ∈ cycles ++ found, i ∈ c)
    (hgrounded : ∀ i ∈ w.path, Grounded (parentOf parents) i ∨
      ∃ c ∈ cycles ++ found, ∃ j ∈ c, Reaches (parentOf parents) i j) :
    Found parents (markVisited w.states w.path) (cycles ++ found) := by
  have hvisited := h.visited_markVisited
  refine ⟨by rw [length_markVisited, h.length], fun i hi => ?_, fun i j hi hj => ?_, fun c hc => ?_,
    ?_, fun i hi hper => ?_, fun i hi => ?_⟩
  · rw [getElem?_markVisited] at hi
    split at hi
    · cases hi
    · next hnot =>
      have hmem := (h.visiting i).mp hi
      exact hnot ⟨hmem, by rw [h.length]; exact h.lt hmem⟩
  · rw [hvisited] at hi ⊢
    rcases hi with hi | hi
    · exact .inl (hfound.closed i j hi hj)
    · rcases h.parent hi hj with hmem | hnext
      · exact .inr hmem
      · exact hcurrent j hnext
  · rcases List.mem_append.mp hc with hc | hc
    · obtain ⟨hcycle, hmembers⟩ := hfound.isCycle c hc
      exact ⟨hcycle, fun i hi => (hvisited i).mpr (.inl (hmembers i hi))⟩
    · obtain ⟨hcycle, hmembers⟩ := hcycles c hc
      exact ⟨hcycle, fun i hi => (hvisited i).mpr (.inr (hmembers i hi))⟩
  · refine List.pairwise_append.mpr ⟨hfound.disjoint, hpairwise, fun c hc c' hc' i hi hi' => ?_⟩
    exact h.not_visited ((hcycles c' hc').2 i hi') ((hfound.isCycle c hc).2 i hi)
  · rcases (hvisited i).mp hi with hi | hi
    · obtain ⟨c, hc, hmem⟩ := hfound.periodic i hi hper
      exact ⟨c, List.mem_append_left found hc, hmem⟩
    · exact hperiodic i hi hper
  · rcases (hvisited i).mp hi with hi | hi
    · refine (hfound.grounded i hi).imp_right ?_
      rintro ⟨c, hc, hreach⟩
      exact ⟨c, List.mem_append_left found hc, hreach⟩
    · exact hgrounded i hi

/-- The end of a path that comes back to it is a cycle. -/
theorem Walking.closed {before states : List Mark} {path pre rest : List Nat} {k : Nat}
    (h : Walking parents before states path (some k)) (hpath : path = pre ++ k :: rest) :
    (k :: rest).Nodup ∧
      ((k :: rest) ++ [k]).IsChain fun i j => parentOf parents i = some j := by
  subst hpath
  refine ⟨(List.nodup_append.mp h.nodup).2.1, List.isChain_append.mpr
    ⟨(List.isChain_append.mp h.chain).2.1, by simp, fun last hlast first hfirst => ?_⟩⟩
  obtain rfl : k = first := by simpa using hfirst
  refine h.next last ?_
  rw [List.getLast?_append_of_ne_nil _ (by simp)]
  exact hlast

/-- A turn of the outer loop visits its index. -/
theorem Found.walkFrom (hrange : ∀ i j, parentOf parents i = some j → j < parents.length)
    {found : List Mark × List (List Nat)} (hfound : Found parents found.1 found.2) (start : Nat)
    (hstart : start < parents.length) :
    Found parents (walkFrom parents found start).1 (walkFrom parents found start).2 ∧
      Visited (walkFrom parents found start).1 start ∧
      ∀ i, Visited found.1 i → Visited (walkFrom parents found start).1 i := by
  unfold Messaging.walkFrom
  split
  · next hmark =>
    refine ⟨hfound, ?_, fun _ h => h⟩
    obtain ⟨mark, heq⟩ : ∃ mark, found.1[start]? = some mark :=
      ⟨_, List.getElem?_eq_getElem (by rw [hfound.length]; exact hstart)⟩
    cases mark with
    | visited => exact heq
    | unvisited => exact absurd heq hmark
    | visiting => exact absurd heq (hfound.settled start)
  · next hmark =>
    obtain ⟨hends, -, hseen⟩ := walk_ends hrange (parents.length + 1)
      (.start hfound.length hfound.settled start) (by simpa using hstart) (by simp)
    dsimp only
    set w := walk parents (parents.length + 1) found.1 [] (some start)
    have hmem : start ∈ w.path := by
      refine (hseen start rfl).resolve_left fun hvisited => ?_
      rw [Visited, not_not.mp hmark] at hvisited
      cases hvisited
    have hdone : ∀ {current}, Walking parents found.1 w.states w.path current →
        Visited (markVisited w.states w.path) start ∧
          ∀ i, Visited found.1 i → Visited (markVisited w.states w.path) i := fun h =>
      ⟨(h.visited_markVisited start).mpr (.inr hmem),
        fun i hi => (h.visited_markVisited i).mpr (.inl hi)⟩
    cases hends with
    | root h hcycle =>
      rw [hcycle]
      refine ⟨hfound.extend h (by simp) (by simp) .nil (fun i hi hper => ?_) fun i hi => ?_, hdone h⟩
      · exact ((h.grounded i hi).not_periodic hper).elim
      · exact .inl (h.grounded i hi)
    | @visited k h hk hcycle =>
      rw [hcycle]
      refine ⟨hfound.extend h ?_ (by simp) .nil (fun i hi hper => ?_) fun i hi => ?_, hdone h⟩
      · rintro i hi
        exact .inl (Option.some.inj hi ▸ hk)
      · -- the way up of the path comes back through what was visited
        have hvisited := (hper.back (h.reaches i hi)).mem hfound.closed hk
        exact (h.not_visited hi hvisited).elim
      · simp only [Option.toList_none, List.append_nil]
        refine (hfound.grounded k hk).imp (fun hg => hg.of_reaches (h.reaches i hi)) ?_
        rintro ⟨c, hc, j, hj, hreach⟩
        exact ⟨c, hc, j, hj, (h.reaches i hi).trans hreach⟩
    | @cycle k pre rest h hpath hcycle =>
      rw [hcycle]
      obtain ⟨hnodup, hchain⟩ := h.closed hpath
      have hcyc := (isCycle_of_chain hnodup hchain).perm (rotateToEarliest_perm (k :: rest)).symm
      have hkmem : k ∈ rotateToEarliest (k :: rest) :=
        (rotateToEarliest_perm _).mem_iff.mpr List.mem_cons_self
      have hknew : k ∈ w.path := by simp [hpath]
      refine ⟨hfound.extend h ?_ ?_ (by simp) (fun i hi hper => ?_) fun i hi => .inr ?_, hdone h⟩
      · rintro i hi
        exact .inr (Option.some.inj hi ▸ hknew)
      · intro c hc
        obtain rfl : c = rotateToEarliest (k :: rest) := by simpa using hc
        refine ⟨hcyc, fun i hi => ?_⟩
        have := (rotateToEarliest_perm _).mem_iff.mp hi
        rw [hpath]
        exact List.mem_append_right pre this
      · exact ⟨_, by simp, (hcyc.orbit k hkmem i).mpr (hper.back (h.reaches i hi))⟩
      · exact ⟨_, List.mem_append_right _ (by simp), k, hkmem, h.reaches i hi⟩

/-- The walks from the first indexes. -/
theorem found_foldl (hrange : ∀ i j, parentOf parents i = some j → j < parents.length) {n : Nat}
    (hn : n ≤ parents.length) {found : List Mark × List (List Nat)}
    (h : found = (List.range n).foldl (walkFrom parents)
      (List.replicate parents.length .unvisited, [])) :
    Found parents found.1 found.2 ∧ ∀ i < n, Visited found.1 i := by
  subst h
  induction n with
  | zero => exact ⟨found_start, by simp⟩
  | succ n ih =>
    obtain ⟨hfound, hvisited⟩ := ih (by omega)
    rw [List.range_succ, List.foldl_append, List.foldl_cons, List.foldl_nil]
    obtain ⟨hfound', hstart, hmono⟩ := hfound.walkFrom hrange n (by omega)
    refine ⟨hfound', fun i hi => ?_⟩
    rcases Nat.lt_succ_iff_lt_or_eq.mp hi with hi | rfl
    · exact hmono i (hvisited i hi)
    · exact hstart

/-- The walks find all cycles. -/
theorem found_findCycles (hrange : ∀ i j, parentOf parents i = some j → j < parents.length) :
    ∃ states, Found parents states (findCycles parents) ∧
      ∀ i < parents.length, Visited states i := by
  obtain ⟨hfound, hvisited⟩ := found_foldl hrange le_rfl rfl
  set found := (List.range parents.length).foldl (walkFrom parents)
    (List.replicate parents.length .unvisited, [])
  have hperm : (findCycles parents).Perm found.2 := sortBy_perm _ _
  refine ⟨found.1, ⟨hfound.length, hfound.settled, hfound.closed,
    fun c hc => hfound.isCycle c (hperm.mem_iff.mp hc), ?_, fun i hi hper => ?_, fun i hi => ?_⟩,
    hvisited⟩
  · exact hperm.symm.pairwise hfound.disjoint fun h => h.symm
  · obtain ⟨c, hc, hmem⟩ := hfound.periodic i hi hper
    exact ⟨c, hperm.mem_iff.mpr hc, hmem⟩
  · refine (hfound.grounded i hi).imp_right ?_
    rintro ⟨c, hc, hreach⟩
    exact ⟨c, hperm.mem_iff.mpr hc, hreach⟩

end Found

/-! ## Results -/

section Results

variable {parents : List (Option Nat)}
  (hrange : ∀ i j, parentOf parents i = some j → j < parents.length)
include hrange

theorem findCycles_isCycle : ∀ c ∈ findCycles parents, IsCycle (parentOf parents) c := by
  obtain ⟨states, hfound, -⟩ := found_findCycles hrange
  exact fun c hc => (hfound.isCycle c hc).1

theorem findCycles_disjoint : (findCycles parents).Pairwise List.Disjoint := by
  obtain ⟨states, hfound, -⟩ := found_findCycles hrange
  exact hfound.disjoint

theorem exists_cycle_of_periodic {i : Nat} (h : Periodic (parentOf parents) i) :
    ∃ c ∈ findCycles parents, i ∈ c := by
  obtain ⟨states, hfound, hvisited⟩ := found_findCycles hrange
  refine hfound.periodic i (hvisited i ?_) h
  obtain ⟨j, -, hj⟩ := Relation.TransGen.tail'_iff.mp h
  exact hrange j i hj

/-- Without a cycle, every way up ends. -/
theorem grounded_of_findCycles (h : findCycles parents = []) {i : Nat} (hi : i < parents.length) :
    Grounded (parentOf parents) i := by
  obtain ⟨states, hfound, hvisited⟩ := found_findCycles hrange
  refine (hfound.grounded i (hvisited i hi)).resolve_right ?_
  rintro ⟨c, hc, -⟩
  simp [h] at hc

/-- Where every way up ends, there is no cycle. -/
theorem findCycles_of_grounded (h : ∀ i < parents.length, Grounded (parentOf parents) i) :
    findCycles parents = [] := by
  refine List.eq_nil_iff_forall_not_mem.mpr fun c hc => ?_
  have hcycle := findCycles_isCycle hrange c hc
  obtain ⟨i, hi⟩ := List.exists_mem_of_ne_nil c hcycle.ne_nil
  have hper := hcycle.periodic i hi
  obtain ⟨j, -, hj⟩ := Relation.TransGen.tail'_iff.mp hper
  exact (h i (hrange j i hj)).not_periodic hper

end Results

/-! ## Series -/

namespace MessageSeries

variable {N : Type} [MessageSeriesNode N] (s : MessageSeries N)

theorem eq_of_messageId {a b : N} (ha : a ∈ s.nodes) (hb : b ∈ s.nodes)
    (h : messageId a = messageId b) : a = b :=
  List.inj_on_of_nodup_map s.ids_nodup ha hb h

theorem get_eq_some {id : String} {node : N} :
    s.get id = some node ↔ node ∈ s.nodes ∧ messageId node = id := by
  constructor
  · intro h
    exact ⟨List.mem_of_find?_eq_some h, by simpa using List.find?_some h⟩
  · rintro ⟨hmem, rfl⟩
    obtain ⟨found, hfound⟩ : ∃ found, s.get (messageId node) = some found :=
      Option.isSome_iff_exists.mp (List.find?_isSome.mpr ⟨node, hmem, by simp⟩)
    rw [hfound]
    have hid : messageId found = messageId node := by simpa using List.find?_some hfound
    rw [s.eq_of_messageId (List.mem_of_find?_eq_some hfound) hmem hid]

theorem get_eq_none {id : String} : s.get id = none ↔ ∀ node ∈ s.nodes, messageId node ≠ id := by
  simp [get]

theorem indexOf?_eq_some {id : String} {i : Nat} :
    s.indexOf? id = some i ↔ ∃ node, s.nodes[i]? = some node ∧ messageId node = id := by
  rw [indexOf?, List.findIdx?_eq_some_iff_getElem]
  constructor
  · rintro ⟨hlt, hid, -⟩
    exact ⟨_, List.getElem?_eq_getElem hlt, by simpa using hid⟩
  · rintro ⟨node, hnode, hid⟩
    obtain ⟨hlt, rfl⟩ := List.getElem?_eq_some_iff.mp hnode
    refine ⟨hlt, by simpa using hid, fun j hj hsame => ?_⟩
    have hids : (s.nodes.map messageId)[j]? = (s.nodes.map messageId)[i]? := by
      rw [List.getElem?_map, List.getElem?_map, List.getElem?_eq_getElem (hj.trans hlt),
        List.getElem?_eq_getElem hlt, Option.map_some, Option.map_some, hid, decide_eq_true_eq.mp hsame]
    have := (List.getElem?_inj (by simpa using hj.trans hlt) s.ids_nodup).mp hids
    omega

theorem indexOf?_eq_none {id : String} :
    s.indexOf? id = none ↔ ∀ node ∈ s.nodes, messageId node ≠ id := by
  simp [indexOf?, List.findIdx?_eq_none_iff]

/-- The parent of a message, by index. -/
theorem parentOf_parentIndexes {i j : Nat} :
    parentOf s.parentIndexes i = some j ↔ ∃ child parent, s.nodes[i]? = some child ∧
      s.nodes[j]? = some parent ∧ causationId child = some (messageId parent) := by
  have hparent : parentOf s.parentIndexes i =
      (s.nodes[i]?).bind fun child => (causationId child).bind s.indexOf? := by
    rw [parentOf, parentIndexes, List.getElem?_map]
    cases s.nodes[i]? <;> rfl
  rw [hparent]
  simp only [Option.bind_eq_some_iff, s.indexOf?_eq_some]
  constructor
  · rintro ⟨child, hchild, id, hid, parent, hparent, rfl⟩
    exact ⟨child, parent, hchild, hparent, hid⟩
  · rintro ⟨child, parent, hchild, hparent, hid⟩
    exact ⟨child, hchild, _, hid, parent, hparent, rfl⟩

theorem length_parentIndexes : s.parentIndexes.length = s.nodes.length := by simp [parentIndexes]

theorem parentIndexes_lt : ∀ i j, parentOf s.parentIndexes i = some j →
    j < s.parentIndexes.length := by
  intro i j h
  obtain ⟨_, _, -, hj, -⟩ := s.parentOf_parentIndexes.mp h
  rw [length_parentIndexes]
  exact (List.getElem?_eq_some_iff.mp hj).1

/-- A series of nodes with different identities has just these nodes. -/
theorem nodes_of_tryFromNodes [DecidableEq N] {nodes : List N} {s : MessageSeries N}
    (h : tryFromNodes nodes = .ok s) (hnodup : (nodes.map messageId).Nodup) : s.nodes = nodes := by
  have hfold : ∀ (nodes : List N) (start s : MessageSeries N),
      nodes.foldlM (fun s node => (s.insert node).map Prod.snd) start = .ok s →
      ((start.nodes ++ nodes).map messageId).Nodup → s.nodes = start.nodes ++ nodes := by
    intro nodes
    induction nodes with
    | nil =>
      rintro start s h -
      obtain rfl : start = s := Except.ok.inj h
      simp
    | cons node nodes ih =>
      intro start s h hnodup
      obtain ⟨next, hnext, hrest⟩ := bind_eq_ok.mp (by rwa [List.foldlM_cons] at h)
      have hnode : next.nodes = start.nodes ++ [node] := by
        unfold insert at hnext
        split at hnext
        · next existing hget =>
          -- the identity would be repeated
          obtain ⟨hmem, hid⟩ := start.get_eq_some.mp hget
          rw [List.map_append, List.nodup_append] at hnodup
          exact (hnodup.2.2 _ (List.mem_map_of_mem hmem) (messageId node) (by simp) hid).elim
        · split at hnext
          · cases hnext
          · rw [← Except.ok.inj hnext]
      rw [ih next s hrest (by rwa [hnode, List.append_assoc, List.singleton_append]), hnode,
        List.append_assoc, List.singleton_append]
  exact hfold nodes empty s h (by simpa [empty] using hnodup)

theorem tryFromNodes_ok [DecidableEq N] {nodes : List N} (hnodup : (nodes.map messageId).Nodup)
    (hle : nodes.length ≤ maxMessageSeriesNodes) : ∃ s, tryFromNodes nodes = .ok s := by
  have hfold : ∀ (nodes : List N) (start : MessageSeries N),
      ((start.nodes ++ nodes).map messageId).Nodup →
      (start.nodes ++ nodes).length ≤ maxMessageSeriesNodes →
      ∃ s, nodes.foldlM (fun s node => (s.insert node).map Prod.snd) start = .ok s := by
    intro nodes
    induction nodes with
    | nil => exact fun start _ _ => ⟨start, rfl⟩
    | cons node nodes ih =>
      intro start hnodup hle
      obtain ⟨next, hnext, hnodes⟩ : ∃ next, (start.insert node).map Prod.snd = .ok next ∧
          next.nodes = start.nodes ++ [node] := by
        unfold insert
        split
        · next existing hget =>
          obtain ⟨hmem, hid⟩ := start.get_eq_some.mp hget
          rw [List.map_append, List.nodup_append] at hnodup
          exact (hnodup.2.2 _ (List.mem_map_of_mem hmem) (messageId node) (by simp) hid).elim
        · split
          · next hfull =>
            rw [List.length_append, List.length_cons] at hle
            omega
          · exact ⟨_, rfl, rfl⟩
      obtain ⟨s, hs⟩ := ih next (by rwa [hnodes, List.append_assoc, List.singleton_append])
        (by rwa [hnodes, List.append_assoc, List.singleton_append])
      refine ⟨s, ?_⟩
      rw [List.foldlM_cons, hnext]
      exact hs
  exact hfold nodes empty (by simpa [empty] using hnodup) (by simpa [empty] using hle)

end MessageSeries

end Rostfrei.Messaging
