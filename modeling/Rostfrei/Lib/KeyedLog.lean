import Mathlib.Data.List.Basic
import Mathlib.Data.List.Infix
import Mathlib.Tactic.Common

/-!
# A log of items with keys

An append-only log whose items have positions from 1 on and a key each. What a reader of one key
sees is `itemsOn`: the items of the key with their positions, in order. It grows at the end only, so

* a position at which a key was last written says which items it had (`itemsOn_eq_of_last`);
* what was found up to a position is still found in every longer log (`firstFrom_append`,
  `through_append`).
-/

namespace Lib

variable {α κ : Type*} [DecidableEq κ] {key : α → κ} {k : κ} {log more : List α}

/-- The items with their positions. -/
def numbered (log : List α) : List (Nat × α) := log.mapIdx fun i a => (i + 1, a)

/-- The items of a key with their positions. -/
def itemsOn (key : α → κ) (k : κ) (log : List α) : List (Nat × α) :=
  (numbered log).filter (key ·.2 = k)

/-- The last position of a key, 0 if there is none. -/
def lastPosition (key : α → κ) (k : κ) (log : List α) : Nat :=
  (itemsOn key k log).getLast?.elim 0 Prod.fst

/-- The first item of a key from a position on. -/
def firstFrom (key : α → κ) (k : κ) (n : Nat) (log : List α) : Option (Nat × α) :=
  (itemsOn key k log).find? (n ≤ ·.1)

/-- The items up to a position. -/
def through (n : Nat) (items : List (Nat × α)) : List (Nat × α) := items.filter (·.1 ≤ n)

@[simp] theorem itemsOn_nil : itemsOn key k [] = [] := rfl

theorem mem_numbered {p : Nat × α} : p ∈ numbered log ↔ 0 < p.1 ∧ log[p.1 - 1]? = some p.2 := by
  obtain ⟨n, a⟩ := p
  simp only [numbered, List.mem_mapIdx, Prod.mk.injEq]
  constructor
  · rintro ⟨i, hi, rfl, rfl⟩
    exact ⟨Nat.succ_pos i, List.getElem?_eq_getElem hi⟩
  · rintro ⟨hn, ha⟩
    obtain ⟨hi, ha⟩ := List.getElem?_eq_some_iff.mp ha
    exact ⟨n - 1, hi, by omega, ha⟩

theorem mem_itemsOn {p : Nat × α} :
    p ∈ itemsOn key k log ↔ 0 < p.1 ∧ log[p.1 - 1]? = some p.2 ∧ key p.2 = k := by
  rw [itemsOn, List.mem_filter, mem_numbered, decide_eq_true_eq, and_assoc]

/-- The positions of a log are those up to its length. -/
theorem position_le {p : Nat × α} (h : p ∈ itemsOn key k log) : 0 < p.1 ∧ p.1 ≤ log.length := by
  obtain ⟨hpos, hat, -⟩ := mem_itemsOn.mp h
  have := (List.getElem?_eq_some_iff.mp hat).1
  omega

/-- The positions go up. -/
theorem itemsOn_pairwise : (itemsOn key k log).Pairwise (·.1 < ·.1) := by
  refine List.Pairwise.filter _ ?_
  rw [numbered, List.pairwise_iff_getElem]
  intro i j hi hj hij
  simp only [List.getElem_mapIdx]
  omega

theorem numbered_append :
    numbered (log ++ more) =
      numbered log ++ (numbered more).map fun p => (log.length + p.1, p.2) := by
  simp only [numbered, List.mapIdx_append]
  refine congrArg _ (List.ext_getElem (by simp) fun i hi hi' => ?_)
  simp only [List.getElem_mapIdx, List.getElem_map, Prod.mk.injEq, and_true]
  omega

theorem itemsOn_append :
    itemsOn key k (log ++ more) =
      itemsOn key k log ++ (itemsOn key k more).map fun p => (log.length + p.1, p.2) := by
  simp only [itemsOn, numbered_append, List.filter_append, List.filter_map]
  rfl

/-- Items of other keys change nothing. -/
theorem itemsOn_append_of_ne (h : ∀ a ∈ more, key a ≠ k) :
    itemsOn key k (log ++ more) = itemsOn key k log := by
  have hnone : itemsOn key k more = [] := by
    refine List.eq_nil_iff_forall_not_mem.mpr fun p hp => ?_
    obtain ⟨-, hat, hkey⟩ := mem_itemsOn.mp hp
    exact h _ (List.mem_of_getElem? hat) hkey
  rw [itemsOn_append, hnone, List.map_nil, List.append_nil]

theorem lastPosition_le : lastPosition key k log ≤ log.length := by
  unfold lastPosition
  cases h : (itemsOn key k log).getLast? with
  | none => exact Nat.zero_le _
  | some p => exact (position_le (List.mem_of_getLast? h)).2

/-- No item of the key is after its last position. -/
theorem le_lastPosition {p : Nat × α} (h : p ∈ itemsOn key k log) :
    p.1 ≤ lastPosition key k log := by
  obtain ⟨init, last, heq⟩ := (List.eq_nil_or_concat' _).resolve_left (List.ne_nil_of_mem h)
  have hlast : lastPosition key k log = last.1 := by simp [lastPosition, heq]
  have hsorted := @itemsOn_pairwise _ _ _ key k log
  rw [heq] at h hsorted
  rw [hlast]
  rcases List.mem_append.mp h with h | h
  · exact ((List.pairwise_append.mp hsorted).2.2 p h last (by simp)).le
  · rw [List.mem_singleton.mp h]

theorem lastPosition_eq_zero : lastPosition key k log = 0 ↔ itemsOn key k log = [] := by
  constructor
  · intro h
    refine List.eq_nil_iff_forall_not_mem.mpr fun p hp => ?_
    have := le_lastPosition hp
    have := (position_le hp).1
    omega
  · intro h
    simp [lastPosition, h]

/-- The last item of a key is at its last position. -/
theorem getLast?_itemsOn {p : Nat × α} (h : (itemsOn key k log).getLast? = some p) :
    lastPosition key k log = p.1 := by
  simp [lastPosition, h]

/-! ## Longer logs -/

/-- What was there up to a position of the log is all there is up to it. -/
theorem through_append {n : Nat} (hn : n ≤ log.length) :
    through n (itemsOn key k (log ++ more)) = through n (itemsOn key k log) := by
  have hnone : through n ((itemsOn key k more).map fun p => (log.length + p.1, p.2)) = [] := by
    refine List.filter_eq_nil_iff.mpr fun q hq => ?_
    obtain ⟨p, hp, rfl⟩ := List.mem_map.mp hq
    have hpos := (position_le hp).1
    simp only [decide_eq_true_eq]
    omega
  rw [itemsOn_append, through, List.filter_append]
  exact (congrArg _ hnone).trans (List.append_nil _)

/-- Up to the last position is everything. -/
theorem through_of_le {n : Nat} (hn : lastPosition key k log ≤ n) :
    through n (itemsOn key k log) = itemsOn key k log := by
  refine List.filter_eq_self.mpr fun p hp => ?_
  have := le_lastPosition hp
  simp only [decide_eq_true_eq]
  omega

theorem lastPosition_append_le : lastPosition key k log ≤ lastPosition key k (log ++ more) := by
  cases h : (itemsOn key k log).getLast? with
  | none => simp [lastPosition, h]
  | some p =>
    rw [getLast?_itemsOn h]
    refine le_lastPosition ?_
    rw [itemsOn_append]
    exact List.mem_append_left _ (List.mem_of_getLast? h)

/-- The items of a longer log are those that were there and those after their last position. -/
theorem itemsOn_eq_append :
    itemsOn key k (log ++ more) =
      itemsOn key k log ++
        (itemsOn key k (log ++ more)).filter (lastPosition key k log + 1 ≤ ·.1) := by
  have hold : (itemsOn key k log).filter (lastPosition key k log + 1 ≤ ·.1) = [] := by
    refine List.filter_eq_nil_iff.mpr fun p hp => ?_
    have := le_lastPosition hp
    simp only [decide_eq_true_eq]
    omega
  have hnew : ((itemsOn key k more).map fun p => (log.length + p.1, p.2)).filter
      (lastPosition key k log + 1 ≤ ·.1) =
        (itemsOn key k more).map fun p => (log.length + p.1, p.2) := by
    refine List.filter_eq_self.mpr fun q hq => ?_
    obtain ⟨p, hp, rfl⟩ := List.mem_map.mp hq
    have hpos := (position_le hp).1
    have hle := @lastPosition_le _ _ _ key k log
    simp only [decide_eq_true_eq]
    omega
  conv_rhs => rw [itemsOn_append, List.filter_append, hold, hnew, List.nil_append]
  exact itemsOn_append

/-- Where positions go up, the items up to a position come first. -/
theorem through_isPrefix {n : Nat} {items : List (Nat × α)} (h : items.Pairwise (·.1 < ·.1)) :
    through n items <+: items := by
  induction items with
  | nil => exact List.nil_prefix
  | cons p items ih =>
    obtain ⟨hp, hitems⟩ := List.pairwise_cons.mp h
    by_cases hle : p.1 ≤ n
    · have hcons : through n (p :: items) = p :: through n items := by simp [through, hle]
      rw [hcons]
      exact List.cons_prefix_cons.mpr ⟨rfl, ih hitems⟩
    · have hnil : through n (p :: items) = [] := by
        refine List.filter_eq_nil_iff.mpr fun q hq => ?_
        simp only [decide_eq_true_eq]
        rcases List.mem_cons.mp hq with rfl | hq
        · exact hle
        · have := hp q hq
          omega
      rw [hnil]
      exact List.nil_prefix

/-- The items up to the last of the first ones are the first ones. -/
theorem through_of_isPrefix {items first : List (Nat × α)} {p : Nat × α}
    (h : items.Pairwise (·.1 < ·.1)) (hfirst : first <+: items) (hlast : first.getLast? = some p) :
    through p.1 items = first := by
  obtain ⟨rest, rfl⟩ := hfirst
  obtain ⟨init, rfl⟩ := List.getLast?_eq_some_iff.mp hlast
  obtain ⟨hsorted, -, hcross⟩ := List.pairwise_append.mp h
  rw [through, List.filter_append]
  have hkeep : (init ++ [p]).filter (·.1 ≤ p.1) = init ++ [p] := by
    refine List.filter_eq_self.mpr fun q hq => ?_
    simp only [decide_eq_true_eq]
    rcases List.mem_append.mp hq with hq | hq
    · exact ((List.pairwise_append.mp hsorted).2.2 q hq p (by simp)).le
    · rw [List.mem_singleton.mp hq]
  have hdrop : rest.filter (·.1 ≤ p.1) = [] := by
    refine List.filter_eq_nil_iff.mpr fun q hq => ?_
    have := hcross p (by simp) q hq
    simp only [decide_eq_true_eq]
    omega
  rw [hkeep, hdrop, List.append_nil]

/-- A key with the same last position has the same items. -/
theorem itemsOn_eq_of_last (h : lastPosition key k (log ++ more) = lastPosition key k log) :
    itemsOn key k (log ++ more) = itemsOn key k log := by
  rw [← through_of_le h.le, through_append lastPosition_le, through_of_le le_rfl]

/-- An item that was found is found in a longer log. -/
theorem firstFrom_append {n : Nat} {p : Nat × α} (h : firstFrom key k n log = some p) :
    firstFrom key k n (log ++ more) = some p := by
  unfold firstFrom at h ⊢
  rw [itemsOn_append, List.find?_append, h]
  rfl

/-- The first item from a position on, and the items from there on. -/
theorem firstFrom_eq_some {n : Nat} {p : Nat × α} (h : firstFrom key k n log = some p) :
    p ∈ itemsOn key k log ∧ n ≤ p.1 ∧
      (itemsOn key k log).filter (n ≤ ·.1) =
        p :: (itemsOn key k log).filter (p.1 + 1 ≤ ·.1) := by
  unfold firstFrom at h
  have hle : n ≤ p.1 := by simpa using List.find?_some h
  refine ⟨List.mem_of_find?_eq_some h, hle, ?_⟩
  obtain ⟨-, before, after, heq, hbefore⟩ := List.find?_eq_some_iff_append.mp h
  have hsorted := @itemsOn_pairwise _ _ _ key k log
  rw [heq, List.pairwise_append, List.pairwise_cons] at hsorted
  obtain ⟨-, ⟨hafter, -⟩, hcross⟩ := hsorted
  have hskip : before.filter (n ≤ ·.1) = [] := by
    refine List.filter_eq_nil_iff.mpr fun q hq => ?_
    simpa using hbefore q hq
  have hskip' : before.filter (p.1 + 1 ≤ ·.1) = [] := by
    refine List.filter_eq_nil_iff.mpr fun q hq => ?_
    have := hcross q hq p (by simp)
    simp only [decide_eq_true_eq]
    omega
  have hkeep : ∀ m, m ≤ p.1 + 1 → after.filter (m ≤ ·.1) = after := fun m hm => by
    refine List.filter_eq_self.mpr fun q hq => ?_
    have := hafter q hq
    simp only [decide_eq_true_eq]
    omega
  rw [heq, List.filter_append, hskip, List.nil_append, List.filter_cons, if_pos (by simpa using hle),
    List.filter_append, hskip', List.nil_append, List.filter_cons, if_neg (by simp),
    hkeep n (by omega), hkeep (p.1 + 1) le_rfl]

theorem firstFrom_eq_none {n : Nat} :
    firstFrom key k n log = none ↔ (itemsOn key k log).filter (n ≤ ·.1) = [] := by
  simp [firstFrom, List.filter_eq_nil_iff]

end Lib
