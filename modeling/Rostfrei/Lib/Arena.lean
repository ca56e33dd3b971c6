import Mathlib

/-!
# Arenas

Shared values, which are referred to by their number. A number is never used again. `total` is the
sum of a weight over the values that are still there.
-/

namespace Lib

universe u

variable {α : Type u}

structure Arena (α : Type u) where
  cells : List (Option α)

namespace Arena

def empty : Arena α := ⟨[]⟩

def get? (arena : Arena α) (i : Nat) : Option α := arena.cells[i]?.join

/-- The number of the next value. -/
def next (arena : Arena α) : Nat := arena.cells.length

def alloc (arena : Arena α) (a : α) : Arena α := ⟨arena.cells ++ [some a]⟩

def set (arena : Arena α) (i : Nat) (a : α) : Arena α := ⟨arena.cells.set i (some a)⟩

def free (arena : Arena α) (i : Nat) : Arena α := ⟨arena.cells.set i none⟩

def total (weight : α → Nat) (arena : Arena α) : Nat :=
  (arena.cells.map fun cell => cell.elim 0 weight).sum

variable {arena : Arena α} {a b : α} {i j : Nat} {weight : α → Nat}

@[simp] theorem get?_empty : (empty : Arena α).get? i = none := rfl

@[simp] theorem total_empty : (empty : Arena α).total weight = 0 := rfl

theorem get?_eq_some : arena.get? i = some a ↔ arena.cells[i]? = some (some a) := by
  rw [get?, Option.join_eq_some_iff]

theorem lt_next (h : arena.get? i = some a) : i < arena.next :=
  (List.getElem?_eq_some_iff.mp (get?_eq_some.mp h)).1

theorem get?_next : arena.get? arena.next = none := by
  rw [get?, next, List.getElem?_eq_none (Nat.le_refl _), Option.join_none]

@[simp] theorem get?_alloc_next : (arena.alloc a).get? arena.next = some a := by
  rw [get?_eq_some, alloc, next, List.getElem?_concat_length]

theorem get?_alloc (h : arena.get? i = some b) : (arena.alloc a).get? i = some b := by
  rw [get?_eq_some, alloc, List.getElem?_append_left (lt_next h)]
  exact get?_eq_some.mp h

theorem get?_alloc_of_ne (h : i ≠ arena.next) : (arena.alloc a).get? i = arena.get? i := by
  rcases Nat.lt_or_ge i arena.next with hlt | hge
  · rw [get?, alloc, List.getElem?_append_left hlt, get?]
  · have hlength : (arena.cells ++ [some a]).length ≤ i := by
      rw [List.length_append]
      exact Nat.lt_of_le_of_ne hge (Ne.symm h)
    rw [get?, alloc, List.getElem?_eq_none hlength, get?, List.getElem?_eq_none hge]

theorem get?_set_self (h : arena.get? i = some a) : (arena.set i b).get? i = some b := by
  rw [get?_eq_some, set, List.getElem?_set_self (lt_next h)]

theorem get?_set_of_ne (h : i ≠ j) : (arena.set i b).get? j = arena.get? j := by
  rw [get?, set, List.getElem?_set_ne h, get?]

theorem set_self (h : arena.get? i = some a) : arena.set i a = arena := by
  obtain ⟨hlt, hcell⟩ := List.getElem?_eq_some_iff.mp (get?_eq_some.mp h)
  rw [set, ← hcell, List.set_getElem_self]

theorem get?_free_of_ne (h : i ≠ j) : (arena.free i).get? j = arena.get? j := by
  rw [get?, free, List.getElem?_set_ne h, get?]

theorem get?_free_self (h : arena.get? i = some a) : (arena.free i).get? i = none := by
  rw [get?, free, List.getElem?_set_self (lt_next h), Option.join_some]

@[simp] theorem total_alloc : (arena.alloc a).total weight = arena.total weight + weight a := by
  simp [total, alloc]

theorem sum_map_set {cells : List (Option α)} {cell new : Option α} (f : Option α → Nat)
    (h : cells[i]? = some cell) :
    ((cells.set i new).map f).sum + f cell = (cells.map f).sum + f new := by
  induction cells generalizing i with
  | nil => simp at h
  | cons first cells ih =>
    cases i with
    | zero =>
      obtain rfl : first = cell := by simpa using h
      simp only [List.set_cons_zero, List.map_cons, List.sum_cons]
      omega
    | succ i =>
      have := ih (by simpa using h)
      simp only [List.set_cons_succ, List.map_cons, List.sum_cons]
      omega

theorem total_set (h : arena.get? i = some a) :
    (arena.set i b).total weight + weight a = arena.total weight + weight b :=
  sum_map_set _ (get?_eq_some.mp h)

theorem total_free (h : arena.get? i = some a) :
    (arena.free i).total weight + weight a = arena.total weight :=
  sum_map_set _ (get?_eq_some.mp h)

theorem le_total (h : arena.get? i = some a) : weight a ≤ arena.total weight := by
  have := @total_free _ _ _ _ weight h
  omega

end Arena

end Lib
