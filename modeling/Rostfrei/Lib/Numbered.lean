import Mathlib.Data.List.Basic

/-!
# Numbered logs

A log whose entries are numbered from `first` on, without gaps, and readers with a cursor: the
number of the last entry that they have read. `f` is the number of an entry.
-/

namespace Lib

universe u

variable {α : Type u} {f : α → Nat} {first : Nat} {log before rest : List α} {a : α}

def Numbered (f : α → Nat) (first : Nat) (log : List α) : Prop :=
  log.map f = List.range' first log.length

namespace Numbered

theorem nil : Numbered f first [] := rfl

theorem cons_iff : Numbered f first (a :: log) ↔ f a = first ∧ Numbered f (first + 1) log := by
  rw [Numbered, List.map_cons, List.length_cons, List.range'_succ, List.cons.injEq, Numbered]

/-- One more entry, with the next number. -/
theorem snoc (h : Numbered f first log) (ha : f a = first + log.length) :
    Numbered f first (log ++ [a]) := by
  rw [Numbered, List.map_append, h, List.length_append, List.length_singleton, List.range'_concat]
  simp [ha]

/-- The end of a log. -/
theorem window (h : Numbered f first (before ++ rest)) :
    Numbered f (before.length + first) rest := by
  induction before generalizing first with
  | nil => simpa using h
  | cons b before ih =>
    have := ih (cons_iff.mp h).2
    rwa [List.length_cons, Nat.add_right_comm]

theorem getElem? (h : Numbered f first log) {i : Nat} (ha : log[i]? = some a) : f a = first + i := by
  have hmap := congrArg (·[i]?) h
  obtain ⟨hlt, -⟩ := List.getElem?_eq_some_iff.mp ha
  simp only [List.getElem?_map, ha, Option.map_some, List.getElem?_range' hlt,
    Option.some.injEq] at hmap
  omega

theorem head? (h : Numbered f first log) (ha : log.head? = some a) : f a = first := by
  rw [List.head?_eq_getElem?] at ha
  simpa using h.getElem? ha

/-- The first entry after a cursor is the next one. -/
theorem find? (h : Numbered f (first + 1) log) (cursor : Nat) :
    log.find? (fun a => f a > first + cursor) = log[cursor]? := by
  induction log generalizing first cursor with
  | nil => rfl
  | cons b log ih =>
    obtain ⟨hb, hrest⟩ := cons_iff.mp h
    rcases cursor with _ | cursor
    · rw [List.find?_cons_of_pos (by simp [hb]), List.getElem?_cons_zero]
    · rw [List.find?_cons_of_neg (by simp [hb]), List.getElem?_cons_succ, ← ih hrest cursor]
      congr 1
      funext b
      rw [Nat.add_right_comm, Nat.add_assoc]

/-- A cursor before the start of a log is before all of its entries. -/
theorem find?_of_lt (h : Numbered f first log) {cursor : Nat} (hcursor : cursor < first) :
    log.find? (fun a => f a > cursor) = log.head? := by
  cases log with
  | nil => rfl
  | cons b log => rw [List.find?_cons_of_pos (by simp [(cons_iff.mp h).1, hcursor]), List.head?_cons]

end Numbered

/-- What a reader has read, after one more entry. -/
theorem drop_take_succ {start cursor : Nat} (hle : start ≤ cursor) (ha : log[cursor]? = some a) :
    (log.take (cursor + 1)).drop start = (log.take cursor).drop start ++ [a] := by
  obtain ⟨hlt, rfl⟩ := List.getElem?_eq_some_iff.mp ha
  rw [List.take_succ_eq_append_getElem hlt, List.drop_append_of_le_length]
  rw [List.length_take]
  exact Nat.le_min.mpr ⟨hle, Nat.le_trans hle (Nat.le_of_lt hlt)⟩

end Lib
