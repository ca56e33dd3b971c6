import Mathlib

/-!
# Binary search by a key

`binarySearchByKey xs target key` halves a range of a list until one element is left, and says
whether that element has the key. On a list whose keys go up it finds an element exactly if there
is one (`binarySearchByKey_eq_some`).
-/

namespace Lib

variable {α κ : Type} [LinearOrder κ]

/-- The start of the range of one element that is left of `size` elements from `base` on. Each
round halves the range, so `size` rounds are enough. -/
def searchLoop (xs : List α) (target : κ) (key : α → κ) : Nat → Nat → Nat → Nat
  | 0, base, _ => base
  | rounds + 1, base, size =>
    if size > 1 then
      searchLoop xs target key rounds
        (if xs[base + size / 2]?.any (fun x => target < key x) then base else base + size / 2)
        (size - size / 2)
    else base

/-- The index of an element with the key (`Ok` of `slice::binary_search_by_key`). -/
def binarySearchByKey (xs : List α) (target : κ) (key : α → κ) : Option Nat :=
  let base := searchLoop xs target key xs.length 0 xs.length
  if xs[base]?.any (fun x => key x = target) then some base else none

/-- The range keeps the element that is searched for. -/
theorem searchLoop_eq {xs : List α} {target : κ} {key : α → κ}
    (hsorted : (xs.map key).Pairwise (· < ·)) {i : Nat} (hi : i < xs.length)
    (htarget : key xs[i] = target) {rounds base size : Nat} (hrounds : size ≤ rounds + 1)
    (hbase : base ≤ i) (hsize : i < base + size) (hend : base + size ≤ xs.length) :
    searchLoop xs target key rounds base size = i := by
  have hlt : ∀ {m n} (hm : m < xs.length) (hn : n < xs.length), m < n → key xs[m] < key xs[n] := by
    intro m n hm hn hmn
    have h := List.pairwise_iff_getElem.mp hsorted m n (by simpa using hm) (by simpa using hn) hmn
    simpa using h
  induction rounds generalizing base size with
  | zero =>
    rw [searchLoop]
    omega
  | succ rounds ih =>
    rw [searchLoop]
    by_cases hbig : size > 1
    · rw [if_pos hbig]
      have hhalf : 0 < size / 2 ∧ size / 2 < size := by omega
      have hmid : base + size / 2 < xs.length := by omega
      rw [List.getElem?_eq_getElem hmid, Option.any_some]
      by_cases hleft : i < base + size / 2
      · rw [if_pos (by simpa [← htarget] using hlt hi hmid hleft)]
        exact ih (by omega) hbase (by omega) (by omega)
      · have hnot : ¬ target < key (xs[base + size / 2]) := by
          rw [← htarget, not_lt]
          rcases Nat.lt_or_ge (base + size / 2) i with h | h
          · exact le_of_lt (hlt hmid hi h)
          · obtain rfl : i = base + size / 2 := by omega
            exact le_rfl
        rw [if_neg (by simpa using hnot)]
        exact ih (by omega) (by omega) (by omega) (by omega)
    · rw [if_neg hbig]
      omega

/-- On keys that go up, the search finds an element exactly if there is one. -/
theorem binarySearchByKey_eq_some {xs : List α} {target : κ} {key : α → κ}
    (hsorted : (xs.map key).Pairwise (· < ·)) {i : Nat} :
    binarySearchByKey xs target key = some i ↔ ∃ x, xs[i]? = some x ∧ key x = target := by
  unfold binarySearchByKey
  constructor
  · intro h
    simp only [Option.ite_none_right_eq_some, Option.some.injEq] at h
    obtain ⟨hany, rfl⟩ := h
    cases hx : xs[searchLoop xs target key xs.length 0 xs.length]? with
    | none => simp [hx] at hany
    | some x => exact ⟨x, rfl, by simpa [hx] using hany⟩
  · rintro ⟨x, hx, hkey⟩
    obtain ⟨hi, rfl⟩ := List.getElem?_eq_some_iff.mp hx
    have hloop := searchLoop_eq hsorted hi hkey (Nat.le_succ xs.length) (Nat.zero_le i)
      (by omega) (by omega)
    simp only [hloop, hx, Option.any_some, hkey, decide_true, if_true]

end Lib
