import Mathlib

/-!
# Splitting at doubled items

`splitPairs a` takes a list apart at the places where `a` stands twice, from the left. Every item of
the list is in a part or in a separator (`intercalate_splitPairs`), and parts that have no doubled
`a` and do not end with `a` are given back (`splitPairs_intercalate`).

`parseUnsigned` is the number of a decimal text, with at most one plus before its digits.
-/

namespace Lib

section Pairs

variable {α : Type*} [DecidableEq α] {a : α}

/-- The parts between doubled items. -/
def splitPairs (a : α) : List α → List (List α)
  | [] => [[]]
  | [b] => [[b]]
  | b :: c :: rest =>
    if b = a ∧ c = a then [] :: splitPairs a rest
    else (splitPairs a (c :: rest)).modifyHead (b :: ·)

theorem splitPairs_ne_nil (l : List α) : splitPairs a l ≠ [] := by
  fun_induction splitPairs a l <;> simp_all

theorem intercalate_splitPairs (l : List α) : [a, a].intercalate (splitPairs a l) = l := by
  fun_induction splitPairs a l with
  | case1 => rfl
  | case2 b => simp [List.intercalate]
  | case3 b c rest h ih =>
    obtain ⟨rfl, hb⟩ := h
    subst hb
    obtain ⟨part, parts, hparts⟩ := List.exists_cons_of_ne_nil (splitPairs_ne_nil (a := c) rest)
    rw [hparts] at ih ⊢
    simpa [List.intercalate] using ih
  | case4 b c rest h ih =>
    obtain ⟨part, parts, hparts⟩ :=
      List.exists_cons_of_ne_nil (splitPairs_ne_nil (a := a) (c :: rest))
    rw [hparts] at ih ⊢
    rw [List.modifyHead_cons]
    cases parts <;> simpa [List.intercalate] using ih

/-- Parts that can be told from what is around them. -/
structure Part (a : α) (l : List α) : Prop where
  no_pair : ¬ [a, a] <:+: l
  last : l.getLast? ≠ some a

omit [DecidableEq α] in
theorem Part.of_not_mem {l : List α} (h : a ∉ l) : Part a l where
  no_pair hpair := h (hpair.subset List.mem_cons_self)
  last hlast := h (List.mem_of_getLast? hlast)

omit [DecidableEq α] in
theorem Part.tail {b c : α} {l : List α} (h : Part a (b :: c :: l)) : Part a (c :: l) where
  no_pair hpair := h.no_pair (hpair.trans (List.suffix_cons b (c :: l)).isInfix)
  last hlast := h.last (by rwa [List.getLast?_cons_cons])

omit [DecidableEq α] in
theorem Part.not_both {b c : α} {l : List α} (h : Part a (b :: c :: l)) : ¬ (b = a ∧ c = a) := by
  rintro ⟨rfl, rfl⟩
  exact h.no_pair ⟨[], l, rfl⟩

theorem splitPairs_part {l : List α} (h : Part a l) : splitPairs a l = [l] := by
  induction l with
  | nil => rfl
  | cons b l ih =>
    cases l with
    | nil => rfl
    | cons c l => rw [splitPairs, if_neg h.not_both, ih h.tail, List.modifyHead_cons]

theorem splitPairs_append {l : List α} (h : Part a l) (rest : List α) :
    splitPairs a (l ++ a :: a :: rest) = l :: splitPairs a rest := by
  induction l with
  | nil => simp [splitPairs]
  | cons b l ih =>
    cases l with
    | nil =>
      have hb : b ≠ a := fun heq => h.last (by simp [heq])
      simp [splitPairs, hb]
    | cons c l =>
      rw [List.cons_append, List.cons_append, splitPairs, if_neg h.not_both, ← List.cons_append,
        ih h.tail, List.modifyHead_cons]

theorem splitPairs_intercalate {ls : List (List α)} (hne : ls ≠ []) (h : ∀ l ∈ ls, Part a l) :
    splitPairs a ([a, a].intercalate ls) = ls := by
  induction ls with
  | nil => exact absurd rfl hne
  | cons l ls ih =>
    obtain ⟨hl, hls⟩ := List.forall_mem_cons.mp h
    cases ls with
    | nil => simpa [List.intercalate] using splitPairs_part hl
    | cons l' ls =>
      have hjoin : [a, a].intercalate (l :: l' :: ls) =
          l ++ a :: a :: [a, a].intercalate (l' :: ls) := by
        simp [List.intercalate]
      rw [hjoin, splitPairs_append hl, ih (by simp) hls]

omit [DecidableEq α] in
/-- The items of joined parts. -/
theorem of_mem_intercalate {sep : List α} {ls : List (List α)} (h : a ∈ sep.intercalate ls) :
    a ∈ sep ∨ ∃ l ∈ ls, a ∈ l := by
  induction ls with
  | nil => simp [List.intercalate] at h
  | cons l ls ih =>
    cases ls with
    | nil => exact .inr ⟨l, List.mem_cons_self, by simpa [List.intercalate] using h⟩
    | cons l' ls =>
      rw [List.intercalate_cons_cons, List.mem_append, List.mem_append] at h
      rcases h with (h | h) | h
      · exact .inr ⟨l, List.mem_cons_self, h⟩
      · exact .inl h
      · exact (ih h).imp_right fun ⟨l, hl, ha⟩ => ⟨l, List.mem_cons_of_mem _ hl, ha⟩

end Pairs

/-! ## Decimal texts -/

/-- The digits after a plus, or all of the text. -/
def afterPlus : List Char → List Char
  | '+' :: rest => rest
  | chars => chars

/-- `str::parse` for an unsigned integer: decimal digits, with at most one plus before them. -/
def parseUnsigned (bits : Nat) (text : List Char) : Option Nat :=
  let digits := afterPlus text
  let value := Nat.ofDigitChars 10 digits 0
  if digits ≠ [] ∧ digits.all Char.isDigit ∧ value < 2 ^ bits then some value else none

theorem afterPlus_toDigits (n : Nat) : afterPlus (Nat.toDigits 10 n) = Nat.toDigits 10 n := by
  unfold afterPlus
  split
  · next rest heq =>
    have hmem : '+' ∈ Nat.toDigits 10 n := by simp [heq]
    exact absurd (Nat.isDigit_of_mem_toDigits (by omega) (by omega) hmem) (by decide)
  · rfl

/-- The decimal text of a number is read back. -/
theorem parseUnsigned_toDigits {bits n : Nat} (h : n < 2 ^ bits) :
    parseUnsigned bits (Nat.toDigits 10 n) = some n := by
  have hall : (Nat.toDigits 10 n).all Char.isDigit = true := by
    rw [List.all_eq_true]
    exact fun c hc => Nat.isDigit_of_mem_toDigits (by omega) (by omega) hc
  unfold parseUnsigned
  simp only [afterPlus_toDigits, Nat.ofDigitChars_ten_toDigits, hall, h, and_true]
  exact if_pos Nat.toDigits_ne_nil

theorem lt_of_parseUnsigned {bits n : Nat} {text : List Char} (h : parseUnsigned bits text = some n) :
    n < 2 ^ bits := by
  obtain ⟨hdigits, hvalue⟩ := Option.ite_none_right_eq_some.mp h
  exact Option.some.inj hvalue ▸ hdigits.2.2

end Lib
