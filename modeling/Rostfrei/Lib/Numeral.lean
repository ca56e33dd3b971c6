import Mathlib.Computability.RegularExpressions
import Mathlib.Tactic.Common

/-!
# Decimal numerals

The value of a text of decimal digits, by its first digit and its length (`value_cons`, `value_lt`),
whatever the zeros before it (`value_dropZeros`). Regular expressions for such texts are made of
`oneOf` and `literal`, and `mem_zeros_mul` takes the zeros before a numeral away.
-/

namespace Lib

/-! ## Values -/

/-- The number of a text of decimal digits. -/
def value (text : List Char) : Nat := Nat.ofDigitChars 10 text 0

/-- The number of one digit. -/
def digitValue (c : Char) : Nat := c.toNat - '0'.toNat

/-- A text of decimal digits. -/
def Digits (text : List Char) : Prop := ∀ c ∈ text, c.isDigit = true

theorem Digits.cons {c : Char} {text : List Char} :
    Digits (c :: text) ↔ c.isDigit = true ∧ Digits text :=
  List.forall_mem_cons

@[simp] theorem value_nil : value [] = 0 := rfl

theorem value_cons (c : Char) (text : List Char) :
    value (c :: text) = digitValue c * 10 ^ text.length + value text := by
  rw [value, Nat.ofDigitChars_cons, Nat.ofDigitChars_eq_ofDigitChars_zero, Nat.mul_zero, Nat.zero_add,
    Nat.mul_comm]
  rfl

theorem isDigit_iff {c : Char} : c.isDigit = true ↔ 48 ≤ c.toNat ∧ c.toNat ≤ 57 := by
  simp only [Char.isDigit, ge_iff_le, Bool.and_eq_true, decide_eq_true_eq]
  exact Iff.rfl

theorem digitValue_le {c : Char} (h : c.isDigit = true) : digitValue c ≤ 9 := by
  have hc := isDigit_iff.mp h
  have hzero : '0'.toNat = 48 := rfl
  rw [digitValue, hzero]
  omega

theorem digitValue_eq {c c' : Char} (h : c.isDigit = true) (h' : c'.isDigit = true)
    (heq : digitValue c = digitValue c') : c = c' := by
  have hc := isDigit_iff.mp h
  have hc' := isDigit_iff.mp h'
  have hzero : '0'.toNat = 48 := rfl
  rw [digitValue, digitValue, hzero] at heq
  exact Char.toNat_inj.mp (by omega)

theorem value_lt {text : List Char} (h : Digits text) : value text < 10 ^ text.length := by
  induction text with
  | nil => exact Nat.one_pos
  | cons c text ih =>
    obtain ⟨hc, htext⟩ := Digits.cons.mp h
    have hle := Nat.mul_le_mul_right (10 ^ text.length) (digitValue_le hc)
    have hlt := ih htext
    rw [value_cons, List.length_cons, Nat.pow_succ]
    omega

/-- Only zeros have the value zero. -/
theorem value_eq_zero {text : List Char} (h : Digits text) :
    value text = 0 ↔ ∀ c ∈ text, c = '0' := by
  induction text with
  | nil => simp
  | cons c text ih =>
    obtain ⟨hc, htext⟩ := Digits.cons.mp h
    have hpow : 0 < 10 ^ text.length := Nat.pow_pos (by omega)
    rw [value_cons, Nat.add_eq_zero_iff, ih htext, Nat.mul_eq_zero, List.forall_mem_cons]
    refine and_congr_left fun _ => ⟨fun hzero => ?_, fun hzero => ?_⟩
    · exact digitValue_eq hc (by decide) (hzero.resolve_right (by omega))
    · exact .inl (hzero ▸ by decide)

/-- Zeros before a numeral change nothing. -/
theorem value_dropZeros (text : List Char) : value (text.dropWhile (· = '0')) = value text := by
  induction text with
  | nil => rfl
  | cons c text ih =>
    by_cases hc : c = '0'
    · subst hc
      rw [List.dropWhile_cons_of_pos (by simp), ih, value_cons]
      simp [digitValue]
    · rw [List.dropWhile_cons_of_neg (by simpa using hc)]

theorem Digits.dropZeros {text : List Char} (h : Digits text) :
    Digits (text.dropWhile (· = '0')) :=
  fun c hc => h c (List.dropWhile_sublist _ |>.subset hc)

/-! ## Expressions -/

section Expressions

open RegularExpression

variable {α : Type*}

/-- One of the items. -/
def oneOf : List α → RegularExpression α
  | [] => 0
  | a :: items => char a + oneOf items

/-- The items themselves, one after another. -/
def literal : List α → RegularExpression α
  | [] => 1
  | a :: items => char a * literal items

theorem mem_oneOf {items text : List α} : text ∈ (oneOf items).matches' ↔ ∃ a ∈ items, text = [a] := by
  induction items with
  | nil => simp [oneOf]
  | cons a items ih =>
    rw [oneOf, matches'_add, Language.mem_add, ih, matches'_char, List.exists_mem_cons_iff]
    exact Iff.rfl

theorem mem_literal {items text : List α} : text ∈ (literal items).matches' ↔ text = items := by
  induction items generalizing text with
  | nil => simp [literal]
  | cons a items ih =>
    rw [literal, matches'_mul, Language.mem_mul, matches'_char]
    constructor
    · rintro ⟨_, rfl, rest, hrest, rfl⟩
      rw [ih.mp hrest]
      rfl
    · rintro rfl
      exact ⟨[a], rfl, items, ih.mpr rfl, rfl⟩

/-- So many items of a kind. -/
theorem mem_oneOf_pow {items text : List α} {n : Nat} :
    text ∈ (oneOf items ^ n).matches' ↔ text.length = n ∧ ∀ a ∈ text, a ∈ items := by
  rw [matches'_pow]
  induction n generalizing text with
  | zero =>
    rw [pow_zero, Language.mem_one, List.length_eq_zero_iff]
    exact ⟨fun h => ⟨h, h ▸ by simp⟩, fun h => h.1⟩
  | succ n ih =>
    rw [pow_succ', Language.mem_mul]
    constructor
    · rintro ⟨first, hfirst, rest, hrest, rfl⟩
      obtain ⟨a, ha, rfl⟩ := mem_oneOf.mp hfirst
      obtain ⟨hlength, hmem⟩ := ih.mp hrest
      exact ⟨by simp [hlength], List.forall_mem_cons.mpr ⟨ha, hmem⟩⟩
    · rintro ⟨hlength, hmem⟩
      obtain ⟨a, rest, rfl⟩ := List.exists_cons_of_length_eq_add_one hlength
      obtain ⟨ha, hrest⟩ := List.forall_mem_cons.mp hmem
      exact ⟨[a], mem_oneOf.mpr ⟨a, ha, rfl⟩, rest, ih.mpr ⟨by simpa using hlength, hrest⟩, rfl⟩

theorem mem_star_char {a : α} {text : List α} :
    text ∈ (star (char a)).matches' ↔ ∀ b ∈ text, b = a := by
  rw [matches'_star, Language.mem_kstar, matches'_char]
  constructor
  · rintro ⟨words, rfl, hwords⟩ b hb
    obtain ⟨word, hword, hb⟩ := List.mem_flatten.mp hb
    obtain rfl : word = [a] := hwords word hword
    exact List.mem_singleton.mp hb
  · intro h
    have hflatten : ∀ items : List α, items = (items.map fun b => [b]).flatten := by
      intro items
      induction items with
      | nil => rfl
      | cons b items ih => rw [List.map_cons, List.flatten_cons, ← ih, List.singleton_append]
    refine ⟨text.map fun b => [b], hflatten text, fun word hword => ?_⟩
    obtain ⟨b, hb, rfl⟩ := List.mem_map.mp hword
    exact congrArg (fun b => [b]) (h b hb)

/-- Zeros before texts that do not begin with one. -/
theorem mem_zeros_mul {P : RegularExpression Char} {text : List Char}
    (hP : ∀ word ∈ P.matches', ∃ c rest, word = c :: rest ∧ c ≠ '0') :
    text ∈ (star (char '0') * P).matches' ↔ text.dropWhile (· = '0') ∈ P.matches' := by
  rw [matches'_mul, Language.mem_mul]
  constructor
  · rintro ⟨zeros, hzeros, word, hword, rfl⟩
    obtain ⟨c, rest, rfl, hc⟩ := hP word hword
    rw [List.dropWhile_append_of_pos fun b hb => by simpa using mem_star_char.mp hzeros b hb,
      List.dropWhile_cons_of_neg (by simpa using hc)]
    exact hword
  · intro h
    refine ⟨text.takeWhile (· = '0'), mem_star_char.mpr fun b hb => ?_, _, h,
      List.takeWhile_append_dropWhile⟩
    simpa using List.all_eq_true.mp List.all_takeWhile b hb

end Expressions

end Lib
