import Rostfrei.Lib.Fallible
import Rostfrei.Lib.Numeral
import Rostfrei.Lib.Split

/-!
# Test timeouts

`TestTimeout` of `behavioral.rs`: a duration of up to one minute, written as a number of milliseconds
or of seconds, and the pattern of `BehavioralTimeoutSchema` for its text, as a regular expression.

`test_timeout_exact`: a text is read if and only if it is of the pattern, the number that it denotes is
the timeout, and the text that is shown of a timeout is read as the same timeout.
-/

namespace Rostfrei.Tracer

open Lib

/-! ## Reading and showing -/

def maxTestTimeoutMillis : Nat := 60000

structure TestTimeout where
  millis : Nat
deriving DecidableEq, Repr

inductive TestTimeoutParseError where
  | invalidFormat
  | outOfRange
deriving DecidableEq, Repr

/-- `u64::checked_mul`. -/
def checkedMul (a b : Nat) : Option Nat := if a * b < 2 ^ 64 then some (a * b) else none

namespace TestTimeout

/-- The number of a text with its unit, in milliseconds. -/
def unitOf (text : List Char) : Option (List Char × Nat) :=
  match text.dropSuffix? ['m', 's'] with
  | some number => some (number, 1)
  | none => (text.dropSuffix? ['s']).map fun number => (number, 1000)

/-- `FromStr`. -/
def fromStr (text : String) : Except TestTimeoutParseError TestTimeout := do
  let (number, multiplier) ← okOr .invalidFormat (unitOf text.toList)
  rejectIf (number = [] ∨ ¬ number.all Char.isDigit) .invalidFormat
  let millis ← okOr .outOfRange (((parseUnsigned 64 number).bind (checkedMul · multiplier)).filter
    fun millis => 1 ≤ millis ∧ millis ≤ maxTestTimeoutMillis)
  return ⟨millis⟩

/-- `Display`. -/
def display (t : TestTimeout) : String :=
  if t.millis % 1000 = 0 then toString (t.millis / 1000) ++ "s" else toString t.millis ++ "ms"

end TestTimeout

/-! ## The pattern -/

section Pattern

open RegularExpression

/-- `[0-9]`. -/
def digits : List Char := ['0', '1', '2', '3', '4', '5', '6', '7', '8', '9']

/-- `[1-9]`. -/
def nonzeroDigits : List Char := ['1', '2', '3', '4', '5', '6', '7', '8', '9']

/-- `[1-5]`. -/
def digitsToFive : List Char := ['1', '2', '3', '4', '5']

/-- `[1-9]|[1-9][0-9]{1,3}|[1-5][0-9]{4}|60000`. -/
def millisPattern : RegularExpression Char :=
  oneOf nonzeroDigits
    + oneOf nonzeroDigits * (oneOf digits ^ 1 + oneOf digits ^ 2 + oneOf digits ^ 3)
    + oneOf digitsToFive * oneOf digits ^ 4
    + literal ['6', '0', '0', '0', '0']

/-- `[1-9]|[1-5][0-9]|60`. -/
def secondsPattern : RegularExpression Char :=
  oneOf nonzeroDigits
    + oneOf digitsToFive * oneOf digits
    + literal ['6', '0']

/-- The pattern of `BehavioralTimeoutSchema`. -/
def timeoutPattern : RegularExpression Char :=
  star (char '0') * (millisPattern * literal ['m', 's'] + secondsPattern * literal ['s'])

end Pattern

/-! ## Numbers in range -/

/-- A text of digits in the range of a unit. -/
def InRange (multiplier : Nat) (number : List Char) : Prop :=
  Digits number ∧ 1 ≤ value number * multiplier ∧ value number * multiplier ≤ maxTestTimeoutMillis

theorem InRange.ne_nil {multiplier : Nat} {number : List Char} (h : InRange multiplier number) :
    number ≠ [] := by
  rintro rfl
  have := h.2.1
  rw [value_nil, Nat.zero_mul] at this
  omega

theorem parseUnsigned_digits {bits : Nat} {number : List Char} (h : Digits number)
    (hne : number ≠ []) : parseUnsigned bits number =
      if value number < 2 ^ bits then some (value number) else none := by
  have hplus : afterPlus number = number := by
    unfold afterPlus
    split
    · exact absurd (h '+' List.mem_cons_self) (by decide)
    · rfl
  have hall : number.all Char.isDigit = true := List.all_eq_true.mpr h
  simp only [parseUnsigned, hplus, hall, hne, ne_eq, not_false_eq_true, true_and]
  rfl

/-- A text is read as what it denotes, if that is in range. -/
theorem fromStr_eq_ok {text : String} {t : TestTimeout} : TestTimeout.fromStr text = .ok t ↔
    ∃ number multiplier, TestTimeout.unitOf text.toList = some (number, multiplier) ∧
      InRange multiplier number ∧ t.millis = value number * multiplier := by
  have hcheck : ∀ {number : List Char} {multiplier millis : Nat}, Digits number → number ≠ [] →
      (((parseUnsigned 64 number).bind (checkedMul · multiplier)).filter
        (fun millis => 1 ≤ millis ∧ millis ≤ maxTestTimeoutMillis) = some millis ↔
      1 ≤ millis ∧ millis ≤ maxTestTimeoutMillis ∧ millis = value number * multiplier) := by
    intro number multiplier millis hdigits hne
    rw [Option.filter_eq_some_iff, Option.bind_eq_some_iff, parseUnsigned_digits hdigits hne]
    simp only [decide_eq_true_eq, checkedMul, Option.ite_none_right_eq_some, Option.some.injEq]
    constructor
    · rintro ⟨⟨_, ⟨-, rfl⟩, -, rfl⟩, hlow, hhigh⟩
      exact ⟨hlow, hhigh, rfl⟩
    · rintro ⟨hlow, hhigh, rfl⟩
      -- a number in range and its product are far from the end of the type
      have hbound : maxTestTimeoutMillis < 2 ^ 64 := by decide
      have hmultiplier : 1 ≤ multiplier := Nat.one_le_iff_ne_zero.mpr (by rintro rfl; omega)
      have hle : value number ≤ value number * multiplier := Nat.le_mul_of_pos_right _ hmultiplier
      exact ⟨⟨value number, ⟨by omega, rfl⟩, by omega, rfl⟩, hlow, hhigh⟩
  simp only [TestTimeout.fromStr, bind_eq_ok, pure_eq_ok, okOr_eq_ok, rejectIf_eq_ok]
  constructor
  · rintro ⟨⟨number, multiplier⟩, hunit, _, hformat, millis, hmillis, rfl⟩
    rw [not_or, not_not] at hformat
    have hdigits : Digits number := List.all_eq_true.mp hformat.2
    obtain ⟨hlow, hhigh, rfl⟩ := (hcheck hdigits hformat.1).mp hmillis
    exact ⟨number, multiplier, hunit, ⟨hdigits, hlow, hhigh⟩, rfl⟩
  · rintro ⟨number, multiplier, hunit, hrange, hmillis⟩
    refine ⟨(number, multiplier), hunit, (), ?_, t.millis, (hcheck hrange.1 hrange.ne_nil).mpr
      ⟨hmillis ▸ hrange.2.1, hmillis ▸ hrange.2.2, hmillis⟩, rfl⟩
    exact not_or.mpr ⟨hrange.ne_nil, not_not.mpr (List.all_eq_true.mpr hrange.1)⟩

/-! ## Shapes -/

theorem digits_spec : ∀ c ∈ digits, c.isDigit = true := by simp [digits]

theorem nonzeroDigits_spec : ∀ c ∈ nonzeroDigits, c.isDigit = true ∧ 1 ≤ digitValue c := by
  simp [nonzeroDigits, digitValue]

theorem digitsToFive_spec :
    ∀ c ∈ digitsToFive, c.isDigit = true ∧ 1 ≤ digitValue c ∧ digitValue c ≤ 5 := by
  simp [digitsToFive, digitValue]

/-- A digit is one of a list if its number is. -/
theorem mem_of_digitValue {c : Char} {items : List Char} (h : c.isDigit = true)
    (hitems : Digits items) (hvalue : digitValue c ∈ items.map digitValue) : c ∈ items := by
  obtain ⟨d, hd, heq⟩ := List.mem_map.mp hvalue
  exact digitValue_eq (hitems d hd) h heq ▸ hd

theorem mem_digits {c : Char} : c ∈ digits ↔ c.isDigit = true := by
  refine ⟨digits_spec c, fun h => mem_of_digitValue h digits_spec ?_⟩
  have hle := digitValue_le h
  have hvalues : digits.map digitValue = [0, 1, 2, 3, 4, 5, 6, 7, 8, 9] := rfl
  rw [hvalues]
  simp only [List.mem_cons, List.not_mem_nil]
  omega

/-- A digit that is no zero. -/
theorem mem_nonzeroDigits {c : Char} : c ∈ nonzeroDigits ↔ c.isDigit = true ∧ 1 ≤ digitValue c := by
  refine ⟨nonzeroDigits_spec c, fun ⟨h, hlow⟩ =>
    mem_of_digitValue h (fun d hd => (nonzeroDigits_spec d hd).1) ?_⟩
  have hle := digitValue_le h
  have hvalues : nonzeroDigits.map digitValue = [1, 2, 3, 4, 5, 6, 7, 8, 9] := rfl
  rw [hvalues]
  simp only [List.mem_cons, List.not_mem_nil]
  omega

theorem mem_digitsToFive {c : Char} : c ∈ digitsToFive ↔
    c.isDigit = true ∧ 1 ≤ digitValue c ∧ digitValue c ≤ 5 := by
  refine ⟨digitsToFive_spec c, fun ⟨h, hlow, hhigh⟩ =>
    mem_of_digitValue h (fun d hd => (digitsToFive_spec d hd).1) ?_⟩
  have hvalues : digitsToFive.map digitValue = [1, 2, 3, 4, 5] := rfl
  rw [hvalues]
  simp only [List.mem_cons, List.not_mem_nil]
  omega

/-- A numeral without zeros before it: its first digit and the rest. -/
structure Numeral (c : Char) (rest : List Char) : Prop where
  first : c.isDigit = true
  nonzero : 1 ≤ digitValue c
  rest : Digits rest

section Shapes

open RegularExpression

/-- A first digit of a kind and so many digits after it. -/
theorem mem_first_mul {items text : List Char} {n : Nat} :
    text ∈ (oneOf items).matches' * (oneOf digits ^ n).matches' ↔
      ∃ c rest, text = c :: rest ∧ c ∈ items ∧ rest.length = n ∧ Digits rest := by
  rw [Language.mem_mul]
  constructor
  · rintro ⟨first, hfirst, rest, hrest, rfl⟩
    obtain ⟨c, hc, rfl⟩ := mem_oneOf.mp hfirst
    obtain ⟨hlength, hmem⟩ := mem_oneOf_pow.mp hrest
    exact ⟨c, rest, rfl, hc, hlength, fun d hd => mem_digits.mp (hmem d hd)⟩
  · rintro ⟨c, rest, rfl, hc, hlength, hrest⟩
    exact ⟨[c], mem_oneOf.mpr ⟨c, hc, rfl⟩, rest,
      mem_oneOf_pow.mpr ⟨hlength, fun d hd => mem_digits.mpr (hrest d hd)⟩, rfl⟩

/-- The bounds that a numeral's first digit gives. -/
theorem Numeral.bounds {c : Char} {rest : List Char} (h : Numeral c rest) :
    digitValue c * 10 ^ rest.length ≤ value (c :: rest) ∧
      value (c :: rest) < (digitValue c + 1) * 10 ^ rest.length := by
  have hlt := value_lt h.rest
  rw [value_cons, Nat.add_mul, Nat.one_mul]
  omega

/-- The numerals up to a six with zeros after it: the shorter ones, those of its length with a lesser
first digit, and itself. -/
theorem Numeral.le_iff {c : Char} {rest : List Char} {k : Nat} (h : Numeral c rest) :
    value (c :: rest) ≤ 6 * 10 ^ k ↔ rest.length < k ∨ (rest.length = k ∧ digitValue c ≤ 5) ∨
      c :: rest = '6' :: List.replicate k '0' := by
  obtain ⟨hlow, hhigh⟩ := h.bounds
  constructor
  · intro hle
    rcases Nat.lt_trichotomy rest.length k with hlt | heq | hgt
    · exact .inl hlt
    · subst heq
      have hpow : 0 < 10 ^ rest.length := Nat.pow_pos (by omega)
      have hdigit : digitValue c ≤ 6 := Nat.le_of_mul_le_mul_right (hlow.trans hle) hpow
      rcases Nat.lt_or_eq_of_le hdigit with hlt | hsix
      · exact .inr (.inl ⟨rfl, by omega⟩)
      · -- a six leaves nothing for the digits after it
        have hzero : value rest = 0 := by
          rw [value_cons, hsix] at hle
          omega
        have hc : c = '6' := digitValue_eq h.first rfl hsix
        have hrest := List.eq_replicate_of_mem ((value_eq_zero h.rest).mp hzero)
        exact .inr (.inr (hc ▸ congrArg (c :: ·) hrest))
    · have hpow : 10 ^ (k + 1) ≤ 10 ^ rest.length := Nat.pow_le_pow_right (by omega) hgt
      have hfirst := Nat.mul_le_mul_right (10 ^ rest.length) h.nonzero
      have hpos : 0 < 10 ^ k := Nat.pow_pos (by omega)
      rw [Nat.pow_succ] at hpow
      omega
  · rintro (hlt | ⟨rfl, hdigit⟩ | heq)
    · have hpow : 10 ^ (rest.length + 1) ≤ 10 ^ k := Nat.pow_le_pow_right (by omega) hlt
      have hnine := Nat.mul_le_mul_right (10 ^ rest.length)
        (Nat.add_le_add_right (digitValue_le h.first) 1)
      rw [Nat.pow_succ] at hpow
      omega
    · have hfive := Nat.mul_le_mul_right (10 ^ rest.length) (Nat.add_le_add_right hdigit 1)
      omega
    · rw [heq, value_cons, List.length_replicate,
        (value_eq_zero fun d hd => List.eq_of_mem_replicate hd ▸ rfl).mpr
          fun d hd => List.eq_of_mem_replicate hd]
      exact Nat.le_refl _

theorem mem_millisPattern {text : List Char} : text ∈ millisPattern.matches' ↔
    ∃ c rest, text = c :: rest ∧ Numeral c rest ∧ value (c :: rest) ≤ 6 * 10 ^ 4 := by
  simp only [millisPattern, matches'_add, matches'_mul, mul_add, Language.mem_add, mem_first_mul,
    mem_oneOf, mem_literal, mem_nonzeroDigits, mem_digitsToFive]
  constructor
  · rintro (((⟨c, ⟨hc, hnonzero⟩, rfl⟩ | hmore) | ⟨c, rest, rfl, ⟨hc, hnonzero, hfive⟩, hlength, hrest⟩)
      | rfl)
    · have hnumeral : Numeral c [] := ⟨hc, hnonzero, by simp [Digits]⟩
      exact ⟨c, [], rfl, hnumeral, hnumeral.le_iff.mpr (.inl (by simp))⟩
    · obtain ⟨c, rest, rfl, ⟨hc, hnonzero⟩, hlength, hrest⟩ : ∃ c rest, text = c :: rest ∧
          (c.isDigit = true ∧ 1 ≤ digitValue c) ∧ rest.length < 4 ∧ Digits rest := by
        rcases hmore with (hone | htwo) | hthree
        · obtain ⟨c, rest, htext, hc, hlength, hrest⟩ := hone
          exact ⟨c, rest, htext, hc, by omega, hrest⟩
        · obtain ⟨c, rest, htext, hc, hlength, hrest⟩ := htwo
          exact ⟨c, rest, htext, hc, by omega, hrest⟩
        · obtain ⟨c, rest, htext, hc, hlength, hrest⟩ := hthree
          exact ⟨c, rest, htext, hc, by omega, hrest⟩
      have hnumeral : Numeral c rest := ⟨hc, hnonzero, hrest⟩
      exact ⟨c, rest, rfl, hnumeral, hnumeral.le_iff.mpr (.inl hlength)⟩
    · have hnumeral : Numeral c rest := ⟨hc, hnonzero, hrest⟩
      exact ⟨c, rest, rfl, hnumeral, hnumeral.le_iff.mpr (.inr (.inl ⟨hlength, hfive⟩))⟩
    · exact ⟨'6', _, rfl, ⟨rfl, by decide, by simp [Digits]⟩, by decide⟩
  · rintro ⟨c, rest, rfl, h, hle⟩
    rcases h.le_iff.mp hle with hlt | ⟨hlength, hfive⟩ | heq
    · obtain hzero | hone | htwo | hthree :
          rest.length = 0 ∨ rest.length = 1 ∨ rest.length = 2 ∨ rest.length = 3 := by omega
      · obtain rfl := List.length_eq_zero_iff.mp hzero
        exact .inl (.inl (.inl ⟨c, ⟨h.first, h.nonzero⟩, rfl⟩))
      · exact .inl (.inl (.inr (.inl (.inl ⟨c, rest, rfl, ⟨h.first, h.nonzero⟩, hone, h.rest⟩))))
      · exact .inl (.inl (.inr (.inl (.inr ⟨c, rest, rfl, ⟨h.first, h.nonzero⟩, htwo, h.rest⟩))))
      · exact .inl (.inl (.inr (.inr ⟨c, rest, rfl, ⟨h.first, h.nonzero⟩, hthree, h.rest⟩)))
    · exact .inl (.inr ⟨c, rest, rfl, ⟨h.first, h.nonzero, hfive⟩, hlength, h.rest⟩)
    · exact .inr heq

theorem mem_secondsPattern {text : List Char} : text ∈ secondsPattern.matches' ↔
    ∃ c rest, text = c :: rest ∧ Numeral c rest ∧ value (c :: rest) ≤ 6 * 10 ^ 1 := by
  have hone : (oneOf digits).matches' = (oneOf digits ^ 1).matches' := by
    rw [matches'_pow, pow_one]
  simp only [secondsPattern, matches'_add, matches'_mul, hone, Language.mem_add, mem_first_mul,
    mem_oneOf, mem_literal, mem_nonzeroDigits, mem_digitsToFive]
  constructor
  · rintro ((⟨c, ⟨hc, hnonzero⟩, rfl⟩ | ⟨c, rest, rfl, ⟨hc, hnonzero, hfive⟩, hlength, hrest⟩) | rfl)
    · have hnumeral : Numeral c [] := ⟨hc, hnonzero, by simp [Digits]⟩
      exact ⟨c, [], rfl, hnumeral, hnumeral.le_iff.mpr (.inl (by simp))⟩
    · have hnumeral : Numeral c rest := ⟨hc, hnonzero, hrest⟩
      exact ⟨c, rest, rfl, hnumeral, hnumeral.le_iff.mpr (.inr (.inl ⟨hlength, hfive⟩))⟩
    · exact ⟨'6', _, rfl, ⟨rfl, by decide, by simp [Digits]⟩, by decide⟩
  · rintro ⟨c, rest, rfl, h, hle⟩
    rcases h.le_iff.mp hle with hlt | ⟨hlength, hfive⟩ | heq
    · obtain rfl := List.length_eq_zero_iff.mp (Nat.lt_one_iff.mp hlt)
      exact .inl (.inl ⟨c, ⟨h.first, h.nonzero⟩, rfl⟩)
    · exact .inl (.inr ⟨c, rest, rfl, ⟨h.first, h.nonzero, hfive⟩, hlength, h.rest⟩)
    · exact .inr heq

/-- A shape up to a bound, with zeros before it. -/
theorem mem_zeros_mul_iff {P : RegularExpression Char} {bound : Nat} {number : List Char}
    (hP : ∀ {word : List Char}, word ∈ P.matches' ↔
      ∃ c rest, word = c :: rest ∧ Numeral c rest ∧ value (c :: rest) ≤ bound) :
    number ∈ (star (char '0') * P).matches' ↔
      Digits number ∧ 1 ≤ value number ∧ value number ≤ bound := by
  rw [mem_zeros_mul fun word hword => ?first, hP]
  case first =>
    obtain ⟨c, rest, rfl, h, -⟩ := hP.mp hword
    refine ⟨c, rest, rfl, fun hzero => absurd h.nonzero ?_⟩
    rw [hzero]
    decide
  constructor
  · rintro ⟨c, rest, htext, h, hle⟩
    have hvalue : value number = value (c :: rest) := htext ▸ (value_dropZeros number).symm
    have hdigits : Digits number := by
      rw [← List.takeWhile_append_dropWhile (p := (· = '0')) (l := number), htext]
      refine fun d hd => (List.mem_append.mp hd).elim (fun hzero => ?_) (Digits.cons.mpr ⟨h.first, h.rest⟩ d)
      have heq : d = '0' := by simpa using List.all_eq_true.mp List.all_takeWhile d hzero
      rw [heq]
      rfl
    have hpos : 0 < 10 ^ rest.length := Nat.pow_pos (by omega)
    have hlow := Nat.mul_le_mul h.nonzero hpos
    exact ⟨hdigits, hvalue ▸ hlow.trans h.bounds.1, hvalue ▸ hle⟩
  · rintro ⟨hdigits, hlow, hhigh⟩
    rw [← value_dropZeros] at hlow hhigh
    have hdrop := hdigits.dropZeros
    generalize hword : number.dropWhile (· = '0') = word at hlow hhigh hdrop
    cases word with
    | nil => exact absurd hlow (by decide)
    | cons c rest =>
      obtain ⟨hc, hrest⟩ := Digits.cons.mp hdrop
      -- what is left does not begin with a zero
      have hne : c ≠ '0' := by
        have hhead := List.head?_dropWhile_not (· = '0') number
        rw [hword] at hhead
        simpa using hhead
      have hnonzero : digitValue c ≠ 0 := fun hzero => hne (digitValue_eq hc rfl hzero)
      exact ⟨c, rest, rfl, ⟨hc, by omega, hrest⟩, hhigh⟩

/-- The texts of the pattern: a number in range and its unit. -/
theorem mem_timeoutPattern {text : List Char} : text ∈ timeoutPattern.matches' ↔
    (∃ number, text = number ++ ['m', 's'] ∧ InRange 1 number) ∨
      ∃ number, text = number ++ ['s'] ∧ InRange 1000 number := by
  have hunit : ∀ {P : RegularExpression Char} {unit : List Char},
      text ∈ (star (char '0') * (P * literal unit)).matches' ↔
        ∃ number, text = number ++ unit ∧ number ∈ (star (char '0') * P).matches' := by
    intro P unit
    simp only [matches'_mul, ← mul_assoc]
    rw [Language.mem_mul]
    constructor
    · rintro ⟨number, hnumber, word, hword, rfl⟩
      exact ⟨number, mem_literal.mp hword ▸ rfl, hnumber⟩
    · rintro ⟨number, rfl, hnumber⟩
      exact ⟨number, hnumber, unit, mem_literal.mpr rfl, rfl⟩
  have hsum : text ∈ timeoutPattern.matches' ↔
      text ∈ (star (char '0') * (millisPattern * literal ['m', 's'])).matches' ∨
        text ∈ (star (char '0') * (secondsPattern * literal ['s'])).matches' := by
    simp only [timeoutPattern, matches'_mul, matches'_add, mul_add, Language.mem_add]
  rw [hsum, hunit, hunit]
  refine or_congr (exists_congr fun number => and_congr_right fun _ => ?_)
    (exists_congr fun number => and_congr_right fun _ => ?_)
  · rw [mem_zeros_mul_iff mem_millisPattern, InRange, Nat.mul_one]
    exact Iff.rfl
  · rw [mem_zeros_mul_iff mem_secondsPattern, InRange, maxTestTimeoutMillis]
    refine and_congr_right fun _ => ?_
    omega

end Shapes

/-! ## Units -/

/-- The unit of a number: a digit is no `m`. -/
theorem unitOf_eq_some {text number : List Char} {multiplier : Nat} (h : Digits number)
    (hne : number ≠ []) : TestTimeout.unitOf text = some (number, multiplier) ↔
      (text = number ++ ['m', 's'] ∧ multiplier = 1) ∨ (text = number ++ ['s'] ∧ multiplier = 1000) := by
  have hsuffix : ∀ {items word rest : List Char},
      items.dropSuffix? word = some rest ↔ items = rest ++ word := by
    intro items word rest
    rw [List.dropSuffix?_eq_some_iff]
    constructor
    · rintro ⟨word', rfl, hword⟩
      rw [eq_of_beq hword]
    · rintro rfl
      exact ⟨word, rfl, beq_self_eq_true word⟩
  unfold TestTimeout.unitOf
  split
  next found hfound =>
    obtain rfl := hsuffix.mp hfound
    rw [Option.some.injEq, Prod.mk.injEq, List.append_left_inj]
    refine ⟨fun hunit => .inl ⟨hunit.1, hunit.2.symm⟩, ?_⟩
    rintro (⟨rfl, rfl⟩ | ⟨heq, -⟩)
    · exact ⟨rfl, rfl⟩
    · -- the last character of the number would be an `m`
      have happend : (found ++ ['m']) ++ ['s'] = number ++ ['s'] := by simpa using heq
      have heq : found ++ ['m'] = number := List.append_cancel_right happend
      exact absurd (h 'm' (heq ▸ by simp)) (by decide)
  next hfound =>
    have hnone : text ≠ number ++ ['m', 's'] := fun heq => by
      rw [hsuffix.mpr heq] at hfound
      exact absurd hfound (by simp)
    rw [Option.map_eq_some_iff]
    constructor
    · rintro ⟨found, hfound, heq⟩
      obtain ⟨rfl, rfl⟩ := Prod.mk.inj heq
      exact .inr ⟨hsuffix.mp hfound, rfl⟩
    · rintro (⟨heq, -⟩ | ⟨heq, rfl⟩)
      · exact absurd heq hnone
      · exact ⟨number, hsuffix.mpr heq, rfl⟩

/-- A text is read if and only if it is of the pattern. -/
theorem fromStr_accepts {text : String} :
    (∃ t, TestTimeout.fromStr text = .ok t) ↔ text.toList ∈ timeoutPattern.matches' := by
  rw [mem_timeoutPattern]
  constructor
  · rintro ⟨t, ht⟩
    obtain ⟨number, multiplier, hunit, hrange, -⟩ := fromStr_eq_ok.mp ht
    rcases (unitOf_eq_some hrange.1 hrange.ne_nil).mp hunit with ⟨htext, rfl⟩ | ⟨htext, rfl⟩
    · exact .inl ⟨number, htext, hrange⟩
    · exact .inr ⟨number, htext, hrange⟩
  · rintro (⟨number, htext, hrange⟩ | ⟨number, htext, hrange⟩)
    · exact ⟨⟨value number * 1⟩, fromStr_eq_ok.mpr ⟨number, 1,
        (unitOf_eq_some hrange.1 hrange.ne_nil).mpr (.inl ⟨htext, rfl⟩), hrange, rfl⟩⟩
    · exact ⟨⟨value number * 1000⟩, fromStr_eq_ok.mpr ⟨number, 1000,
        (unitOf_eq_some hrange.1 hrange.ne_nil).mpr (.inr ⟨htext, rfl⟩), hrange, rfl⟩⟩

/-! ## Shown timeouts -/

theorem toList_toString (n : Nat) :
    (toString n).toList ≠ [] ∧ Digits (toString n).toList ∧ value (toString n).toList = n := by
  rw [Nat.toString_eq_ofList_toDigits, String.toList_ofList]
  exact ⟨Nat.toDigits_ne_nil,
    fun c hc => Nat.isDigit_of_mem_toDigits (by decide) (by decide) hc,
    Nat.ofDigitChars_ten_toDigits⟩

/-- The text of a timeout in range is read as that timeout. -/
theorem fromStr_display {t : TestTimeout} (hlow : 1 ≤ t.millis)
    (hhigh : t.millis ≤ maxTestTimeoutMillis) : TestTimeout.fromStr t.display = .ok t := by
  rw [fromStr_eq_ok, TestTimeout.display]
  split
  next hseconds =>
    obtain ⟨hne, hdigits, hvalue⟩ := toList_toString (t.millis / 1000)
    have hmillis : t.millis / 1000 * 1000 = t.millis := by omega
    refine ⟨(toString (t.millis / 1000)).toList, 1000,
      (unitOf_eq_some hdigits hne).mpr (.inr ⟨String.toList_append, rfl⟩), ?_⟩
    rw [InRange, hvalue, hmillis]
    exact ⟨⟨hdigits, hlow, hhigh⟩, rfl⟩
  next =>
    obtain ⟨hne, hdigits, hvalue⟩ := toList_toString t.millis
    refine ⟨(toString t.millis).toList, 1,
      (unitOf_eq_some hdigits hne).mpr (.inl ⟨String.toList_append, rfl⟩), ?_⟩
    rw [InRange, hvalue, Nat.mul_one]
    exact ⟨⟨hdigits, hlow, hhigh⟩, rfl⟩

/-- A text is read if and only if it is of the published pattern; the number with its unit that it
denotes is then computed without an overflow, and the text that is shown of it is read as the same
timeout and shown as itself. -/
theorem test_timeout_exact (text : String) :
    ((∃ t, TestTimeout.fromStr text = .ok t) ↔ timeoutPattern.rmatch text.toList = true) ∧
    ∀ t, TestTimeout.fromStr text = .ok t →
      (∃ number multiplier, TestTimeout.unitOf text.toList = some (number, multiplier) ∧
        Digits number ∧ parseUnsigned 64 number = some (value number) ∧
        checkedMul (value number) multiplier = some t.millis ∧
        t.millis = value number * multiplier) ∧
      timeoutPattern.rmatch t.display.toList = true ∧
      TestTimeout.fromStr t.display = .ok t ∧
      ∀ t', TestTimeout.fromStr t.display = .ok t' → t'.display = t.display := by
  have haccepts : ∀ text : String,
      (∃ t, TestTimeout.fromStr text = .ok t) ↔ timeoutPattern.rmatch text.toList = true := fun text =>
    fromStr_accepts.trans (RegularExpression.rmatch_iff_matches' _ _).symm
  refine ⟨haccepts text, fun t ht => ?_⟩
  obtain ⟨number, multiplier, hunit, hrange, hmillis⟩ := fromStr_eq_ok.mp ht
  have hdisplay := fromStr_display (hmillis ▸ hrange.2.1) (hmillis ▸ hrange.2.2)
  refine ⟨⟨number, multiplier, hunit, hrange.1, ?_, ?_, hmillis⟩, (haccepts _).mp ⟨t, hdisplay⟩,
    hdisplay, fun t' ht' => ?_⟩
  · have hle := Nat.le_mul_of_pos_right (value number)
      (Nat.pos_of_ne_zero (n := multiplier) (by rintro rfl; exact absurd hrange.2.1 (by simp)))
    have hbound : maxTestTimeoutMillis < 2 ^ 64 := by decide
    rw [parseUnsigned_digits hrange.1 hrange.ne_nil, if_pos (by have := hrange.2.2; omega)]
  · have hbound : maxTestTimeoutMillis < 2 ^ 64 := by decide
    rw [checkedMul, if_pos (by have := hrange.2.2; omega), hmillis]
  · rw [hdisplay] at ht'
    cases ht'
    rfl

end Rostfrei.Tracer
