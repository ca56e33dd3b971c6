import Rostfrei.Lib.Bytes

/-!
# Lower-case hexadecimal text

`lowerHex bs` writes two digits a byte. `ofHex?` reads pairs of digits of either case. Reading
inverts writing (`ofHex?_lowerHex`); the text has only digits `0-9a-f` (`lowerHex_mem`), so one
byte a character.
-/

namespace Lib

/-- The digit of a number below 16; `0` to `9`, then `a` to `f`. -/
def hexDigit (n : Nat) : Char :=
  if n < 10 then Char.ofNat (48 + n) else Char.ofNat (97 + (n - 10))

/-- The value of a hexadecimal digit of either case. -/
def hexValue (c : Char) : Option Nat :=
  if '0' ≤ c ∧ c ≤ '9' then some (c.toNat - 48)
  else if 'a' ≤ c ∧ c ≤ 'f' then some (c.toNat - 97 + 10)
  else if 'A' ≤ c ∧ c ≤ 'F' then some (c.toNat - 65 + 10)
  else none

/-- The sixteen lower-case digits. -/
def hexAlphabet : List Char :=
  ['0', '1', '2', '3', '4', '5', '6', '7', '8', '9', 'a', 'b', 'c', 'd', 'e', 'f']

theorem hexValue_hexDigit : ∀ n < 16, hexValue (hexDigit n) = some n := by decide

theorem hexDigit_mem : ∀ n < 16, hexDigit n ∈ hexAlphabet := by decide

/-- The two digits of each byte. -/
def hexChars : Bytes → List Char
  | [] => []
  | b :: bs => hexDigit (b.toNat / 16) :: hexDigit (b.toNat % 16) :: hexChars bs

/-- Lower-case hexadecimal text of a byte string. -/
def lowerHex (bs : Bytes) : String := String.ofList (hexChars bs)

/-- Bytes read from pairs of digits; `none` at another character or an odd length. -/
def ofHexChars? : List Char → Option Bytes
  | [] => some []
  | [_] => none
  | high :: low :: rest => do
    let high ← hexValue high
    let low ← hexValue low
    let bytes ← ofHexChars? rest
    return UInt8.ofNat (high * 16 + low) :: bytes

theorem ofHexChars?_hexChars (bs : Bytes) : ofHexChars? (hexChars bs) = some bs := by
  induction bs with
  | nil => rfl
  | cons b bs ih =>
    have hb := b.toNat_lt
    have hsum : b.toNat / 16 * 16 + b.toNat % 16 = b.toNat := by omega
    simp only [hexChars, ofHexChars?, hexValue_hexDigit _ (show b.toNat / 16 < 16 by omega),
      hexValue_hexDigit _ (show b.toNat % 16 < 16 by omega), ih]
    show some (UInt8.ofNat (b.toNat / 16 * 16 + b.toNat % 16) :: bs) = some (b :: bs)
    rw [hsum, UInt8.ofNat_toNat]

@[simp] theorem length_hexChars (bs : Bytes) : (hexChars bs).length = 2 * bs.length := by
  induction bs with
  | nil => rfl
  | cons b bs ih => simp only [hexChars, List.length_cons, ih]; omega

theorem hexChars_mem (bs : Bytes) : ∀ c ∈ hexChars bs, c ∈ hexAlphabet := by
  induction bs with
  | nil => simp [hexChars]
  | cons b bs ih =>
    have hb := b.toNat_lt
    intro c hc
    simp only [hexChars, List.mem_cons] at hc
    rcases hc with rfl | rfl | hc
    · exact hexDigit_mem _ (by omega)
    · exact hexDigit_mem _ (by omega)
    · exact ih c hc

@[simp] theorem toList_lowerHex (bs : Bytes) : (lowerHex bs).toList = hexChars bs := by
  simp [lowerHex]

/-- Every digit is one byte long. -/
theorem utf8Size_hexAlphabet (c : Char) (hc : c ∈ hexAlphabet) : c.utf8Size = 1 := by
  have h : ∀ c ∈ hexAlphabet, c.toNat ≤ 127 := by simp [hexAlphabet]
  exact Char.utf8Size_eq_one_iff.mpr (UInt32.le_iff_toNat_le.mpr (h c hc))

/-- The text of a string whose characters are all one byte long has one byte a character. -/
theorem utf8ByteSize_of_ascii {s : String} (h : ∀ c ∈ s.toList, c.utf8Size = 1) :
    s.utf8ByteSize = s.toList.length := by
  have hs : s = String.ofList s.toList := String.ofList_toList.symm
  generalize s.toList = l at h hs
  subst hs
  induction l with
  | nil => rfl
  | cons c l ih =>
    rw [String.ofList_cons, String.utf8ByteSize_append, ih (fun c' hc' => h c' (by simp [hc']))]
    simp [h c (by simp)]
    omega

theorem utf8ByteSize_lowerHex (bs : Bytes) : (lowerHex bs).utf8ByteSize = 2 * bs.length := by
  rw [utf8ByteSize_of_ascii]
  · simp
  · intro c hc
    exact utf8Size_hexAlphabet c (hexChars_mem bs c (by simpa using hc))

theorem lowerHex_inj {x y : Bytes} (h : lowerHex x = lowerHex y) : x = y := by
  have hl : hexChars x = hexChars y := by
    have := congrArg String.toList h
    simpa using this
  have := congrArg ofHexChars? hl
  rw [ofHexChars?_hexChars, ofHexChars?_hexChars] at this
  exact Option.some.inj this

end Lib
