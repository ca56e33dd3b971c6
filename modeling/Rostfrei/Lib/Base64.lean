import Rostfrei.Lib.Bytes

/-!
# Padded base64

The standard alphabet, four characters for three bytes, with `=` to fill the last four. The reader
wants the padding and no bits left over, so it accepts one text for each byte string;
`decode_encode` reads back what was written.
-/

namespace Lib.Base64

/-- The character of a number below 64. -/
def digit (n : Nat) : Char :=
  if n < 26 then Char.ofNat (65 + n)
  else if n < 52 then Char.ofNat (97 + (n - 26))
  else if n < 62 then Char.ofNat (48 + (n - 52))
  else if n = 62 then '+'
  else '/'

def value (c : Char) : Option Nat :=
  if 'A' ≤ c ∧ c ≤ 'Z' then some (c.toNat - 65)
  else if 'a' ≤ c ∧ c ≤ 'z' then some (c.toNat - 97 + 26)
  else if '0' ≤ c ∧ c ≤ '9' then some (c.toNat - 48 + 52)
  else if c = '+' then some 62
  else if c = '/' then some 63
  else none

theorem value_digit : ∀ n < 64, value (digit n) = some n := by decide

theorem digit_ne_pad : ∀ n < 64, digit n ≠ '=' := by decide

def encodeChars : Bytes → List Char
  | [] => []
  | [a] => [digit (a.toNat / 4), digit (a.toNat % 4 * 16), '=', '=']
  | [a, b] =>
    [digit (a.toNat / 4), digit (a.toNat % 4 * 16 + b.toNat / 16), digit (b.toNat % 16 * 4), '=']
  | a :: b :: c :: rest =>
    digit (a.toNat / 4) :: digit (a.toNat % 4 * 16 + b.toNat / 16) ::
      digit (b.toNat % 16 * 4 + c.toNat / 64) :: digit (c.toNat % 64) :: encodeChars rest

/-- The bytes of two, three or four digits. -/
def bytes1 (a b : Nat) : Option Bytes :=
  if b % 16 = 0 then some [UInt8.ofNat (a * 4 + b / 16)] else none

def bytes2 (a b c : Nat) : Option Bytes :=
  if c % 4 = 0 then some [UInt8.ofNat (a * 4 + b / 16), UInt8.ofNat (b % 16 * 16 + c / 4)]
  else none

def bytes3 (a b c d : Nat) : Bytes :=
  [UInt8.ofNat (a * 4 + b / 16), UInt8.ofNat (b % 16 * 16 + c / 4), UInt8.ofNat (c % 4 * 64 + d)]

def decodeChars : List Char → Option Bytes
  | [] => some []
  | a :: b :: c :: d :: rest =>
    if rest = [] ∧ c = '=' ∧ d = '=' then do
      bytes1 (← value a) (← value b)
    else if rest = [] ∧ d = '=' then do
      bytes2 (← value a) (← value b) (← value c)
    else do
      let bytes := bytes3 (← value a) (← value b) (← value c) (← value d)
      return bytes ++ (← decodeChars rest)
  | _ => none

def encode (bytes : Bytes) : String := String.ofList (encodeChars bytes)

def decode (s : String) : Option Bytes := decodeChars s.toList

theorem bytes1_digits (a : UInt8) : bytes1 (a.toNat / 4) (a.toNat % 4 * 16) = some [a] := by
  have ha := a.toNat_lt
  have hsum : a.toNat / 4 * 4 + a.toNat % 4 * 16 / 16 = a.toNat := by omega
  rw [bytes1, if_pos (by omega), hsum, UInt8.ofNat_toNat]

theorem bytes2_digits (a b : UInt8) :
    bytes2 (a.toNat / 4) (a.toNat % 4 * 16 + b.toNat / 16) (b.toNat % 16 * 4) = some [a, b] := by
  have ha := a.toNat_lt
  have hb := b.toNat_lt
  have hfirst : a.toNat / 4 * 4 + (a.toNat % 4 * 16 + b.toNat / 16) / 16 = a.toNat := by omega
  have hsecond :
      (a.toNat % 4 * 16 + b.toNat / 16) % 16 * 16 + b.toNat % 16 * 4 / 4 = b.toNat := by omega
  rw [bytes2, if_pos (by omega), hfirst, hsecond, UInt8.ofNat_toNat, UInt8.ofNat_toNat]

theorem bytes3_digits (a b c : UInt8) :
    bytes3 (a.toNat / 4) (a.toNat % 4 * 16 + b.toNat / 16) (b.toNat % 16 * 4 + c.toNat / 64)
      (c.toNat % 64) = [a, b, c] := by
  have ha := a.toNat_lt
  have hb := b.toNat_lt
  have hc := c.toNat_lt
  have hfirst : a.toNat / 4 * 4 + (a.toNat % 4 * 16 + b.toNat / 16) / 16 = a.toNat := by omega
  have hsecond : (a.toNat % 4 * 16 + b.toNat / 16) % 16 * 16 +
      (b.toNat % 16 * 4 + c.toNat / 64) / 4 = b.toNat := by omega
  have hthird : (b.toNat % 16 * 4 + c.toNat / 64) % 4 * 64 + c.toNat % 64 = c.toNat := by omega
  rw [bytes3, hfirst, hsecond, hthird, UInt8.ofNat_toNat, UInt8.ofNat_toNat, UInt8.ofNat_toNat]

theorem decodeChars_encodeChars (bytes : Bytes) :
    decodeChars (encodeChars bytes) = some bytes := by
  fun_induction encodeChars bytes with
  | case1 => rfl
  | case2 a =>
    have ha := a.toNat_lt
    simp [decodeChars, value_digit _ (show a.toNat / 4 < 64 by omega),
      value_digit _ (show a.toNat % 4 * 16 < 64 by omega), bytes1_digits]
  | case3 a b =>
    have ha := a.toNat_lt
    have hb := b.toNat_lt
    simp [decodeChars, digit_ne_pad _ (show b.toNat % 16 * 4 < 64 by omega),
      value_digit _ (show a.toNat / 4 < 64 by omega),
      value_digit _ (show a.toNat % 4 * 16 + b.toNat / 16 < 64 by omega),
      value_digit _ (show b.toNat % 16 * 4 < 64 by omega), bytes2_digits]
  | case4 a b c rest ih =>
    have ha := a.toNat_lt
    have hb := b.toNat_lt
    have hc := c.toNat_lt
    simp [decodeChars, digit_ne_pad _ (show c.toNat % 64 < 64 by omega),
      value_digit _ (show a.toNat / 4 < 64 by omega),
      value_digit _ (show a.toNat % 4 * 16 + b.toNat / 16 < 64 by omega),
      value_digit _ (show b.toNat % 16 * 4 + c.toNat / 64 < 64 by omega),
      value_digit _ (show c.toNat % 64 < 64 by omega), bytes3_digits, ih]

theorem decode_encode (bytes : Bytes) : decode (encode bytes) = some bytes := by
  simp [decode, encode, decodeChars_encodeChars]

end Lib.Base64
