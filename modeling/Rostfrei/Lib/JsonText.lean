import Rostfrei.Lib.Hex
import Rostfrei.Lib.Json

/-!
# JSON text

A compact printer and a reader for `Json` documents, whose numbers are integers. The printer
escapes quotes, backslashes and controls, as common compact printers do; the reader accepts white
space, all escapes and a bounded nesting. Reading what was printed gives the document back, as long
as it fits the nesting bound (`parse_print`), and the text is no longer than the tokens of the
document ask for (`length_print_le`).
-/

namespace Lib

namespace Json

/-! ## Printing -/

/-- A character inside a string literal. -/
def escapeChar (c : Char) : List Char :=
  if c = '"' then ['\\', '"']
  else if c = '\\' then ['\\', '\\']
  else if c.toNat = 8 then ['\\', 'b']
  else if c.toNat = 9 then ['\\', 't']
  else if c.toNat = 10 then ['\\', 'n']
  else if c.toNat = 12 then ['\\', 'f']
  else if c.toNat = 13 then ['\\', 'r']
  else if c.toNat < 32 then
    ['\\', 'u', '0', '0', hexDigit (c.toNat / 16), hexDigit (c.toNat % 16)]
  else [c]

def printString (s : String) : List Char := '"' :: s.toList.flatMap escapeChar ++ ['"']

mutual

def print : Json → List Char
  | .null => "null".toList
  | .bool true => "true".toList
  | .bool false => "false".toList
  | .num n => Nat.toDigits 10 n
  | .neg n => '-' :: Nat.toDigits 10 (n + 1)
  | .str s => printString s
  | .arr [] => ['[', ']']
  | .arr (item :: items) => '[' :: print item ++ printItems items
  | .obj [] => ['{', '}']
  | .obj ((key, value) :: fields) =>
    '{' :: printString key ++ ':' :: print value ++ printFields fields

def printItems : List Json → List Char
  | [] => [']']
  | item :: items => ',' :: print item ++ printItems items

def printFields : List (String × Json) → List Char
  | [] => ['}']
  | (key, value) :: fields =>
    ',' :: printString key ++ ':' :: print value ++ printFields fields

end

section Equations

-- derived once here, and not by every proof below that needs them at the same time
attribute [local simp] print printItems printFields

end Equations

/-! ## Reading -/

def isBlank (c : Char) : Bool := c = ' ' || c = '\n' || c = '\t' || c = '\r'

def skipBlanks (cs : List Char) : List Char := cs.dropWhile isBlank

/-- The number of four hexadecimal digits. -/
def hex4? (a b c d : Char) : Option Nat := do
  let a ← hexValue a
  let b ← hexValue b
  let c ← hexValue c
  let d ← hexValue d
  return ((a * 16 + b) * 16 + c) * 16 + d

/-- The character of an escape of one letter. -/
def simpleEscape : Char → Option Char
  | '"' => some '"'
  | '\\' => some '\\'
  | '/' => some '/'
  | 'b' => some (Char.ofNat 8)
  | 'f' => some (Char.ofNat 12)
  | 'n' => some '\n'
  | 'r' => some '\r'
  | 't' => some '\t'
  | _ => none

/-- The rest of a string literal after its opening quote; `none` inside a surrogate pair that is
not complete. -/
def parseChars : List Char → Option (List Char × List Char)
  | '"' :: rest => some ([], rest)
  | '\\' :: 'u' :: a :: b :: c :: d :: rest => do
    let n ← hex4? a b c d
    if 0xd800 ≤ n ∧ n < 0xdc00 then
      match rest with
      | '\\' :: 'u' :: a :: b :: c :: d :: rest => do
        let low ← hex4? a b c d
        if 0xdc00 ≤ low ∧ low < 0xe000 then
          let (cs, rest) ← parseChars rest
          return (Char.ofNat (0x10000 + (n - 0xd800) * 0x400 + (low - 0xdc00)) :: cs, rest)
        else none
      | _ => none
    else if 0xdc00 ≤ n ∧ n < 0xe000 then none
    else
      let (cs, rest) ← parseChars rest
      return (Char.ofNat n :: cs, rest)
  | '\\' :: e :: rest => do
    let c ← simpleEscape e
    let (cs, rest) ← parseChars rest
    return (c :: cs, rest)
  | c :: rest =>
    if c = '\\' ∨ c.toNat < 32 then none
    else do
      let (cs, rest) ← parseChars rest
      return (c :: cs, rest)
  | [] => none

/-- A number: no sign, no leading zero, below `2 ^ 64`. -/
def parseNumber (cs : List Char) : Option (Nat × List Char) :=
  let digits := cs.takeWhile Char.isDigit
  let n := Nat.ofDigitChars 10 digits 0
  if digits = [] ∨ (digits.head? = some '0' ∧ digits.length ≠ 1) ∨ n ≥ 2 ^ 64 then none
  else some (n, cs.dropWhile Char.isDigit)

def parseScalar : List Char → Option (Json × List Char)
  | 'n' :: 'u' :: 'l' :: 'l' :: rest => some (.null, rest)
  | 't' :: 'r' :: 'u' :: 'e' :: rest => some (.bool true, rest)
  | 'f' :: 'a' :: 'l' :: 's' :: 'e' :: rest => some (.bool false, rest)
  | '"' :: rest => do
    let (cs, rest) ← parseChars rest
    return (.str (String.ofList cs), rest)
  | '-' :: rest => do
    let (n, rest) ← parseNumber rest
    -- `-0` is a floating-point number, and nothing below `-2 ^ 63` is an integer.
    if n = 0 ∨ n > 2 ^ 63 then none else some (.neg (n - 1), rest)
  | cs => do
    let (n, rest) ← parseNumber cs
    return (.num n, rest)

/-- A field: its key, a colon and its value. -/
def parseField (value : List Char → Option (Json × List Char)) (cs : List Char) :
    Option ((String × Json) × List Char) :=
  match skipBlanks cs with
  | '"' :: rest => do
    let (key, rest) ← parseChars rest
    match skipBlanks rest with
    | ':' :: rest => do
      let (v, rest) ← value rest
      return ((String.ofList key, v), rest)
    | _ => none
  | _ => none

/-- The items after the first one, up to the closing mark. -/
def parseTail {α : Type} (item : List Char → Option (α × List Char)) (close : Char) :
    Nat → List Char → Option (List α × List Char)
  | 0, _ => none
  | fuel + 1, cs =>
    match skipBlanks cs with
    | c :: rest =>
      if c = close then some ([], rest)
      else if c = ',' then do
        let (x, rest) ← item rest
        let (xs, rest) ← parseTail item close fuel rest
        return (x :: xs, rest)
      else none
    | [] => none

/-- A list of items after its opening mark. -/
def parseList {α : Type} (item : List Char → Option (α × List Char)) (close : Char)
    (cs : List Char) : Option (List α × List Char) :=
  match skipBlanks cs with
  | [] => none
  | c :: rest =>
    if c = close then some ([], rest)
    else do
      let (x, rest) ← item (c :: rest)
      let (xs, rest) ← parseTail item close (rest.length + 1) rest
      return (x :: xs, rest)

/-- A value with arrays and objects nested at most this deep. -/
def parseValue : Nat → List Char → Option (Json × List Char)
  | 0, cs => parseScalar (skipBlanks cs)
  | depth + 1, cs =>
    match skipBlanks cs with
    | '[' :: rest => do
      let (items, rest) ← parseList (parseValue depth) ']' rest
      return (.arr items, rest)
    | '{' :: rest => do
      let (fields, rest) ← parseList (parseField (parseValue depth)) '}' rest
      return (.obj fields, rest)
    | cs => parseScalar cs

/-- A whole document. -/
def parse (depth : Nat) (cs : List Char) : Option Json := do
  let (j, rest) ← parseValue depth cs
  if skipBlanks rest = [] then some j else none

/-! ## Reading back what was printed -/

theorem skipBlanks_cons {c : Char} (cs : List Char) (h : isBlank c = false) :
    skipBlanks (c :: cs) = c :: cs := by simp [skipBlanks, h]

/-- A control character is read back from its four digits. -/
theorem hex4?_control {n : Nat} (h : n < 32) :
    hex4? '0' '0' (hexDigit (n / 16)) (hexDigit (n % 16)) = some n := by
  have hzero : hexValue '0' = some 0 := by decide
  simp only [hex4?, hzero, hexValue_hexDigit _ (show n / 16 < 16 by omega),
    hexValue_hexDigit _ (show n % 16 < 16 by omega)]
  show some _ = some n
  congr 1
  omega

/-- An escape of one letter is read as its character. -/
theorem parseChars_simple {c e : Char} (he : simpleEscape e = some c) (tail : List Char) :
    parseChars ('\\' :: e :: tail) =
      (parseChars tail).map fun (cs, rest) => (c :: cs, rest) := by
  have hu : e ≠ 'u' := by rintro rfl; simp [simpleEscape] at he
  simp [parseChars, hu, he, Option.map_eq_bind]

theorem parseChars_escapeChar (c : Char) (tail : List Char) :
    parseChars (escapeChar c ++ tail) =
      (parseChars tail).map fun (cs, rest) => (c :: cs, rest) := by
  have hchar {n : Nat} (h : c.toNat = n) : Char.ofNat n = c := by rw [← h, Char.ofNat_toNat]
  unfold escapeChar
  split_ifs with hq hb h8 h9 h10 h12 h13 h32
  · exact parseChars_simple (by rw [hq]; rfl) tail
  · exact parseChars_simple (by rw [hb]; rfl) tail
  · exact parseChars_simple (by rw [← hchar h8]; rfl) tail
  · exact parseChars_simple (by rw [← hchar h9]; rfl) tail
  · exact parseChars_simple (by rw [← hchar h10]; rfl) tail
  · exact parseChars_simple (by rw [← hchar h12]; rfl) tail
  · exact parseChars_simple (by rw [← hchar h13]; rfl) tail
  · have hlow : ¬ (0xd800 ≤ c.toNat ∧ c.toNat < 0xdc00) := by omega
    have hhigh : ¬ (0xdc00 ≤ c.toNat ∧ c.toNat < 0xe000) := by omega
    simp only [List.cons_append, List.nil_append, parseChars, hex4?_control h32,
      Option.bind_eq_bind, Option.bind_some, if_neg hlow, if_neg hhigh, hchar rfl]
    simp [Option.map_eq_bind]
  · simp [parseChars, hb, h32, Option.map_eq_bind]

/-- A printed string is read back, and what follows it is left. -/
theorem parseChars_flatMap (cs rest : List Char) :
    parseChars (cs.flatMap escapeChar ++ '"' :: rest) = some (cs, rest) := by
  induction cs with
  | nil => simp [parseChars]
  | cons c cs ih =>
    rw [List.flatMap_cons, List.append_assoc, parseChars_escapeChar, ih]
    rfl

/-- What follows a number must not start with a digit. -/
def NoDigit (rest : List Char) : Prop := ∀ c ∈ rest.head?, c.isDigit = false

/-- Only zero is written with a leading zero. -/
theorem eq_zero_of_head?_toDigits {n : Nat} (h : (Nat.toDigits 10 n).head? = some '0') :
    n = 0 := by
  induction n using Nat.strong_induction_on with
  | _ n ih =>
    by_cases hn : n < 10
    · rw [Nat.toDigits_of_lt_base hn] at h
      have hdigit : ∀ n < 10, n.digitChar = '0' → n = 0 := by decide
      exact hdigit n hn (by simpa using h)
    · rw [Nat.toDigits_of_base_le (by omega) (by omega),
        List.head?_append_of_ne_nil _ Nat.toDigits_ne_nil] at h
      have := ih (n / 10) (by omega) h
      omega

theorem parseNumber_toDigits {n : Nat} {rest : List Char} (hn : n < 2 ^ 64)
    (hrest : NoDigit rest) : parseNumber (Nat.toDigits 10 n ++ rest) = some (n, rest) := by
  have hdigits : ∀ c ∈ Nat.toDigits 10 n, c.isDigit = true := fun c hc =>
    Nat.isDigit_of_mem_toDigits (by omega) (by omega) hc
  have htake : rest.takeWhile Char.isDigit = [] := by
    cases rest with
    | nil => rfl
    | cons c rest => simp [hrest c rfl]
  have hdrop : rest.dropWhile Char.isDigit = rest := by
    cases rest with
    | nil => rfl
    | cons c rest => simp [hrest c rfl]
  unfold parseNumber
  rw [List.takeWhile_append_of_pos hdigits, List.dropWhile_append_of_pos hdigits, htake, hdrop]
  simp only [List.append_nil, Nat.ofDigitChars_ten_toDigits]
  rw [if_neg]
  rintro (h | ⟨h, hl⟩ | h)
  · exact Nat.toDigits_ne_nil h
  · rw [eq_zero_of_head?_toDigits h] at hl
    exact hl rfl
  · omega

/-- A mark that ends or separates items: no blank, no digit. -/
def IsMark (c : Char) : Prop := isBlank c = false ∧ c.isDigit = false

/-- The items after the first one are read back, if each item is. -/
theorem parseTail_flatMap {α : Type} {item : List Char → Option (α × List Char)}
    {enc : α → List Char} {close : Char} {xs : List α} {fuel : Nat} (rest : List Char)
    (hclose : IsMark close) (hcomma : close ≠ ',')
    (hitem : ∀ x ∈ xs, ∀ rest, NoDigit rest → item (enc x ++ rest) = some (x, rest))
    (hfuel : xs.length < fuel) :
    parseTail item close fuel (xs.flatMap (fun x => ',' :: enc x) ++ close :: rest) =
      some (xs, rest) := by
  induction xs generalizing fuel with
  | nil =>
    obtain ⟨fuel, rfl⟩ : ∃ k, fuel = k + 1 := ⟨fuel - 1, by simp at hfuel; omega⟩
    simp [parseTail, skipBlanks_cons _ hclose.1]
  | cons x xs ih =>
    obtain ⟨fuel, rfl⟩ : ∃ k, fuel = k + 1 := ⟨fuel - 1, by simp at hfuel; omega⟩
    have hlt : xs.length < fuel := by simpa using hfuel
    have htail := ih (fun y hy => hitem y (by simp [hy])) hlt
    have hnext : NoDigit (xs.flatMap (fun x => ',' :: enc x) ++ close :: rest) := by
      cases xs with
      | nil => simpa [NoDigit] using hclose.2
      | cons y ys => simp [NoDigit]
    have hx := hitem x (by simp) _ hnext
    simp only [List.flatMap_cons, List.cons_append, List.append_assoc, parseTail,
      skipBlanks_cons _ (show isBlank ',' = false from rfl), if_neg hcomma.symm, if_true, hx,
      Option.bind_eq_bind, Option.bind_some, htail]
    rfl

theorem length_le_flatMap {α : Type} {enc : α → List Char} (xs : List α) :
    xs.length ≤ (xs.flatMap fun x => ',' :: enc x).length := by
  induction xs with
  | nil => simp
  | cons x xs ih => simp only [List.flatMap_cons, List.length_append, List.length_cons]; omega

/-- A list of items is read back, if each item is and none starts like the closing mark. -/
theorem parseList_print {α : Type} {item : List Char → Option (α × List Char)}
    {enc : α → List Char} {close : Char} {x : α} {xs : List α} (rest : List Char)
    (hclose : IsMark close) (hcomma : close ≠ ',')
    (hitem : ∀ y ∈ x :: xs, ∀ rest, NoDigit rest → item (enc y ++ rest) = some (y, rest))
    (hhead : ∃ c cs, enc x = c :: cs ∧ isBlank c = false ∧ c ≠ close) :
    parseList item close (enc x ++ (xs.flatMap (fun x => ',' :: enc x) ++ close :: rest)) =
      some (x :: xs, rest) := by
  obtain ⟨c, cs, hx, hblank, hne⟩ := hhead
  have hnext : NoDigit (xs.flatMap (fun x => ',' :: enc x) ++ close :: rest) := by
    cases xs with
    | nil => simpa [NoDigit] using hclose.2
    | cons y ys => simp [NoDigit]
  have hlen : xs.length < (xs.flatMap (fun x => ',' :: enc x) ++ close :: rest).length + 1 := by
    have : xs.length ≤ (xs.flatMap (fun x => ',' :: enc x)).length := length_le_flatMap xs
    simp only [List.length_append, List.length_cons]
    omega
  have htail := parseTail_flatMap rest hclose hcomma (fun y hy => hitem y (by simp [hy])) hlen
  have hfirst := hitem x (by simp) _ hnext
  rw [hx, List.cons_append] at hfirst ⊢
  simp only [parseList, skipBlanks_cons _ hblank, if_neg hne, hfirst, Option.bind_eq_bind,
    Option.bind_some, htail]
  rfl

theorem isBlank_of_isDigit {c : Char} (h : c.isDigit = true) : isBlank c = false := by
  by_contra hc
  simp only [isBlank, Bool.not_eq_false, Bool.or_eq_true, decide_eq_true_eq] at hc
  rcases hc with ((rfl | rfl) | rfl) | rfl <;> simp at h

/-- A value that is neither an array nor an object. -/
def IsScalar : Json → Prop
  | .arr _ | .obj _ => False
  | _ => True

theorem print_arr (items : List Json) :
    print (.arr items) = '[' :: (print (.arr items)).tail := by
  cases items <;> simp only [print, List.cons_append, List.tail_cons]

theorem print_obj (fields : List (String × Json)) :
    print (.obj fields) = '{' :: (print (.obj fields)).tail := by
  cases fields <;> simp only [print, List.cons_append, List.tail_cons]

theorem exists_digit_cons (n : Nat) :
    ∃ c cs, Nat.toDigits 10 n = c :: cs ∧ c.isDigit = true := by
  obtain ⟨c, cs, h⟩ := List.exists_cons_of_ne_nil (Nat.toDigits_ne_nil (n := n) (b := 10))
  have hc : c ∈ Nat.toDigits 10 n := by simp [h]
  exact ⟨c, cs, h, Nat.isDigit_of_mem_toDigits (by omega) (by omega) hc⟩

/-- A printed value starts with no blank and not with a closing bracket, and a scalar not with an
opening mark. -/
theorem print_eq_cons (j : Json) : ∃ c cs, print j = c :: cs ∧ isBlank c = false ∧ c ≠ ']' ∧
    (j.IsScalar → c ≠ '[' ∧ c ≠ '{') := by
  cases j with
  | null => exact ⟨'n', _, by rw [print]; rfl, by decide, by decide, fun _ => by decide⟩
  | bool b => cases b <;> exact ⟨_, _, by rw [print]; rfl, by decide, by decide, fun _ => by decide⟩
  | num n =>
    obtain ⟨c, cs, h, hdigit⟩ := exists_digit_cons n
    have hne : ∀ d : Char, d.isDigit = false → c ≠ d := by
      rintro d hd rfl
      rw [hd] at hdigit
      cases hdigit
    exact ⟨c, cs, by rw [print, h], isBlank_of_isDigit hdigit, hne _ rfl,
      fun _ => ⟨hne _ rfl, hne _ rfl⟩⟩
  | neg n => exact ⟨'-', _, by rw [print], by decide, by decide, fun _ => by decide⟩
  | str s => exact ⟨'"', _, by rw [print]; rfl, by decide, by decide, fun _ => by decide⟩
  | arr items => exact ⟨'[', _, print_arr items, by decide, by decide, False.elim⟩
  | obj fields => exact ⟨'{', _, print_obj fields, by decide, by decide, False.elim⟩

theorem printItems_eq (items : List Json) :
    printItems items = items.flatMap (fun j => ',' :: print j) ++ [']'] := by
  induction items with
  | nil => simp [printItems]
  | cons j items ih => simp [printItems, ih]

def printField (f : String × Json) : List Char := printString f.1 ++ ':' :: print f.2

theorem printFields_eq (fields : List (String × Json)) :
    printFields fields = fields.flatMap (fun f => ',' :: printField f) ++ ['}'] := by
  induction fields with
  | nil => simp [printFields]
  | cons f fields ih => simp [printFields, printField, ih]

theorem parseField_printField {value : List Char → Option (Json × List Char)}
    {f : String × Json} {rest : List Char} (hvalue : value (print f.2 ++ rest) = some (f.2, rest)) :
    parseField value (printField f ++ rest) = some (f, rest) := by
  simp only [printField, printString, List.cons_append, List.append_assoc, List.nil_append,
    parseField, skipBlanks_cons _ (show isBlank '"' = false from rfl), parseChars_flatMap,
    Option.bind_eq_bind, Option.bind_some, skipBlanks_cons _ (show isBlank ':' = false from rfl),
    hvalue]
  simp

theorem parseScalar_digits {n : Nat} {rest : List Char} (hn : n < 2 ^ 64) (hrest : NoDigit rest) :
    parseScalar (Nat.toDigits 10 n ++ rest) = some (.num n, rest) := by
  obtain ⟨c, cs, h, hdigit⟩ := exists_digit_cons n
  have hnumber := parseNumber_toDigits hn hrest
  have hne : ∀ d : Char, d.isDigit = false → c ≠ d := by
    rintro d hd rfl
    rw [hd] at hdigit
    cases hdigit
  rw [h, List.cons_append] at hnumber ⊢
  rw [parseScalar]
  · simp [hnumber]
  all_goals
    intro _ heq
    exact hne _ (by decide) (List.cons.inj heq).1

theorem parseScalar_print {d : Nat} {j : Json} {rest : List Char} (hscalar : j.IsScalar)
    (hfits : j.Fits d) (hrest : NoDigit rest) :
    parseScalar (print j ++ rest) = some (j, rest) := by
  cases j with
  | null => rw [print]; rfl
  | bool b => cases b <;> (rw [print]; rfl)
  | num n => rw [print]; exact parseScalar_digits (by simpa using hfits) hrest
  | neg n =>
    have hlt : n < 2 ^ 63 := by simpa using hfits
    have hnumber : parseNumber (Nat.toDigits 10 (n + 1) ++ rest) = some (n + 1, rest) :=
      parseNumber_toDigits (by omega) hrest
    rw [print, List.cons_append, parseScalar, hnumber, Option.bind_eq_bind, Option.bind_some]
    simp only [Nat.add_sub_cancel]
    rw [if_neg (by omega)]
  | str s =>
    simp only [print, printString, List.cons_append, List.append_assoc, List.nil_append,
      parseScalar, parseChars_flatMap, Option.bind_eq_bind, Option.bind_some]
    simp
  | arr items => exact hscalar.elim
  | obj fields => exact hscalar.elim

/-- At every depth, a scalar is read as one. -/
theorem parseValue_scalar {d : Nat} {j : Json} {rest : List Char} (hscalar : j.IsScalar)
    (hfits : j.Fits d) (hrest : NoDigit rest) : parseValue d (print j ++ rest) = some (j, rest) := by
  obtain ⟨c, cs, hj, hblank, -, hmark⟩ := print_eq_cons j
  have hread := parseScalar_print hscalar hfits hrest
  rw [hj, List.cons_append] at hread ⊢
  cases d with
  | zero => rw [parseValue, skipBlanks_cons _ hblank, hread]
  | succ d =>
    rw [parseValue, skipBlanks_cons _ hblank]
    split
    · next h => exact absurd (List.cons.inj h).1 (hmark hscalar).1
    · next h => exact absurd (List.cons.inj h).1 (hmark hscalar).2
    · exact hread

theorem parseValue_print {d : Nat} {j : Json} {rest : List Char} (hfits : j.Fits d)
    (hrest : NoDigit rest) : parseValue d (print j ++ rest) = some (j, rest) := by
  -- induction on the depth, for every value that fits it and every rest
  induction d generalizing j rest with
  | zero =>
    refine parseValue_scalar ?_ hfits hrest
    cases j <;> trivial
  | succ d ih =>
    cases j with
    | null | bool | num | neg | str => exact parseValue_scalar trivial hfits hrest
    | arr items =>
      have hread : parseList (parseValue d) ']' ((print (.arr items)).tail ++ rest) =
          some (items, rest) := by
        cases items with
        | nil => simp [print, parseList, skipBlanks_cons, isBlank]
        | cons item items =>
          simp only [print, printItems_eq, List.cons_append, List.tail_cons, List.append_assoc,
            List.nil_append]
          obtain ⟨c, cs, hitem, hblank, hclose, -⟩ := print_eq_cons item
          exact parseList_print rest ⟨rfl, rfl⟩ (by decide)
            (fun y hy rest hrest => ih (hfits y hy) hrest) ⟨c, cs, hitem, hblank, hclose⟩
      rw [print_arr, List.cons_append, parseValue, skipBlanks_cons _ rfl]
      simp only [hread, Option.bind_eq_bind, Option.bind_some]
      rfl
    | obj fields =>
      have hread : parseList (parseField (parseValue d)) '}'
          ((print (.obj fields)).tail ++ rest) = some (fields, rest) := by
        cases fields with
        | nil => simp [print, parseList, skipBlanks_cons, isBlank]
        | cons field fields =>
          have hprint : (print (.obj (field :: fields))).tail ++ rest =
              printField field ++ (fields.flatMap (fun f => ',' :: printField f) ++ '}' :: rest) := by
            simp [print, printFields_eq, printField]
          rw [hprint]
          exact parseList_print rest ⟨rfl, rfl⟩ (by decide)
            (fun f hf rest hrest => parseField_printField (ih (hfits f hf) hrest))
            ⟨'"', _, rfl, rfl, by decide⟩
      rw [print_obj, List.cons_append, parseValue, skipBlanks_cons _ rfl]
      simp only [hread, Option.bind_eq_bind, Option.bind_some]
      rfl

/-- A printed document is read back. -/
theorem parse_print {d : Nat} {j : Json} (hfits : j.Fits d) : parse d (print j) = some j := by
  have h : parseValue d (print j ++ []) = some (j, []) :=
    parseValue_print hfits (by simp [NoDigit])
  rw [List.append_nil] at h
  simp only [parse, h, Option.bind_eq_bind, Option.bind_some]
  rfl

/-! ## What a reader with a nesting limit reads -/

theorem fits_of_parseScalar {cs rest : List Char} {j : Json} (h : parseScalar cs = some (j, rest))
    (d : Nat) : j.Fits d := by
  have hnumber : ∀ {cs rest : List Char} {n : Nat}, parseNumber cs = some (n, rest) → n < 2 ^ 64 := by
    intro cs rest n h
    simp only [parseNumber, Option.ite_none_left_eq_some, not_or, Option.some.injEq,
      Prod.mk.injEq] at h
    omega
  unfold parseScalar at h
  split at h
  · cases h; simp
  · cases h; simp
  · cases h; simp
  · obtain ⟨⟨cs, rest⟩, -, h⟩ := Option.bind_eq_some_iff.mp h
    cases h
    simp
  · obtain ⟨⟨n, rest⟩, -, h⟩ := Option.bind_eq_some_iff.mp h
    simp only [Option.ite_none_left_eq_some, not_or, Option.some.injEq, Prod.mk.injEq] at h
    obtain ⟨hn, rfl, -⟩ := h
    rw [fits_neg]
    omega
  · obtain ⟨⟨n, rest⟩, hn, h⟩ := Option.bind_eq_some_iff.mp h
    cases h
    simpa using hnumber hn

section Nesting

variable {α : Type} {P : α → Prop} {item item' : List Char → Option (α × List Char)} {close : Char}

/-- Whatever the first reader of items reads, the second reads, and it satisfies `P`. -/
def Reads (P : α → Prop) (item item' : List Char → Option (α × List Char)) : Prop :=
  ∀ cs x rest, item cs = some (x, rest) → item' cs = some (x, rest) ∧ P x

theorem Reads.tail (h : Reads P item item') (fuel : Nat) :
    Reads (fun xs => ∀ x ∈ xs, P x) (parseTail item close fuel) (parseTail item' close fuel) := by
  induction fuel with
  | zero => intro cs xs rest hread; cases hread
  | succ fuel ih =>
    intro cs xs rest hread
    unfold parseTail at hread ⊢
    split at hread
    · split_ifs at hread ⊢ with hclose hcomma
      · cases hread
        exact ⟨rfl, by simp⟩
      · obtain ⟨⟨x, next⟩, hx, hread⟩ := Option.bind_eq_some_iff.mp hread
        obtain ⟨⟨xs, rest⟩, hxs, hread⟩ := Option.bind_eq_some_iff.mp hread
        cases hread
        obtain ⟨hx', hp⟩ := h _ _ _ hx
        obtain ⟨hxs', hps⟩ := ih _ _ _ hxs
        refine ⟨?_, List.forall_mem_cons.mpr ⟨hp, hps⟩⟩
        simp only [hx', hxs', Option.bind_eq_bind, Option.bind_some]
        rfl
    · cases hread

theorem Reads.list (h : Reads P item item') :
    Reads (fun xs => ∀ x ∈ xs, P x) (parseList item close) (parseList item' close) := by
  intro cs xs rest hread
  unfold parseList at hread ⊢
  split at hread
  · cases hread
  · split_ifs at hread ⊢ with hclose
    · cases hread
      exact ⟨rfl, by simp⟩
    · obtain ⟨⟨x, next⟩, hx, hread⟩ := Option.bind_eq_some_iff.mp hread
      obtain ⟨⟨xs, rest⟩, hxs, hread⟩ := Option.bind_eq_some_iff.mp hread
      cases hread
      obtain ⟨hx', hp⟩ := h _ _ _ hx
      obtain ⟨hxs', hps⟩ := h.tail _ _ _ _ hxs
      refine ⟨?_, List.forall_mem_cons.mpr ⟨hp, hps⟩⟩
      simp only [hx', hxs', Option.bind_eq_bind, Option.bind_some]
      rfl

end Nesting

theorem Reads.field {P : Json → Prop} {value value' : List Char → Option (Json × List Char)}
    (h : Reads P value value') :
    Reads (fun f : String × Json => P f.2) (parseField value) (parseField value') := by
  intro cs f rest hread
  unfold parseField at hread ⊢
  split at hread
  · obtain ⟨⟨key, next⟩, hkey, hread⟩ := Option.bind_eq_some_iff.mp hread
    simp only [hkey, Option.bind_eq_bind, Option.bind_some]
    dsimp only at hread
    split at hread
    · obtain ⟨⟨v, rest⟩, hv, hread⟩ := Option.bind_eq_some_iff.mp hread
      cases hread
      obtain ⟨hv', hp⟩ := h _ _ _ hv
      refine ⟨?_, hp⟩
      simp only [hv', Option.bind_some]
      rfl
    · cases hread
  · cases hread

/-- A deeper limit reads the same, and what is read keeps to the limit. -/
theorem reads_parseValue {d e : Nat} (hle : d ≤ e) :
    Reads (fun j => j.Fits d) (parseValue d) (parseValue e) := by
  induction d generalizing e with
  | zero =>
    intro cs j rest hread
    rw [parseValue] at hread
    refine ⟨?_, fits_of_parseScalar hread 0⟩
    cases e with
    | zero => exact hread
    | succ e =>
      rw [parseValue]
      split
      · next h => rw [h] at hread; simp [parseScalar, parseNumber] at hread
      · next h => rw [h] at hread; simp [parseScalar, parseNumber] at hread
      · exact hread
  | succ d ih =>
    obtain ⟨e, rfl⟩ : ∃ e', e = e' + 1 := ⟨e - 1, by omega⟩
    have hvalue := ih (show d ≤ e by omega)
    intro cs j rest hread
    rw [parseValue] at hread ⊢
    split at hread
    · obtain ⟨⟨items, rest⟩, hitems, hread⟩ := Option.bind_eq_some_iff.mp hread
      cases hread
      obtain ⟨hitems', hfits⟩ := hvalue.list _ _ _ hitems
      refine ⟨?_, hfits⟩
      simp only [hitems', Option.bind_eq_bind, Option.bind_some]
      rfl
    · obtain ⟨⟨fields, rest⟩, hfields, hread⟩ := Option.bind_eq_some_iff.mp hread
      cases hread
      obtain ⟨hfields', hfits⟩ := hvalue.field.list _ _ _ hfields
      refine ⟨?_, hfits⟩
      simp only [hfields', Option.bind_eq_bind, Option.bind_some]
      rfl
    · exact ⟨hread, fits_of_parseScalar hread _⟩

/-- A printed document that is nested too deep is not read. -/
theorem fits_of_parse_print {d e : Nat} {i j : Json} (hfits : j.Fits e)
    (h : parse d (print j) = some i) : j.Fits d := by
  simp only [parse, Option.bind_eq_bind, Option.bind_eq_some_iff] at h
  obtain ⟨⟨value, rest⟩, hread, h⟩ := h
  have hback := parse_print (hfits.mono (Nat.le_max_right d e))
  obtain ⟨hdeep, hvalue⟩ := reads_parseValue (Nat.le_max_left d e) _ _ _ hread
  simp only [parse, hdeep, Option.bind_eq_bind, Option.bind_some, h] at hback
  have hij : i = j := Option.some.inj hback
  split_ifs at h
  cases h
  exact hij ▸ hvalue

/-! ## The size of the text -/

/-- The number of bytes of the characters in UTF-8. -/
def byteLength (cs : List Char) : Nat := (cs.flatMap String.utf8EncodeChar).length

@[simp] theorem byteLength_nil : byteLength [] = 0 := rfl

@[simp] theorem byteLength_append (cs ds : List Char) :
    byteLength (cs ++ ds) = byteLength cs + byteLength ds := by
  simp [byteLength]

@[simp] theorem byteLength_cons (c : Char) (cs : List Char) :
    byteLength (c :: cs) = c.utf8Size + byteLength cs := by
  simp [byteLength]

theorem byteLength_toList (s : String) : byteLength s.toList = s.utf8ByteSize := by
  rw [byteLength, ← utf8_ofList, String.ofList_toList, length_utf8]

theorem utf8Size_of_lt {c : Char} (h : c.toNat < 128) : c.utf8Size = 1 := by
  have hval : c.val ≤ UInt32.ofNatLT 127 (by decide) := Nat.le_of_lt_succ h
  exact if_pos hval

theorem utf8Size_hexDigit {n : Nat} (h : n < 16) : (hexDigit n).utf8Size = 1 := by
  have hall : ∀ n < 16, (hexDigit n).utf8Size = 1 := by decide
  exact hall n h

theorem byteLength_escapeChar_le (c : Char) : byteLength (escapeChar c) ≤ 6 * c.utf8Size := by
  have hpos := c.utf8Size_pos
  unfold escapeChar
  split_ifs with h₁ h₂ h₃ h₄ h₅ h₆ h₇ h₈
  on_goal 8 =>
    have hhigh := utf8Size_hexDigit (show c.toNat / 16 < 16 by omega)
    have hlow := utf8Size_hexDigit (show c.toNat % 16 < 16 by omega)
    rw [utf8Size_of_lt (show c.toNat < 128 by omega)]
    simp only [byteLength_cons, byteLength_nil, hhigh, hlow]
    decide
  on_goal 8 =>
    simp only [byteLength_cons, byteLength_nil]
    omega
  all_goals
    refine Nat.le_trans (show _ ≤ 6 from ?_) (by omega)
    decide

theorem byteLength_toDigits (n : Nat) :
    byteLength (Nat.toDigits 10 n) = (Nat.toDigits 10 n).length := by
  have hdigits : ∀ c ∈ Nat.toDigits 10 n, c.isDigit = true := fun c hc =>
    Nat.isDigit_of_mem_toDigits (by omega) (by omega) hc
  generalize Nat.toDigits 10 n = cs at hdigits
  induction cs with
  | nil => rfl
  | cons c cs ih =>
    have hc := hdigits c (by simp)
    have hlt : c.toNat < 128 := by
      simp only [Char.isDigit, Bool.and_eq_true, decide_eq_true_eq] at hc
      have hle : c.toNat ≤ 57 := hc.2
      omega
    rw [byteLength_cons, utf8Size_of_lt hlt, ih fun d hd => hdigits d (by simp [hd]),
      List.length_cons, Nat.add_comm]

theorem byteLength_printString_le (s : String) : byteLength (printString s) ≤ stringSize s := by
  have hchars : ∀ cs : List Char, byteLength (cs.flatMap escapeChar) ≤ 6 * byteLength cs := by
    intro cs
    induction cs with
    | nil => simp
    | cons c cs ih =>
      have hc := byteLength_escapeChar_le c
      rw [List.flatMap_cons, byteLength_append, byteLength_cons]
      omega
  have hs := hchars s.toList
  have hquote : '"'.utf8Size = 1 := by decide
  rw [byteLength_toList] at hs
  simp only [printString, byteLength_cons, byteLength_append, byteLength_nil, List.cons_append,
    hquote, stringSize]
  omega

mutual

/-- The printed text is no longer than the tokens ask for. -/
theorem length_print_le : ∀ j : Json, byteLength (print j) ≤ textSize j
  | .null => by rw [print, textSize]; decide
  | .bool true => by rw [print, textSize]; decide
  | .bool false => by rw [print, textSize]; decide
  | .num n => by rw [print, textSize, byteLength_toDigits]
  | .neg n => by
    have hsign : '-'.utf8Size = 1 := by decide
    rw [print, textSize, byteLength_cons, byteLength_toDigits, hsign]
  | .str s => by rw [print, textSize]; exact byteLength_printString_le s
  | .arr [] => by rw [print, textSize, itemsSize]; decide
  | .arr (item :: items) => by
    have hopen : '['.utf8Size = 1 := by decide
    have hitem := length_print_le item
    have hitems := length_printItems_le items
    rw [print, textSize, itemsSize]
    simp only [byteLength_cons, byteLength_append, List.cons_append, hopen]
    omega
  | .obj [] => by rw [print, textSize, fieldsSize]; decide
  | .obj ((key, value) :: fields) => by
    have hopen : '{'.utf8Size = 1 := by decide
    have hcolon : ':'.utf8Size = 1 := by decide
    have hkey := byteLength_printString_le key
    have hvalue := length_print_le value
    have hfields := length_printFields_le fields
    rw [print, textSize, fieldsSize]
    simp only [byteLength_cons, byteLength_append, List.cons_append, hopen, hcolon]
    omega

theorem length_printItems_le : ∀ items : List Json, byteLength (printItems items) ≤ itemsSize items
  | [] => by rw [printItems, itemsSize]; decide
  | item :: items => by
    have hcomma : ','.utf8Size = 1 := by decide
    have hitem := length_print_le item
    have hitems := length_printItems_le items
    rw [printItems, itemsSize]
    simp only [byteLength_cons, byteLength_append, List.cons_append, hcomma]
    omega

theorem length_printFields_le :
    ∀ fields : List (String × Json), byteLength (printFields fields) ≤ fieldsSize fields
  | [] => by rw [printFields, fieldsSize]; decide
  | (key, value) :: fields => by
    have hcomma : ','.utf8Size = 1 := by decide
    have hcolon : ':'.utf8Size = 1 := by decide
    have hkey := byteLength_printString_le key
    have hvalue := length_print_le value
    have hfields := length_printFields_le fields
    rw [printFields, fieldsSize]
    simp only [byteLength_cons, byteLength_append, List.cons_append, hcomma, hcolon]
    omega

end

end Json

end Lib
