import Rostfrei.Lib.JsonText

/-!
# Transition tokens

The token of a technical response, and its text. `serde_json` is a parameter (`TokenText`), since the
creation time of a stream has 128 bits; `TokenText.concrete` writes compact text and reads that text
back.
-/

namespace Rostfrei.Nats

open Lib

structure DiagnosticTransitionToken where
  version : Nat
  stream : String
  created : Int
  generation : Nat
  predecessor : Nat
deriving DecidableEq, Repr

/-- The numbers of a token are those of its types, `u8`, `i128` and `u64`. -/
structure DiagnosticTransitionToken.Sized (token : DiagnosticTransitionToken) : Prop where
  version : token.version < 2 ^ 8
  created : -2 ^ 127 ≤ token.created ∧ token.created < 2 ^ 127
  generation : token.generation < 2 ^ 64
  predecessor : token.predecessor < 2 ^ 64

/-- `serde_json` for tokens. -/
class TokenText where
  /-- `serde_json::to_string`. -/
  tokenToString : DiagnosticTransitionToken → String
  /-- `serde_json::from_str`. -/
  tokenFromStr : String → Option DiagnosticTransitionToken

export TokenText (tokenToString tokenFromStr)

/-- `serde_json` reads back the tokens that it writes. -/
class TokenText.Lawful [TokenText] : Prop where
  tokenFromStr_toString : ∀ token : DiagnosticTransitionToken, token.Sized →
    tokenFromStr (tokenToString token) = some token

/-! ## The text as it is computed -/

namespace DiagnosticTransitionToken

def printInt : Int → List Char
  | .ofNat n => Nat.toDigits 10 n
  | .negSucc n => '-' :: Nat.toDigits 10 (n + 1)

def print (token : DiagnosticTransitionToken) : List Char :=
  "\x7b\"version\":".toList ++ (Nat.toDigits 10 token.version ++ (",\"stream\":".toList ++
    (Json.printString token.stream ++ (",\"created\":".toList ++ (printInt token.created ++
    (",\"generation\":".toList ++ (Nat.toDigits 10 token.generation ++
    (",\"predecessor\":".toList ++ (Nat.toDigits 10 token.predecessor ++ ['}'])))))))))

/-- The text after a mark. -/
def skip (mark : List Char) (cs : List Char) : Option (List Char) :=
  if mark.isPrefixOf cs then some (cs.drop mark.length) else none

def readNat (cs : List Char) : Option (Nat × List Char) :=
  let digits := cs.takeWhile Char.isDigit
  if digits = [] then none
  else some (Nat.ofDigitChars 10 digits 0, cs.dropWhile Char.isDigit)

def readInt : List Char → Option (Int × List Char)
  | '-' :: cs => (readNat cs).map fun (n, rest) => (-n, rest)
  | cs => (readNat cs).map fun (n, rest) => (n, rest)

def readString : List Char → Option (String × List Char)
  | '"' :: cs => (Json.parseChars cs).map fun (text, rest) => (String.ofList text, rest)
  | _ => none

/-- A token, from its compact text. -/
def parse (cs : List Char) : Option DiagnosticTransitionToken := do
  let cs ← skip "\x7b\"version\":".toList cs
  let (version, cs) ← readNat cs
  let cs ← skip ",\"stream\":".toList cs
  let (stream, cs) ← readString cs
  let cs ← skip ",\"created\":".toList cs
  let (created, cs) ← readInt cs
  let cs ← skip ",\"generation\":".toList cs
  let (generation, cs) ← readNat cs
  let cs ← skip ",\"predecessor\":".toList cs
  let (predecessor, cs) ← readNat cs
  if cs = ['}'] then some ⟨version, stream, created, generation, predecessor⟩ else none

theorem skip_append (mark cs : List Char) : skip mark (mark ++ cs) = some cs := by
  simp [skip]

theorem readNat_toDigits (n : Nat) {rest : List Char} (hrest : Json.NoDigit rest) :
    readNat (Nat.toDigits 10 n ++ rest) = some (n, rest) := by
  have hdigits : ∀ c ∈ Nat.toDigits 10 n, c.isDigit = true := fun c hc =>
    Nat.isDigit_of_mem_toDigits (by omega) (by omega) hc
  have hsplit : rest.takeWhile Char.isDigit = [] ∧ rest.dropWhile Char.isDigit = rest := by
    cases rest with
    | nil => exact ⟨rfl, rfl⟩
    | cons c rest => simp [hrest c rfl]
  unfold readNat
  rw [List.takeWhile_append_of_pos hdigits, List.dropWhile_append_of_pos hdigits, hsplit.1, hsplit.2]
  simp only [List.append_nil, Nat.ofDigitChars_ten_toDigits]
  exact if_neg Nat.toDigits_ne_nil

theorem readInt_printInt (n : Int) {rest : List Char} (hrest : Json.NoDigit rest) :
    readInt (printInt n ++ rest) = some (n, rest) := by
  cases n with
  | ofNat n =>
    obtain ⟨c, cs, hdigits, hc⟩ := Json.exists_digit_cons n
    have hread := readNat_toDigits n hrest
    simp only [printInt, hdigits, List.cons_append] at hread ⊢
    unfold readInt
    split
    · next heq =>
      obtain ⟨rfl, -⟩ := List.cons.inj heq
      exact absurd hc (by decide)
    · rw [hread]
      rfl
  | negSucc n =>
    simp only [printInt, List.cons_append, readInt, readNat_toDigits (n + 1) hrest, Option.map_some]
    rfl

theorem readString_printString (s : String) (rest : List Char) :
    readString (Json.printString s ++ rest) = some (s, rest) := by
  simp only [Json.printString, List.cons_append, List.append_assoc, List.nil_append, readString,
    Json.parseChars_flatMap, Option.map_some, String.ofList_toList]

theorem parse_print (token : DiagnosticTransitionToken) : parse token.print = some token := by
  have hmark : ∀ (mark : String) (rest : List Char), mark.toList.head? = some ',' →
      Json.NoDigit (mark.toList ++ rest) := by
    intro mark rest h c hc
    rw [List.head?_append, h] at hc
    obtain rfl := Option.some.inj hc
    decide
  have hend : Json.NoDigit ['}'] := by
    intro c hc
    obtain rfl := Option.some.inj hc
    decide
  unfold parse print
  simp only [skip_append, Option.bind_eq_bind, Option.bind_some,
    readNat_toDigits _ (hmark _ _ (by decide : ",\"stream\":".toList.head? = some ',')),
    readString_printString, readInt_printInt _ (hmark _ _
      (by decide : ",\"generation\":".toList.head? = some ',')),
    readNat_toDigits _ (hmark _ _ (by decide : ",\"predecessor\":".toList.head? = some ',')),
    readNat_toDigits _ hend, if_true]

end DiagnosticTransitionToken

@[reducible] def TokenText.concrete : TokenText where
  tokenToString token := String.ofList token.print
  tokenFromStr text := DiagnosticTransitionToken.parse text.toList

theorem TokenText.concrete_lawful : @TokenText.Lawful TokenText.concrete :=
  letI := TokenText.concrete
  { tokenFromStr_toString := fun token _ => by
      show DiagnosticTransitionToken.parse (String.ofList token.print).toList = some token
      rw [String.toList_ofList, DiagnosticTransitionToken.parse_print] }

end Rostfrei.Nats
