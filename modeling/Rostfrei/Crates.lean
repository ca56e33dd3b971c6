import Rostfrei.Lib.Json

/-!
# The third-party crates

What the modelled code takes from crates outside the repository: `sha2`, `serde_json` and `base64`.
They are parameters, with the `Debug` text of the standard library. `Crates.Lawful` states their
documented behaviour as far as the code relies on it: `serde_json` reads back what it wrote, up to
its nesting limit of 127, and `base64` reads back what it encoded. `Crates.Compact` adds that
`serde_json` writes compact text, which determines the document. No result assumes that SHA-256 is injective: where collisions matter, a result
says which two inputs must not collide.
-/

namespace Rostfrei

open Lib

/-- A SHA-256 digest. -/
abbrev Digest := Vector UInt8 32

class Crates where
  /-- `Sha256::digest`. -/
  sha256 : Bytes → Digest
  /-- `serde_json::to_vec` of a document. -/
  toVec : Json → Bytes
  /-- The document that `serde_json::from_slice` reads, if the text is well formed. -/
  fromSlice : Bytes → Option Json
  /-- The text of the error of `from_slice` when it reads these bytes as the named type. -/
  jsonError : String → Bytes → String
  /-- `STANDARD.encode`. -/
  base64Encode : Bytes → String
  /-- `STANDARD.decode`. -/
  base64Decode : String → Option Bytes
  /-- The text of the error of `STANDARD.decode`. -/
  base64Error : String → String
  /-- The `Debug` text of a `str`, which escapes by Unicode tables. -/
  strDebug : String → String

export Crates (sha256 toVec fromSlice jsonError base64Encode base64Decode base64Error strDebug)

/-- The nesting that `serde_json` reads. -/
def maxJsonDepth : Nat := 127

/-- The documented behaviour of `serde_json` and `base64` that the code relies on. -/
class Crates.Lawful [Crates] : Prop where
  fromSlice_toVec : ∀ j : Json, j.Fits maxJsonDepth → fromSlice (toVec j) = some j
  base64Decode_encode : ∀ bytes : Bytes, base64Decode (base64Encode bytes) = some bytes

/-- `serde_json::to_vec` writes compact text: brackets, commas and colons without blanks, and at
most six bytes for each byte of a string. The text determines the document, at any nesting. -/
class Crates.Compact [Crates] : Prop where
  length_toVec_le : ∀ j : Json, (toVec j).length ≤ j.textSize
  toVec_arr : ∀ items : List Json,
    toVec (.arr items) = 0x5b :: joinComma (items.map toVec) ++ [0x5d]
  toVec_obj : ∀ fields : List (String × Json), toVec (.obj fields) =
    0x7b :: joinComma (fields.map fun f => toVec (.str f.1) ++ 0x3a :: toVec f.2) ++ [0x7d]
  toVec_injective : ∀ {d : Nat} {i j : Json}, i.Fits d → j.Fits d → toVec i = toVec j → i = j

/-- Documents that print alike and fit the reader are equal. -/
theorem toVec_inj [Crates] [Crates.Lawful] {i j : Json} (hi : i.Fits maxJsonDepth)
    (hj : j.Fits maxJsonDepth) (h : toVec i = toVec j) : i = j := by
  have := congrArg fromSlice h
  rw [Crates.Lawful.fromSlice_toVec i hi, Crates.Lawful.fromSlice_toVec j hj] at this
  exact Option.some.inj this

/-- SHA-256 does not collide on these inputs. -/
def CollisionFree [Crates] (inputs : Set Bytes) : Prop := Set.InjOn sha256 inputs

end Rostfrei
