import Rostfrei.Lib.Bytes

/-!
# SHA-256

The hash of FIPS 180-4, as it computes: the message is padded to blocks of 64 bytes, each block is
expanded to 64 words and folded into the state by 64 rounds.
-/

namespace Lib.Sha256

/-- The round constants. -/
def constants : List UInt32 := [
  0x428a2f98, 0x71374491, 0xb5c0fbcf, 0xe9b5dba5, 0x3956c25b, 0x59f111f1, 0x923f82a4, 0xab1c5ed5,
  0xd807aa98, 0x12835b01, 0x243185be, 0x550c7dc3, 0x72be5d74, 0x80deb1fe, 0x9bdc06a7, 0xc19bf174,
  0xe49b69c1, 0xefbe4786, 0x0fc19dc6, 0x240ca1cc, 0x2de92c6f, 0x4a7484aa, 0x5cb0a9dc, 0x76f988da,
  0x983e5152, 0xa831c66d, 0xb00327c8, 0xbf597fc7, 0xc6e00bf3, 0xd5a79147, 0x06ca6351, 0x14292967,
  0x27b70a85, 0x2e1b2138, 0x4d2c6dfc, 0x53380d13, 0x650a7354, 0x766a0abb, 0x81c2c92e, 0x92722c85,
  0xa2bfe8a1, 0xa81a664b, 0xc24b8b70, 0xc76c51a3, 0xd192e819, 0xd6990624, 0xf40e3585, 0x106aa070,
  0x19a4c116, 0x1e376c08, 0x2748774c, 0x34b0bcb5, 0x391c0cb3, 0x4ed8aa4a, 0x5b9cca4f, 0x682e6ff3,
  0x748f82ee, 0x78a5636f, 0x84c87814, 0x8cc70208, 0x90befffa, 0xa4506ceb, 0xbef9a3f7, 0xc67178f2]

/-- The eight words of the state. -/
structure State where
  a : UInt32
  b : UInt32
  c : UInt32
  d : UInt32
  e : UInt32
  f : UInt32
  g : UInt32
  h : UInt32

def initial : State :=
  ⟨0x6a09e667, 0xbb67ae85, 0x3c6ef372, 0xa54ff53a, 0x510e527f, 0x9b05688c, 0x1f83d9ab, 0x5be0cd19⟩

def rotateRight (x n : UInt32) : UInt32 := x >>> n ||| x <<< (32 - n)

def smallSigma0 (x : UInt32) : UInt32 := rotateRight x 7 ^^^ rotateRight x 18 ^^^ x >>> 3

def smallSigma1 (x : UInt32) : UInt32 := rotateRight x 17 ^^^ rotateRight x 19 ^^^ x >>> 10

def bigSigma0 (x : UInt32) : UInt32 := rotateRight x 2 ^^^ rotateRight x 13 ^^^ rotateRight x 22

def bigSigma1 (x : UInt32) : UInt32 := rotateRight x 6 ^^^ rotateRight x 11 ^^^ rotateRight x 25

def choose (x y z : UInt32) : UInt32 := (x &&& y) ^^^ (~~~x &&& z)

def majority (x y z : UInt32) : UInt32 := (x &&& y) ^^^ (x &&& z) ^^^ (y &&& z)

/-- One round with its constant and its word. -/
def round (s : State) (k w : UInt32) : State :=
  let t1 := s.h + bigSigma1 s.e + choose s.e s.f s.g + k + w
  let t2 := bigSigma0 s.a + majority s.a s.b s.c
  ⟨t1 + t2, s.a, s.b, s.c, s.d + t1, s.e, s.f, s.g⟩

/-- The message schedule continued from its last sixteen words, latest first. -/
def expand : Nat → List UInt32 → List UInt32
  | 0, _ => []
  | n + 1, last =>
    let w := smallSigma1 (last.getD 1 0) + last.getD 6 0 + smallSigma0 (last.getD 14 0) +
      last.getD 15 0
    w :: expand n (w :: last.take 15)

def schedule (words : List UInt32) : List UInt32 := words ++ expand 48 words.reverse

def State.add (s t : State) : State :=
  ⟨s.a + t.a, s.b + t.b, s.c + t.c, s.d + t.d, s.e + t.e, s.f + t.f, s.g + t.g, s.h + t.h⟩

def compress (s : State) (words : List UInt32) : State :=
  s.add ((List.zip constants (schedule words)).foldl (fun s (k, w) => round s k w) s)

/-- The big-endian words of a byte string. -/
def words : Bytes → List UInt32
  | a :: b :: c :: d :: rest => UInt32.ofNat (ofBeBytes [a, b, c, d]) :: words rest
  | _ => []

/-- The message, a one bit, zeros and the length in bits, in whole blocks. -/
def padding (bytes : Bytes) : Bytes :=
  bytes ++ 0x80 :: List.replicate ((119 - bytes.length % 64) % 64) 0 ++
    beBytes 8 (8 * bytes.length)

/-- Folds the blocks of sixteen words into the state. -/
def blocks : Nat → State → List UInt32 → State
  | 0, s, _ => s
  | n + 1, s, ws => blocks n (compress s (ws.take 16)) (ws.drop 16)

def hashWords (bytes : Bytes) : State :=
  let ws := words (padding bytes)
  blocks (ws.length / 16) initial ws

def State.toBytes (s : State) : Vector UInt8 32 :=
  let word (x : UInt32) : Vector UInt8 4 :=
    #v[(x >>> 24).toUInt8, (x >>> 16).toUInt8, (x >>> 8).toUInt8, x.toUInt8]
  word s.a ++ word s.b ++ word s.c ++ word s.d ++ word s.e ++ word s.f ++ word s.g ++ word s.h

def hash (bytes : Bytes) : Vector UInt8 32 := (hashWords bytes).toBytes

end Lib.Sha256
