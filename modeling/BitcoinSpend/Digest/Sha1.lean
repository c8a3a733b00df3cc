import BitcoinSpend.Digest.Block

/-!
# SHA-1

The 20-byte digest of FIPS 180-4.
-/

set_option autoImplicit false

namespace BitcoinSpend.Digest.Sha1

/-- The five chaining words. -/
structure Chain where
  a : UInt32
  b : UInt32
  c : UInt32
  d : UInt32
  e : UInt32
  deriving DecidableEq, Repr

def initial : Chain :=
  ⟨0x67452301, 0xefcdab89, 0x98badcfe, 0x10325476, 0xc3d2e1f0⟩

/-- The next `count` schedule words, read off a sliding window of sixteen. -/
def schedule : (count : Nat) → (window : List UInt32) → List UInt32
  | 0, _ => []
  | count + 1, window =>
      let next := rotateLeft
        (window.getD 13 0 ^^^ window.getD 8 0 ^^^ window.getD 2 0 ^^^ window.getD 0 0) 1
      window.getD 0 0 :: schedule count (window.drop 1 ++ [next])

/-- The mixing function and the constant of a round. -/
def stage (index : Nat) (x : Chain) : UInt32 × UInt32 :=
  if index < 20 then ((x.b &&& x.c) ||| (~~~x.b &&& x.d), 0x5a827999)
  else if index < 40 then (x.b ^^^ x.c ^^^ x.d, 0x6ed9eba1)
  else if index < 60 then ((x.b &&& x.c) ||| (x.b &&& x.d) ||| (x.c &&& x.d), 0x8f1bbcdc)
  else (x.b ^^^ x.c ^^^ x.d, 0xca62c1d6)

def round (x : Chain) (input : UInt32 × Nat) : Chain :=
  let (mixed, constant) := stage input.2 x
  ⟨rotateLeft x.a 5 + mixed + x.e + constant + input.1, x.a, rotateLeft x.b 30, x.c, x.d⟩

def compress (x : Chain) (block : List UInt32) : Chain :=
  let y := (schedule 80 block).zipIdx.foldl round x
  ⟨x.a + y.a, x.b + y.b, x.c + y.c, x.d + y.d, x.e + y.e⟩

def Chain.words (x : Chain) : List UInt32 :=
  [x.a, x.b, x.c, x.d, x.e]

end BitcoinSpend.Digest.Sha1

namespace BitcoinSpend.Digest

def sha1 (message : Bytes) : Bytes :=
  let chain := (blocks .bigEndian message).foldl Sha1.compress Sha1.initial
  wordBytes .bigEndian chain.words

@[simp] theorem length_sha1 (message : Bytes) : (sha1 message).length = 20 := by
  simp [sha1, length_wordBytes, Sha1.Chain.words]

end BitcoinSpend.Digest
