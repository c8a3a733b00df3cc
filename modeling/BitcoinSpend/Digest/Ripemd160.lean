import BitcoinSpend.Digest.Block

/-!
# RIPEMD-160

A 20-byte digest made of two lines of eighty steps over the same block, whose
results are added crosswise to the chaining words.
-/

set_option autoImplicit false

namespace BitcoinSpend.Digest.Ripemd160

/-- The five chaining words. -/
structure Chain where
  a : UInt32
  b : UInt32
  c : UInt32
  d : UInt32
  e : UInt32
  deriving DecidableEq, Repr

def initial : Chain :=
  ⟨0x67452301, 0xefcdab89, 0x98badcfe, 0x10325476, 0xc3d2e1f0⟩

/-- The five bitwise functions, one for each group of sixteen steps. -/
def mix (group : Nat) (x y z : UInt32) : UInt32 :=
  match group with
  | 0 => x ^^^ y ^^^ z
  | 1 => (x &&& y) ||| (~~~x &&& z)
  | 2 => (x ||| ~~~y) ^^^ z
  | 3 => (x &&& z) ||| (y &&& ~~~z)
  | _ => x ^^^ (y ||| ~~~z)

/-- One group of sixteen steps: which function, which constant, and for each step which word of
the block is added and how far the sum is turned. -/
structure Group where
  function : Nat
  constant : UInt32
  steps : List (Nat × UInt32)

def leftLine : List Group := [
  ⟨0, 0x00000000, [(0, 11), (1, 14), (2, 15), (3, 12), (4, 5), (5, 8), (6, 7), (7, 9),
    (8, 11), (9, 13), (10, 14), (11, 15), (12, 6), (13, 7), (14, 9), (15, 8)]⟩,
  ⟨1, 0x5a827999, [(7, 7), (4, 6), (13, 8), (1, 13), (10, 11), (6, 9), (15, 7), (3, 15),
    (12, 7), (0, 12), (9, 15), (5, 9), (2, 11), (14, 7), (11, 13), (8, 12)]⟩,
  ⟨2, 0x6ed9eba1, [(3, 11), (10, 13), (14, 6), (4, 7), (9, 14), (15, 9), (8, 13), (1, 15),
    (2, 14), (7, 8), (0, 13), (6, 6), (13, 5), (11, 12), (5, 7), (12, 5)]⟩,
  ⟨3, 0x8f1bbcdc, [(1, 11), (9, 12), (11, 14), (10, 15), (0, 14), (8, 15), (12, 9), (4, 8),
    (13, 9), (3, 14), (7, 5), (15, 6), (14, 8), (5, 6), (6, 5), (2, 12)]⟩,
  ⟨4, 0xa953fd4e, [(4, 9), (0, 15), (5, 5), (9, 11), (7, 6), (12, 8), (2, 13), (10, 12),
    (14, 5), (1, 12), (3, 13), (8, 14), (11, 11), (6, 8), (15, 5), (13, 6)]⟩]

def rightLine : List Group := [
  ⟨4, 0x50a28be6, [(5, 8), (14, 9), (7, 9), (0, 11), (9, 13), (2, 15), (11, 15), (4, 5),
    (13, 7), (6, 7), (15, 8), (8, 11), (1, 14), (10, 14), (3, 12), (12, 6)]⟩,
  ⟨3, 0x5c4dd124, [(6, 9), (11, 13), (3, 15), (7, 7), (0, 12), (13, 8), (5, 9), (10, 11),
    (14, 7), (15, 7), (8, 12), (12, 7), (4, 6), (9, 15), (1, 13), (2, 11)]⟩,
  ⟨2, 0x6d703ef3, [(15, 9), (5, 7), (1, 15), (3, 11), (7, 8), (14, 6), (6, 6), (9, 14),
    (11, 12), (8, 13), (12, 5), (2, 14), (10, 13), (0, 13), (4, 7), (13, 5)]⟩,
  ⟨1, 0x7a6d76e9, [(8, 15), (6, 5), (4, 8), (1, 11), (3, 14), (11, 14), (15, 6), (0, 14),
    (5, 6), (12, 9), (2, 12), (13, 9), (9, 12), (7, 5), (10, 15), (14, 8)]⟩,
  ⟨0, 0x00000000, [(12, 8), (15, 5), (10, 12), (4, 9), (1, 12), (5, 5), (8, 14), (7, 6),
    (6, 8), (2, 13), (13, 6), (14, 5), (0, 15), (3, 13), (9, 11), (11, 11)]⟩]

def step (group : Group) (block : List UInt32) (x : Chain) (input : Nat × UInt32) : Chain :=
  let sum := x.a + mix group.function x.b x.c x.d + block.getD input.1 0 + group.constant
  ⟨x.e, rotateLeft sum input.2 + x.e, x.b, rotateLeft x.c 10, x.d⟩

def runLine (line : List Group) (block : List UInt32) (x : Chain) : Chain :=
  line.foldl (fun x group => group.steps.foldl (step group block) x) x

def compress (x : Chain) (block : List UInt32) : Chain :=
  let l := runLine leftLine block x
  let r := runLine rightLine block x
  ⟨x.b + l.c + r.d, x.c + l.d + r.e, x.d + l.e + r.a, x.e + l.a + r.b, x.a + l.b + r.c⟩

def Chain.words (x : Chain) : List UInt32 :=
  [x.a, x.b, x.c, x.d, x.e]

end BitcoinSpend.Digest.Ripemd160

namespace BitcoinSpend.Digest

def ripemd160 (message : Bytes) : Bytes :=
  let chain := (blocks .littleEndian message).foldl Ripemd160.compress Ripemd160.initial
  wordBytes .littleEndian chain.words

@[simp] theorem length_ripemd160 (message : Bytes) : (ripemd160 message).length = 20 := by
  simp [ripemd160, length_wordBytes, Ripemd160.Chain.words]

end BitcoinSpend.Digest
