import BitcoinSpend.PrivateKey
import BitcoinSpend.Transaction.Error

/-!
# R-puzzles

A locking script that takes the number `r` out of the spender's signature and
compares it, or a digest of it, with a committed value. Whoever knows the nonce
behind `r` can spend, with any key.
-/

set_option autoImplicit false

namespace BitcoinSpend.RPuzzle

/-- The digest of `r` that a puzzle commits to, or nothing where it commits to `r` itself. -/
abbrev Kind := Option Digest.Algorithm

def digestOpcode : Digest.Algorithm → Opcode
  | .sha1 => Opcode.sha1
  | .sha256 => Opcode.sha256
  | .hash256 => Opcode.hash256
  | .ripemd160 => Opcode.ripemd160
  | .hash160 => Opcode.hash160

def commit (kind : Kind) (r : Bytes) : Bytes :=
  match kind with
  | none => r
  | some algorithm => algorithm.digest r

/-- The instructions that bring `r` to the top from below the key: past the first three bytes of the
signature comes the length of `r`, and then `r`. -/
def extraction : List Opcode :=
  [Opcode.copySecond, Opcode.three, Opcode.split, Opcode.nip, Opcode.one, Opcode.split, Opcode.swap,
    Opcode.split, Opcode.drop]

/-- The locking script for a committed value that is not empty. -/
def lockingScript (kind : Kind) (value : Bytes) : Except TransactionError Script :=
  if value.isEmpty then .error (.invalid .emptyPuzzle)
  else
    .ok (Script.ofChunks (extraction.map Chunk.ofOpcode ++
      (kind.map fun algorithm => Chunk.ofOpcode (digestOpcode algorithm)).toList ++
      [Chunk.push value, Chunk.ofOpcode Opcode.equalVerify, Chunk.ofOpcode Opcode.checkSig]))

/-- A big-endian number in the form that it has in signatures: leading zeros dropped, but not the
last byte, and a zero before a set top bit. -/
def signedForm (number : Bytes) : Bytes :=
  match number.dropWhile (· == 0) with
  | [] => [0]
  | first :: rest => if first &&& 0x80 ≠ 0 then 0 :: first :: rest else first :: rest

/-- The number `r` of signatures made with a nonce, in the form that it has in them. It is taken
from the compressed encoding of the nonce's point. -/
def ofNonce (nonce : Bytes) : Except TransactionError Bytes := do
  let key ← (PrivateKey.ofBytes nonce).mapError .encoding
  pure (signedForm key.publicKey.compressed.tail)

def ofDer? (der : Bytes) : Option Bytes :=
  match der.drop 3 with
  | length :: rest => if length.toNat ≤ rest.length then some (rest.take length.toNat) else none
  | [] => none

end BitcoinSpend.RPuzzle
