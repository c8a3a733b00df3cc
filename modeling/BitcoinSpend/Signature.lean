import BitcoinSpend.Hash32
import BitcoinSpend.PublicKey

/-!
# Signatures

Pairs of 256-bit numbers, their DER encoding and the check against a public
key. The reader here looks at structure only: it admits zero padding and bytes
after the sequence. The stricter layout that scripts may ask for is checked
where scripts are run.
-/

set_option autoImplicit false

namespace BitcoinSpend

/-- A signature, not necessarily a valid one. -/
structure Signature where
  r : BitVec 256
  s : BitVec 256
  deriving DecidableEq, Repr

namespace Signature

/-- The bytes of a DER integer: the shortest form, with a zero byte before a set top bit. -/
def integerBytes (value : BitVec 256) : Bytes :=
  match Bytes.ofNatBEShortest value.toNat with
  | [] => [0]
  | first :: rest => if first < 0x80 then first :: rest else 0 :: first :: rest

def encodeInteger (value : BitVec 256) : Bytes :=
  let bytes := integerBytes value
  0x02 :: UInt8.ofNat bytes.length :: bytes

def toDer (signature : Signature) : Bytes :=
  let body := encodeInteger signature.r ++ encodeInteger signature.s
  0x30 :: UInt8.ofNat body.length :: body

def readInteger? : Bytes → Option (Bytes × Bytes)
  | tag :: length :: rest =>
      if tag = 0x02 ∧ length ≠ 0 ∧ length.toNat ≤ rest.length then
        some (rest.take length.toNat, rest.drop length.toNat)
      else none
  | _ => none

/-- The value of an integer that fits 32 bytes when its leading zeros are dropped. -/
def fit (bytes : Bytes) : Except SignatureError (BitVec 256) :=
  let digits := bytes.dropWhile (· == 0)
  if 32 < digits.length then .error .integerTooWide
  else .ok (BitVec.ofNat 256 (Bytes.toNatBE digits))

/-- Whether a number may stand in a valid signature. -/
def inRange (value : BitVec 256) : Bool :=
  0 < value.toNat && value.toNat < Curve.order

/-- Reads the structure `30 length 02 length r 02 length s` and requires both numbers to be
positive and below the order of the group. -/
def readDer (bytes : Bytes) : Except SignatureError Signature := do
  let (length, content) ←
    match bytes with
    | tag :: length :: content =>
        if tag = 0x30 ∧ 8 ≤ bytes.length then pure (length.toNat, content)
        else throw .noSequence
    | _ => throw .noSequence
  if content.length < length then throw .sequenceLength
  let some (bytesR, rest) := readInteger? (content.take length) | throw .integerR
  let some (bytesS, _) := readInteger? rest | throw .integerS
  let r ← fit bytesR
  let s ← fit bytesS
  if !inRange r then throw .rangeR
  if !inRange s then throw .rangeS
  pure ⟨r, s⟩

def ofDer (bytes : Bytes) : Except EncodingError Signature :=
  (readDer bytes).mapError .signature

def isLowS (signature : Signature) : Bool :=
  signature.s.toNat ≤ Curve.halfOrder

/-- Whether the signature is one over the digest by the key. -/
def verifies (signature : Signature) (digest : Hash32) (key : PublicKey) : Bool :=
  if inRange signature.r && inRange signature.s then
    let inverse := Curve.invMod Curve.order signature.s.toNat
    let fromDigest := digest.bytes.toNatBE * inverse % Curve.order
    let fromKey := signature.r.toNat * inverse % Curve.order
    match Curve.mulAdd fromDigest key.point fromKey with
    | .infinity => false
    | .affine x _ => x % Curve.order = signature.r.toNat
  else false

def ofParts (r s : Bytes) : Signature :=
  ⟨BitVec.ofNat 256 (Bytes.toNatBE r), BitVec.ofNat 256 (Bytes.toNatBE s)⟩

end Signature

end BitcoinSpend
