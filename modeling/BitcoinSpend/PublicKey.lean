import BitcoinSpend.Curve.Point
import BitcoinSpend.Digest.Composite
import BitcoinSpend.EncodingError

/-!
# Public keys

Points of the curve other than the one at infinity, in two encodings: `04` and
both coordinates, or `02` or `03` for the parity of `y` and the coordinate `x`.
-/

set_option autoImplicit false

namespace BitcoinSpend

/-- A point of the curve given by its coordinates. -/
structure PublicKey where
  x : Nat
  y : Nat
  contains : Curve.Contains x y
  deriving DecidableEq

namespace PublicKey

def point (key : PublicKey) : Curve.Point :=
  .affine key.x key.y

/-- The key with the given coordinates, if they lie on the curve. -/
def ofCoordinates? (x y : Nat) : Option PublicKey :=
  if h : Curve.Contains x y then some ⟨x, y, h⟩ else none

/-- The key at a point, unless it is the one at infinity. -/
def ofPoint? : Curve.Point → Option PublicKey
  | .infinity => none
  | .affine x y => ofCoordinates? x y

/-- The key with a given `x` and a given parity of `y`. -/
def ofParity? (x parity : Nat) : Option PublicKey :=
  let root := Curve.sqrtMod Curve.fieldPrime ((x * x * x + 7) % Curve.fieldPrime)
  ofCoordinates? x (if root % 2 = parity then root else Curve.fieldPrime - root)

def compressed (key : PublicKey) : Bytes :=
  (if key.y % 2 = 0 then 0x02 else 0x03) :: Bytes.ofNatBE 32 key.x

def uncompressed (key : PublicKey) : Bytes :=
  0x04 :: (Bytes.ofNatBE 32 key.x ++ Bytes.ofNatBE 32 key.y)

/-- Reads either encoding. Other first bytes and lengths are refused before the point is looked
at. -/
def ofBytes (bytes : Bytes) : Except EncodingError PublicKey :=
  let found : Option (Option PublicKey) :=
    match bytes with
    | first :: body =>
        if (first = 0x02 ∨ first = 0x03) ∧ body.length = 32 then
          some (ofParity? (Bytes.toNatBE body) (first.toNat % 2))
        else if first = 0x04 ∧ body.length = 64 then
          some (ofCoordinates? (Bytes.toNatBE (body.take 32)) (Bytes.toNatBE (body.drop 32)))
        else none
    | [] => none
  match found with
  | none => .error (.publicKey (.unsupportedEncoding bytes.length))
  | some none => .error (.publicKey .notOnCurve)
  | some (some key) => .ok key

def ofHex (text : String) : Except EncodingError PublicKey :=
  match Hex.decode text with
  | .error cause => .error (.hex cause)
  | .ok bytes => ofBytes bytes

/-- The 20-byte name of the key: HASH160 of its compressed encoding. -/
def hash (key : PublicKey) : Bytes :=
  Digest.hash160 key.compressed

def display (key : PublicKey) : String :=
  Hex.encode key.compressed

@[simp] theorem length_compressed (key : PublicKey) : key.compressed.length = 33 := by
  simp [compressed]

@[simp] theorem length_hash (key : PublicKey) : key.hash.length = 20 := by
  simp [hash]

end PublicKey

end BitcoinSpend
