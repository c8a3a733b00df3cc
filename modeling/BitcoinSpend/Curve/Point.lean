import BitcoinSpend.Curve.Modular

/-!
# The curve secp256k1

Points of `y² = x³ + 7` over a prime field. Sums and multiples are computed in
Jacobian coordinates, where `(x, y, z)` stands for `(x / z², y / z³)` and `z = 0`
for the point at infinity, and normalised at the end.
-/

set_option autoImplicit false

namespace BitcoinSpend.Curve

/-- The size of the coordinate field. -/
def fieldPrime : Nat :=
  0xfffffffffffffffffffffffffffffffffffffffffffffffffffffffefffffc2f

/-- The number of points, itself a prime. -/
def order : Nat :=
  0xfffffffffffffffffffffffffffffffebaaedce6af48a03bbfd25e8cd0364141

/-- Half the number of points, rounded down. -/
def halfOrder : Nat :=
  0x7fffffffffffffffffffffffffffffff5d576e7357a4501ddfe92f46681b20a0

/-- Whether two residues are the coordinates of a point. -/
def Contains (x y : Nat) : Prop :=
  x < fieldPrime ∧ y < fieldPrime ∧ y * y % fieldPrime = (x * x * x + 7) % fieldPrime

instance (x y : Nat) : Decidable (Contains x y) :=
  inferInstanceAs (Decidable (_ ∧ _ ∧ _))

inductive Point where
  | infinity
  | affine (x y : Nat)
  deriving DecidableEq, Repr

structure Jacobian where
  x : Nat
  y : Nat
  z : Nat
  deriving DecidableEq, Repr

/-- The point whose multiples make up the group. -/
def generator : Point :=
  .affine 0x79be667ef9dcbbac55a06295ce870b07029bfcdb2dce28d959f2815b16f81798
    0x483ada7726a3c4655da4fbfc0e1108a8fd17b448a68554199c47d08ffb10d4b8

namespace Jacobian

def infinity : Jacobian :=
  ⟨1, 1, 0⟩

def ofPoint : Point → Jacobian
  | .infinity => infinity
  | .affine x y => ⟨x, y, 1⟩

/-- The point that the coordinates stand for. -/
def toPoint (p : Jacobian) : Point :=
  if p.z = 0 then .infinity
  else
    let inverse := invMod fieldPrime p.z
    let square := inverse * inverse % fieldPrime
    .affine (p.x * square % fieldPrime) (p.y * (square * inverse % fieldPrime) % fieldPrime)

def double (p : Jacobian) : Jacobian :=
  if p.z = 0 ∨ p.y = 0 then infinity
  else
    let squareY := p.y * p.y % fieldPrime
    let shift := 4 * p.x * squareY % fieldPrime
    let slope := 3 * p.x * p.x % fieldPrime
    let x := subMod fieldPrime (slope * slope) (2 * shift)
    let y := subMod fieldPrime (slope * subMod fieldPrime shift x) (8 * squareY * squareY)
    ⟨x, y, 2 * p.y * p.z % fieldPrime⟩

def add (p q : Jacobian) : Jacobian :=
  if p.z = 0 then q
  else if q.z = 0 then p
  else
    let squareP := p.z * p.z % fieldPrime
    let squareQ := q.z * q.z % fieldPrime
    let xP := p.x * squareQ % fieldPrime
    let xQ := q.x * squareP % fieldPrime
    let yP := p.y * (squareQ * q.z % fieldPrime) % fieldPrime
    let yQ := q.y * (squareP * p.z % fieldPrime) % fieldPrime
    let width := subMod fieldPrime xQ xP
    let rise := subMod fieldPrime yQ yP
    if width = 0 then if rise = 0 then double p else infinity
    else
      let square := width * width % fieldPrime
      let cube := square * width % fieldPrime
      let shift := xP * square % fieldPrime
      let x := subMod fieldPrime (rise * rise) (cube + 2 * shift)
      let y := subMod fieldPrime (rise * subMod fieldPrime shift x) (yP * cube)
      ⟨x, y, p.z * q.z % fieldPrime * width % fieldPrime⟩

/-- A multiple of a point by doubling and adding, for a scalar of at most `bits` bits. -/
def mul (p : Jacobian) : (bits : Nat) → (scalar : Nat) → Jacobian
  | 0, _ => infinity
  | bits + 1, scalar =>
      let twice := double (mul p bits (scalar / 2))
      if scalar % 2 = 1 then add twice p else twice

end Jacobian

/-- A multiple of the generator by a scalar below `2 ^ 256`. -/
def mulGenerator (scalar : Nat) : Point :=
  ((Jacobian.ofPoint generator).mul 256 scalar).toPoint

/-- The sum of a multiple of the generator and a multiple of another point, for scalars below
`2 ^ 256`. -/
def mulAdd (scalar : Nat) (point : Point) (multiplier : Nat) : Point :=
  (((Jacobian.ofPoint generator).mul 256 scalar).add
    ((Jacobian.ofPoint point).mul 256 multiplier)).toPoint

end BitcoinSpend.Curve
