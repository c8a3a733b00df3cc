/-!
# Arithmetic modulo a prime

Subtraction, powers, inverses and square roots of residues held as natural
numbers below the modulus.
-/

set_option autoImplicit false

namespace BitcoinSpend.Curve

def subMod (modulus left right : Nat) : Nat :=
  (left + (modulus - right % modulus)) % modulus

/-- A power by repeated squaring, for an exponent of at most `bits` bits. -/
def powMod (modulus : Nat) : (bits : Nat) → (base exponent : Nat) → Nat
  | 0, _, _ => 1 % modulus
  | bits + 1, base, exponent =>
      let root := powMod modulus bits base (exponent / 2)
      let square := root * root % modulus
      if exponent % 2 = 1 then square * base % modulus else square

/-- The inverse of a nonzero residue of a prime modulus below `2 ^ 256`. -/
def invMod (modulus value : Nat) : Nat :=
  powMod modulus 256 value (modulus - 2)

/-- The square root of a residue that has one, for a prime modulus that is three modulo four. -/
def sqrtMod (modulus value : Nat) : Nat :=
  powMod modulus 256 value ((modulus + 1) / 4)

end BitcoinSpend.Curve
