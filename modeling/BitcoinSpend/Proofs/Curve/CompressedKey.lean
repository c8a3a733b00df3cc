import BitcoinSpend.Proofs.Curve.Primality
import BitcoinSpend.Proofs.ShortestNumber
import BitcoinSpend.PublicKey
import Mathlib.NumberTheory.LegendreSymbol.Basic

/-!
# Compressed public keys

A compressed key leaves one coordinate out, of which only the parity is kept. It is
one of the two square roots that the curve's equation has, and the two differ in
parity, so that every key is read back from its compressed encoding.
-/

set_option autoImplicit false

namespace BitcoinSpend

namespace Curve

/-- The root that is found of a square is the number that was squared, or its negative. -/
private theorem sqrtMod_square {modulus root : Nat} (isPrime : modulus.Prime)
    (threeModFour : modulus % 4 = 3) (short : modulus + 1 < 2 ^ 256) (bound : root < modulus) :
    sqrtMod modulus (root * root % modulus) = root ∨
      0 < root ∧ sqrtMod modulus (root * root % modulus) = modulus - root := by
  have fact : Fact modulus.Prime := ⟨isPrime⟩
  have exponents : 2 * ((modulus + 1) / 4) = modulus / 2 + 1 := by omega
  have found : sqrtMod modulus (root * root % modulus) =
      root ^ (modulus / 2) * root % modulus := by
    rw [sqrtMod, powMod_eq (Nat.lt_of_le_of_lt (Nat.div_le_self _ _) short), ← Nat.pow_mod, ← sq,
      ← pow_mul, exponents, pow_succ]
  rw [found]
  rcases Nat.eq_zero_or_pos root with zero | positive
  · rw [zero, mul_zero]
    exact Or.inl (Nat.zero_mod _)
  · have nonzero : (root : ZMod modulus) ≠ 0 := by
      rw [Ne, ZMod.natCast_eq_zero_iff]
      exact Nat.not_dvd_of_pos_of_lt positive bound
    rcases ZMod.pow_div_two_eq_neg_one_or_one modulus nonzero with one | negative
    · have same : root ^ (modulus / 2) * root % modulus = root % modulus := by
        rw [← ZMod.natCast_eq_natCast_iff', Nat.cast_mul, Nat.cast_pow, one, one_mul]
      exact Or.inl (same.trans (Nat.mod_eq_of_lt bound))
    · have same : root ^ (modulus / 2) * root % modulus = (modulus - root) % modulus := by
        rw [← ZMod.natCast_eq_natCast_iff', Nat.cast_mul, Nat.cast_pow, negative,
          Nat.cast_sub bound.le, ZMod.natCast_self, zero_sub, neg_one_mul]
      exact Or.inr ⟨positive, same.trans (Nat.mod_eq_of_lt (by omega))⟩

end Curve

namespace PublicKey

/-- A key is found from its first coordinate and the parity of the other. -/
private theorem ofParity?_parity (key : PublicKey) : ofParity? key.x (key.y % 2) = some key := by
  obtain ⟨-, boundY, equation⟩ := key.contains
  -- The modulus is odd, so that of a root and its negative exactly one has the parity.
  have odd : Curve.fieldPrime % 2 = 1 := by decide
  have roots := Curve.sqrtMod_square Curve.prime_fieldPrime (by decide) (by decide) boundY
  rw [equation] at roots
  have chosen : ∀ root, root = key.y ∨ 0 < key.y ∧ root = Curve.fieldPrime - key.y →
      (if root % 2 = key.y % 2 then root else Curve.fieldPrime - root) = key.y := by
    intro root isRoot
    split <;> omega
  rw [ofParity?, chosen _ roots, ofCoordinates?, dif_pos key.contains]

theorem ofBytes_compressed (key : PublicKey) : ofBytes key.compressed = .ok key := by
  have small : key.x < Bytes.capacity 32 := Nat.lt_trans key.contains.1 (by decide)
  have readX := Bytes.toNatBE_ofNatBE small
  have marked : ∃ first : UInt8, key.compressed = first :: Bytes.ofNatBE 32 key.x ∧
      (first = 0x02 ∨ first = 0x03) ∧ first.toNat % 2 = key.y % 2 := by
    rw [compressed]
    split
    · next even => exact ⟨0x02, rfl, Or.inl rfl, even.symm⟩
    · next odd => exact ⟨0x03, rfl, Or.inr rfl, (Nat.mod_two_ne_zero.mp odd).symm⟩
  obtain ⟨first, encoded, known, parity⟩ := marked
  have isCompressed : (first = 0x02 ∨ first = 0x03) ∧ (Bytes.ofNatBE 32 key.x).length = 32 :=
    ⟨known, Bytes.length_ofNatBE 32 key.x⟩
  simp only [encoded, ofBytes]
  rw [if_pos isCompressed, readX, parity, ofParity?_parity]

end PublicKey

end BitcoinSpend
