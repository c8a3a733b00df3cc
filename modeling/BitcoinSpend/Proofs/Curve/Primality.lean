import BitcoinSpend.Curve.Point
import Mathlib.NumberTheory.LucasPrimality

/-!
# The coordinate field is a field

Powers by repeated squaring are powers, and the size of the coordinate field is a
prime. Lucas's test shows a number to be prime by a residue of order one less, for
which the prime factors of that order are needed: they are shown to be prime by
the same test, starting from the prime two.
-/

set_option autoImplicit false

namespace BitcoinSpend.Curve

/-! ## Powers -/

theorem powMod_eq {modulus bits base exponent : Nat} (short : exponent < 2 ^ bits) :
    powMod modulus bits base exponent = base ^ exponent % modulus := by
  induction bits generalizing exponent with
  | zero =>
      have none : exponent = 0 := by simpa using short
      rw [none, pow_zero, powMod]
  | succ bits ih =>
      have shortHalf : exponent / 2 < 2 ^ bits := by
        rw [pow_succ] at short
        omega
      have parts := Nat.div_add_mod exponent 2
      have square : powMod modulus bits base (exponent / 2) *
          powMod modulus bits base (exponent / 2) % modulus =
            base ^ (2 * (exponent / 2)) % modulus := by
        rw [ih shortHalf, ← Nat.mul_mod, ← pow_add, two_mul]
      simp only [powMod, square]
      split
      · next odd =>
          rw [odd] at parts
          conv_rhs => rw [← parts, pow_succ]
          rw [Nat.mod_mul_mod]
      · next even =>
          have isDouble : 2 * (exponent / 2) = exponent := by omega
          rw [isDouble]

/-! ## Lucas's test -/

/-- What shows a number to be prime: a residue whose order is one less, and the prime factors of
that order, each as often as it divides it. -/
structure LucasEntry where
  modulus : Nat
  witness : Nat
  factors : List Nat

namespace LucasEntry

/-- A power of the witness. -/
def power (entry : LucasEntry) (exponent : Nat) : Nat :=
  powMod entry.modulus (entry.modulus.log2 + 1) entry.witness exponent

/-- Whether the entry shows its number to be prime when the numbers in `known` are. -/
def check (known : List Nat) (entry : LucasEntry) : Bool :=
  let top := entry.modulus - 1
  1 < entry.modulus && entry.factors.foldr (· * ·) 1 == top &&
    entry.factors.all known.contains && entry.power top == 1 &&
    entry.factors.all fun factor => entry.power (top / factor) != 1

/-- Whether each entry passes when the numbers before it are prime. -/
def checkAll : (known : List Nat) → List LucasEntry → Bool
  | _, [] => true
  | known, entry :: entries =>
      entry.check known && checkAll (entry.modulus :: known) entries

theorem power_eq_one_iff {entry : LucasEntry} (large : 1 < entry.modulus) {exponent : Nat}
    (bound : exponent ≤ entry.modulus) :
    entry.power exponent = 1 ↔ (entry.witness : ZMod entry.modulus) ^ exponent = 1 := by
  have short : exponent < 2 ^ (entry.modulus.log2 + 1) :=
    Nat.lt_of_le_of_lt bound Nat.lt_log2_self
  have one : 1 % entry.modulus = 1 := Nat.mod_eq_of_lt large
  have reduced := ZMod.natCast_eq_natCast_iff' (entry.witness ^ exponent) 1 entry.modulus
  rw [one, Nat.cast_pow, Nat.cast_one] at reduced
  rw [power, powMod_eq short]
  exact reduced.symm

private theorem prime_of_check {known : List Nat} {entry : LucasEntry}
    (knownPrime : ∀ factor ∈ known, factor.Prime) (passed : entry.check known = true) :
    entry.modulus.Prime := by
  simp only [check, Bool.and_eq_true, decide_eq_true_eq, beq_iff_eq, bne_iff_ne,
    List.all_eq_true, List.contains_eq_mem] at passed
  obtain ⟨⟨⟨⟨large, product⟩, isKnown⟩, whole⟩, parts⟩ := passed
  have bound : entry.modulus - 1 ≤ entry.modulus := Nat.sub_le _ _
  refine lucas_primality entry.modulus entry.witness ((power_eq_one_iff large bound).mp whole) ?_
  intro prime isPrime divides
  rw [← product, ← List.prod_eq_foldr] at divides
  obtain ⟨factor, member, dividesFactor⟩ := (Prime.dvd_prod_iff isPrime.prime).mp divides
  have same : prime = factor :=
    (Nat.prime_dvd_prime_iff_eq isPrime (knownPrime factor (isKnown factor member))).mp
      dividesFactor
  rw [same]
  exact fun one => parts factor member
    ((power_eq_one_iff large (Nat.le_trans (Nat.div_le_self _ _) bound)).mpr one)

private theorem prime_of_checkAll {known : List Nat} {entries : List LucasEntry}
    (knownPrime : ∀ factor ∈ known, factor.Prime) (passed : checkAll known entries = true) :
    ∀ entry ∈ entries, entry.modulus.Prime := by
  induction entries generalizing known with
  | nil => exact List.forall_mem_nil _
  | cons entry entries ih =>
      rw [checkAll, Bool.and_eq_true] at passed
      have isPrime := prime_of_check knownPrime passed.1
      exact List.forall_mem_cons.mpr
        ⟨isPrime, ih (List.forall_mem_cons.mpr ⟨isPrime, knownPrime⟩) passed.2⟩

/-- The primes that lead to the size of the coordinate field. -/
def ofFieldPrime : List LucasEntry :=
  [⟨3, 2, [2]⟩, ⟨5, 2, [2, 2]⟩, ⟨7, 3, [2, 3]⟩, ⟨11, 2, [2, 5]⟩, ⟨13, 2, [2, 2, 3]⟩,
    ⟨17, 3, [2, 2, 2, 2]⟩, ⟨19, 2, [2, 3, 3]⟩, ⟨29, 2, [2, 2, 7]⟩, ⟨31, 3, [2, 3, 5]⟩,
    ⟨41, 6, [2, 2, 2, 5]⟩, ⟨53, 2, [2, 2, 13]⟩, ⟨67, 2, [2, 3, 11]⟩, ⟨83, 2, [2, 41]⟩,
    ⟨97, 5, [2, 2, 2, 2, 2, 3]⟩, ⟨101, 2, [2, 2, 5, 5]⟩, ⟨103, 5, [2, 3, 17]⟩,
    ⟨131, 2, [2, 5, 13]⟩, ⟨239, 7, [2, 7, 17]⟩, ⟨271, 6, [2, 3, 3, 3, 5]⟩, ⟨419, 2, [2, 11, 19]⟩,
    ⟨443, 2, [2, 13, 17]⟩, ⟨887, 5, [2, 443]⟩, ⟨971, 6, [2, 5, 97]⟩, ⟨1373, 2, [2, 2, 7, 7, 7]⟩,
    ⟨1627, 3, [2, 3, 271]⟩, ⟨2621, 2, [2, 2, 5, 131]⟩, ⟨2657, 3, [2, 2, 2, 2, 2, 83]⟩,
    ⟨4423, 3, [2, 3, 11, 67]⟩, ⟨5323, 5, [2, 3, 887]⟩, ⟨7723, 3, [2, 3, 3, 3, 11, 13]⟩,
    ⟨13441, 11, [2, 2, 2, 2, 2, 2, 2, 3, 5, 7]⟩, ⟨20113, 10, [2, 2, 2, 2, 3, 419]⟩,
    ⟨24809, 6, [2, 2, 2, 7, 443]⟩, ⟨41201, 3, [2, 2, 2, 2, 5, 5, 103]⟩,
    ⟨96557, 2, [2, 2, 101, 239]⟩, ⟨1206781, 10, [2, 2, 3, 5, 20113]⟩,
    ⟨7240687, 3, [2, 3, 1206781]⟩, ⟨13331831, 13, [2, 5, 971, 1373]⟩,
    ⟨107590001, 3, [2, 2, 2, 2, 5, 5, 5, 5, 7, 29, 53]⟩,
    ⟨173378833005251801, 6, [2, 2, 2, 5, 5, 2621, 24809, 13331831]⟩,
    ⟨22149492674086928081353, 5, [2, 2, 2, 3, 5323, 173378833005251801]⟩,
    ⟨132896956044521568488119, 6, [2, 3, 22149492674086928081353]⟩,
    ⟨255515944373312847190720520512484175977, 3,
      [2, 2, 2, 7, 7, 11, 1627, 2657, 4423, 41201, 96557, 7240687, 107590001]⟩,
    ⟨205115282021455665897114700593932402728804164701536103180137503955397371, 10,
      [2, 3, 5, 29, 29, 31, 7723, 132896956044521568488119,
        255515944373312847190720520512484175977]⟩,
    ⟨fieldPrime, 3,
      [2, 3, 7, 13441, 205115282021455665897114700593932402728804164701536103180137503955397371]⟩]

private theorem checkAll_ofFieldPrime : checkAll [2] ofFieldPrime = true := by decide +kernel

end LucasEntry

theorem prime_fieldPrime : fieldPrime.Prime := by
  have two : ∀ factor ∈ [2], factor.Prime := List.forall_mem_singleton.mpr Nat.prime_two
  exact LucasEntry.prime_of_checkAll two LucasEntry.checkAll_ofFieldPrime
    ⟨fieldPrime, 3, _⟩ (List.mem_of_getLast? rfl)

end BitcoinSpend.Curve
