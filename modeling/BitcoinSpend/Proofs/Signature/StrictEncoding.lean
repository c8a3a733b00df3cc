import BitcoinSpend.Proofs.Signature.Der
import BitcoinSpend.Proofs.Spend.InRange

/-!
# Strict encodings

What flags may ask of an encoded signature is the strict layout, which the encoder
always keeps. Reading accepts more than that layout, but what it reads from the
strict layout is encoded as it was.
-/

set_option autoImplicit false

namespace BitcoinSpend

namespace Spend

private theorem IsShortest.length_pos {number : Bytes} (shortest : IsShortest number) :
    0 < number.length := by
  obtain ⟨first, rest, rfl, -, -⟩ := shortest
  exact Nat.succ_pos _

/-- Under a flag that asks for it the strict layout is accepted and nothing else but the empty
string, under no such flag everything, and no byte is read that is not there. -/
theorem checkSignatureEncoding_exact (flags : Flags) (bytes : Bytes) :
    (flags.asksForLayout = true →
      (checkSignatureEncoding flags bytes = .ok () ↔
        bytes = [] ∨ IsStrict (flags.has Flags.lowS) bytes)) ∧
    (flags.asksForLayout = false → checkSignatureEncoding flags bytes = .ok ()) ∧
    StaysInRange (checkSignatureEncoding flags bytes) := by
  refine ⟨fun asked => ?_, fun free => ?_, ?_⟩
  · exact checkSignatureEncoding_eq_ok_iff asked
  · exact checkSignatureEncoding_of_notAsked free bytes
  · exact checkSignatureEncoding_inRange flags bytes

end Spend

namespace Signature

open Spend (Flags IsShortest IsStrict checkSignatureEncoding signatureFrame)

/-! ## The encoder under the strict check -/

/-- The frame tells its numbers apart by the length of the first. -/
theorem signatureFrame_inj {r s r' s' : Bytes} (short : r.length < 256) (short' : r'.length < 256)
    (same : signatureFrame r s = signatureFrame r' s') : r = r' ∧ s = s' := by
  simp only [signatureFrame, List.cons.injEq] at same
  obtain ⟨-, -, -, counts, tails⟩ := same
  have lengths := congrArg UInt8.toNat counts
  rw [UInt8.toNat_ofNat_of_lt' short, UInt8.toNat_ofNat_of_lt' short'] at lengths
  obtain ⟨sameR, rest⟩ := List.append_inj tails lengths
  simp only [List.cons.injEq] at rest
  exact ⟨sameR, rest.2.2⟩

theorem isStrict_toDer_iff {lowS : Bool} {signature : Signature} :
    IsStrict lowS signature.toDer ↔ (lowS = true → signature.isLowS = true) := by
  constructor
  · rintro ⟨r, s, same, -, bound, -, -, low⟩ asked
    have sizeR := length_integerBytes signature.r
    rw [same, Spend.length_signatureFrame] at bound
    rw [toDer_eq_signatureFrame] at same
    obtain ⟨-, sameS⟩ := signatureFrame_inj (by omega) (by omega) same
    have half := low asked
    rw [← sameS, toNatBE_integerBytes] at half
    simpa [isLowS] using half
  · exact isStrict_toDer

theorem checkSignatureEncoding_toDer_iff {flags : Flags} {signature : Signature} :
    checkSignatureEncoding flags signature.toDer = .ok () ↔
      (flags.has Flags.lowS = true → signature.isLowS = true) := by
  have filled : signature.toDer ≠ [] := nofun
  cases asked : flags.asksForLayout with
  | true => simp [Spend.checkSignatureEncoding_eq_ok_iff asked, filled, isStrict_toDer_iff]
  | false =>
      have notLow : ¬flags.has Flags.lowS = true := by
        intro low
        rw [Flags.asksForLayout_of_lowS low] at asked
        cases asked
      simp [Spend.checkSignatureEncoding_of_notAsked asked, notLow]

private theorem not_isLowS_of_order_le {signature : Signature}
    (large : Curve.order ≤ signature.s.toNat) :
    signature.isLowS = false := by
  have half : Curve.halfOrder < Curve.order := by decide
  simp only [isLowS, decide_eq_false_iff_not]
  omega

/-! ## Reading the strict layout -/

private theorem toNat_of_fit {bytes : Bytes} {value : BitVec 256} (fits : fit bytes = .ok value) :
    value.toNat = bytes.toNatBE := by
  have same := Bytes.toNatBE_dropWhile bytes
  simp only [fit] at fits
  split at fits
  · cases fits
  · next narrow =>
      cases fits
      have bound := Bytes.toNatBE_lt (bytes.dropWhile (· == 0))
      have small : Bytes.toNatBE (bytes.dropWhile (· == 0)) < Bytes.capacity 32 :=
        Nat.lt_of_lt_of_le bound (Bytes.capacity_mono (by omega))
      rw [BitVec.toNat_ofNat]
      exact (Nat.mod_eq_of_lt small).trans same

/-- A number that is read from its shortest bytes is written in the same bytes. -/
private theorem integerBytes_of_fit {bytes : Bytes} {value : BitVec 256}
    (shortest : IsShortest bytes) (fits : fit bytes = .ok value) : integerBytes value = bytes := by
  obtain ⟨first, rest, rfl, low, unpadded⟩ := shortest
  rw [integerBytes, toNat_of_fit fits, Bytes.ofNatBEShortest_toNatBE]
  by_cases zero : first = 0
  · subst zero
    rw [List.dropWhile_cons_of_pos (by decide)]
    cases rest with
    | nil => rfl
    | cons second rest =>
        have high : 0x80 ≤ second := unpadded rfl second rfl
        have nonzero : ¬(second == 0) = true := by
          intro isZero
          rw [eq_of_beq isZero] at high
          exact absurd high (by decide)
        rw [List.dropWhile_cons_of_neg (p := fun byte => byte == 0) nonzero]
        exact if_neg (UInt8.not_lt.mpr high)
  · have nonzero : ¬(first == 0) = true := fun isZero => zero (eq_of_beq isZero)
    rw [List.dropWhile_cons_of_neg (p := fun byte => byte == 0) nonzero]
    exact if_pos low

private theorem toDer_of_isStrict {lowS : Bool} {bytes : Bytes} {signature : Signature}
    (strict : IsStrict lowS bytes) (read : readDer bytes = .ok signature) :
    signature.toDer = bytes := by
  obtain ⟨r, s, rfl, -, bound, shortestR, shortestS, -⟩ := strict
  rw [Spend.length_signatureFrame] at bound
  rw [readDer_signatureFrame shortestR.length_pos shortestS.length_pos (by omega),
    bind_eq_ok_iff] at read
  obtain ⟨valueR, fitsR, read⟩ := read
  obtain ⟨valueS, fitsS, read⟩ := bind_eq_ok_iff.mp read
  have found : signature = ⟨valueR, valueS⟩ := by
    revert read
    cases inRange valueR <;> cases inRange valueS <;> intro read <;> cases read
    rfl
  rw [found, toDer_eq_signatureFrame, integerBytes_of_fit shortestR fitsR,
    integerBytes_of_fit shortestS fitsS]

/-! ## Agreement -/

theorem inRange_iff {value : BitVec 256} :
    inRange value = true ↔ 0 < value.toNat ∧ value.toNat < Curve.order := by
  simp [inRange]

private theorem ofDer_toDer {signature : Signature} (rangeR : inRange signature.r = true)
    (rangeS : inRange signature.s = true) : ofDer signature.toDer = .ok signature := by
  rw [ofDer, readDer_toDer, rangeR, rangeS]
  rfl

private theorem ofDer_toDer_eq_error {signature : Signature}
    (outside : ¬(inRange signature.r = true ∧ inRange signature.s = true)) :
    ∃ cause, ofDer signature.toDer = .error cause := by
  rw [ofDer, readDer_toDer]
  cases rangeR : inRange signature.r with
  | false => exact ⟨_, rfl⟩
  | true =>
      cases rangeS : inRange signature.s with
      | false => exact ⟨_, rfl⟩
      | true => exact absurd ⟨rangeR, rangeS⟩ outside

/-- The encoder, the reader and the strict check agree: what is encoded passes the check, except
for a high second number where a low one is asked for, and is read back if its numbers are in
range; what passes the check and is read is encoded as it was. -/
theorem der_agreement (signature : Signature) :
    (∀ flags : Flags, flags.has Flags.lowS = false →
      checkSignatureEncoding flags signature.toDer = .ok ()) ∧
    (∀ flags : Flags, flags.has Flags.lowS = true →
      (checkSignatureEncoding flags signature.toDer = .ok () ↔ signature.isLowS = true)) ∧
    (Curve.order ≤ signature.s.toNat → signature.isLowS = false) ∧
    ((0 < signature.r.toNat ∧ signature.r.toNat < Curve.order) ∧
        (0 < signature.s.toNat ∧ signature.s.toNat < Curve.order) →
      ofDer signature.toDer = .ok signature) ∧
    (¬((0 < signature.r.toNat ∧ signature.r.toNat < Curve.order) ∧
        (0 < signature.s.toNat ∧ signature.s.toNat < Curve.order)) →
      ∃ cause, ofDer signature.toDer = .error cause) ∧
    (∀ (flags : Flags) (bytes : Bytes), flags.asksForLayout = true →
      checkSignatureEncoding flags bytes = .ok () → ofDer bytes = .ok signature →
      signature.toDer = bytes) := by
  refine ⟨fun flags free => ?_, fun flags asked => ?_, not_isLowS_of_order_le, ?_, ?_, ?_⟩
  · exact checkSignatureEncoding_toDer_iff.mpr (by simp [free])
  · rw [checkSignatureEncoding_toDer_iff]
    simp [asked]
  · rintro ⟨rangeR, rangeS⟩
    exact ofDer_toDer (inRange_iff.mpr rangeR) (inRange_iff.mpr rangeS)
  · intro outside
    rw [← inRange_iff, ← inRange_iff] at outside
    exact ofDer_toDer_eq_error outside
  · intro flags bytes asked passed read
    rcases (Spend.checkSignatureEncoding_eq_ok_iff asked).mp passed with rfl | strict
    · cases read
    · exact toDer_of_isStrict strict (mapError_eq_ok_iff.mp read)

end Signature

end BitcoinSpend
