import BitcoinSpend.PrivateKey
import BitcoinSpend.Proofs.ShortestNumber
import BitcoinSpend.Proofs.Spend.StrictSignature

/-!
# Encoded signatures

Every signature is encoded in the strict layout, and what is read back from its
encoding is the signature itself if both of its numbers are in range. The numbers of
a signature that a key makes are in range, and the second one is low.
-/

set_option autoImplicit false

namespace BitcoinSpend.Signature

/-! ## One number -/

/-- A number as encoded is its shortest form, perhaps with a zero in front. -/
private theorem integerBytes_eq_or (value : BitVec 256) :
    integerBytes value = 0 :: Bytes.ofNatBEShortest value.toNat ∨
      integerBytes value = Bytes.ofNatBEShortest value.toNat := by
  simp only [integerBytes]
  split
  · next empty => exact Or.inl (by rw [empty])
  · next first rest form =>
      split
      · exact Or.inr form.symm
      · exact Or.inl (by rw [form])

private theorem widthOf_toNat_le (value : BitVec 256) : Bytes.widthOf value.toNat ≤ 32 := by
  have small : value.toNat < Bytes.capacity 32 := value.isLt
  exact Bytes.widthOf_le small

theorem toNatBE_integerBytes (value : BitVec 256) :
    (integerBytes value).toNatBE = value.toNat := by
  rcases integerBytes_eq_or value with padded | bare
  · rw [padded, Bytes.toNatBE_cons, Bytes.toNatBE_ofNatBEShortest]
    simp
  · rw [bare, Bytes.toNatBE_ofNatBEShortest]

private theorem isShortest_integerBytes (value : BitVec 256) :
    Spend.IsShortest (integerBytes value) := by
  simp only [integerBytes]
  split
  · exact ⟨0, [], rfl, by decide, by simp⟩
  · next first rest form =>
      split
      · next low =>
          exact ⟨first, rest, rfl, low, fun zero =>
            absurd zero (Bytes.ne_zero_of_ofNatBEShortest form)⟩
      · next high =>
          refine ⟨0, first :: rest, rfl, by decide, fun _ second member => ?_⟩
          cases member
          exact UInt8.not_lt.mp high

theorem length_integerBytes (value : BitVec 256) :
    0 < (integerBytes value).length ∧ (integerBytes value).length ≤ 33 := by
  have width := widthOf_toNat_le value
  obtain ⟨first, rest, form, -, -⟩ := isShortest_integerBytes value
  constructor
  · rw [form]
    exact Nat.zero_lt_succ _
  · rcases integerBytes_eq_or value with padded | bare
    · rw [padded, List.length_cons, Bytes.length_ofNatBEShortest]
      omega
    · rw [bare, Bytes.length_ofNatBEShortest]
      omega

private theorem fit_integerBytes (value : BitVec 256) : fit (integerBytes value) = .ok value := by
  have dropped : (integerBytes value).dropWhile (· == 0) = Bytes.ofNatBEShortest value.toNat := by
    rcases integerBytes_eq_or value with padded | bare
    · rw [padded, List.dropWhile_cons_of_pos (by decide), Bytes.dropWhile_ofNatBEShortest]
    · rw [bare, Bytes.dropWhile_ofNatBEShortest]
  have width := widthOf_toNat_le value
  simp only [fit, dropped, Bytes.length_ofNatBEShortest, Bytes.toNatBE_ofNatBEShortest]
  rw [if_neg (by omega), BitVec.ofNat_toNat, BitVec.setWidth_eq]

/-! ## Whole signatures -/

private theorem length_encodeIntegers (signature : Signature) :
    (encodeInteger signature.r ++ encodeInteger signature.s).length =
      4 + (integerBytes signature.r).length + (integerBytes signature.s).length := by
  simp only [encodeInteger, List.length_append, List.length_cons]
  omega

theorem toDer_eq_signatureFrame (signature : Signature) :
    signature.toDer =
      Spend.signatureFrame (integerBytes signature.r) (integerBytes signature.s) := by
  rw [toDer, length_encodeIntegers]
  rfl

theorem isStrict_toDer {lowS : Bool} {signature : Signature}
    (low : lowS = true → signature.isLowS = true) : Spend.IsStrict lowS signature.toDer := by
  have sizeR := length_integerBytes signature.r
  have sizeS := length_integerBytes signature.s
  rw [toDer_eq_signatureFrame]
  refine ⟨_, _, rfl, ?_, ?_, isShortest_integerBytes _, isShortest_integerBytes _, fun asked => ?_⟩
  · rw [Spend.length_signatureFrame]
    omega
  · rw [Spend.length_signatureFrame]
    omega
  · rw [toNatBE_integerBytes]
    simpa [isLowS] using low asked

theorem length_toDer_le (signature : Signature) : signature.toDer.length ≤ 72 := by
  have strict : Spend.IsStrict false signature.toDer := isStrict_toDer nofun
  exact strict.length_le

private theorem readInteger?_framed {number : Bytes} (positive : 0 < number.length)
    (small : number.length < 256) (rest : Bytes) :
    readInteger? (0x02 :: UInt8.ofNat number.length :: (number ++ rest)) = some (number, rest) := by
  have length : (UInt8.ofNat number.length).toNat = number.length :=
    UInt8.toNat_ofNat_of_lt' small
  have nonzero : UInt8.ofNat number.length ≠ 0 := by
    intro zero
    rw [zero] at length
    simp only [UInt8.toNat_zero] at length
    omega
  simp [readInteger?, length, nonzero]

/-- Two numbers in a frame are read for what they stand for, whether or not in shortest form. -/
theorem readDer_signatureFrame {r s : Bytes} (positiveR : 0 < r.length) (positiveS : 0 < s.length)
    (small : 4 + r.length + s.length < 256) :
    readDer (Spend.signatureFrame r s) = (do
      let valueR ← fit r
      let valueS ← fit s
      if !inRange valueR then throw .rangeR
      if !inRange valueS then throw .rangeS
      pure ⟨valueR, valueS⟩) := by
  have readR := readInteger?_framed positiveR (by omega) (0x02 :: UInt8.ofNat s.length :: s)
  have readS := readInteger?_framed positiveS (by omega) []
  rw [List.append_nil] at readS
  have total : (0x02 :: UInt8.ofNat r.length :: (r ++ 0x02 :: UInt8.ofNat s.length :: s)).length =
      4 + r.length + s.length := by
    simp only [List.length_append, List.length_cons]
    omega
  rw [Spend.signatureFrame]
  generalize 0x02 :: UInt8.ofNat r.length :: (r ++ 0x02 :: UInt8.ofNat s.length :: s) = body
    at readR total ⊢
  have announced : (UInt8.ofNat (4 + r.length + s.length)).toNat = body.length := by
    rw [total]
    exact UInt8.toNat_ofNat_of_lt' small
  have enough : 8 ≤ (0x30 :: UInt8.ofNat (4 + r.length + s.length) :: body).length := by
    simp only [List.length_cons]
    omega
  simp only [readDer, announced, enough, and_self, if_true, pure_bind, Nat.lt_irrefl, if_false,
    List.take_length, readR, readS]

theorem readDer_toDer (signature : Signature) :
    readDer signature.toDer =
      if !inRange signature.r then .error .rangeR
      else if !inRange signature.s then .error .rangeS
      else .ok signature := by
  obtain ⟨positiveR, boundR⟩ := length_integerBytes signature.r
  obtain ⟨positiveS, boundS⟩ := length_integerBytes signature.s
  rw [toDer_eq_signatureFrame, readDer_signatureFrame positiveR positiveS (by omega),
    fit_integerBytes, fit_integerBytes]
  simp only [bind, Except.bind]
  cases inRange signature.r <;> cases inRange signature.s <;> rfl

/-! ## Signatures that keys make -/

/-- Both numbers are in range, and the second one is the smaller of the two that it can be. -/
structure IsNormal (signature : Signature) : Prop where
  rangeR : inRange signature.r = true
  rangeS : inRange signature.s = true
  low : signature.isLowS = true

theorem toNat_ofNat {value : Nat} (bound : value < Curve.order) :
    (BitVec.ofNat 256 value).toNat = value := by
  rw [BitVec.toNat_ofNat]
  exact Nat.mod_eq_of_lt (Nat.lt_trans bound (by decide))

private theorem inRange_ofNat {value : Nat} (positive : 0 < value) (bound : value < Curve.order) :
    inRange (BitVec.ofNat 256 value) = true := by
  simp [inRange, toNat_ofNat bound, positive, bound]

theorem readDer_of_isNormal {signature : Signature} (normal : signature.IsNormal) :
    readDer signature.toDer = .ok signature := by
  simp [readDer_toDer, normal.rangeR, normal.rangeS]

end Signature

namespace PrivateKey

theorem isNormal_of_signWithNonce {key : PrivateKey} {digest : Hash32} {nonce : Nat}
    {signature : Signature} (signed : key.signWithNonce digest nonce = .ok signature) :
    signature.IsNormal := by
  simp only [signWithNonce] at signed
  cases point : Curve.mulGenerator nonce with
  | infinity => simp [point] at signed
  | affine x y =>
      simp only [point] at signed
      have boundR : x % Curve.order < Curve.order := Nat.mod_lt _ (by decide)
      generalize x % Curve.order = r at signed boundR
      have boundS : Curve.invMod Curve.order nonce *
          ((digest.bytes.toNatBE + r * key.scalar) % Curve.order) % Curve.order < Curve.order :=
        Nat.mod_lt _ (by decide)
      generalize Curve.invMod Curve.order nonce *
        ((digest.bytes.toNatBE + r * key.scalar) % Curve.order) % Curve.order = s at signed boundS
      split at signed
      · cases signed
      · next nonzeroR =>
          split at signed
          · cases signed
          · next nonzeroS =>
              generalize lowered : (if Curve.halfOrder < s then Curve.order - s else s) = low
                at signed
              have halves : Curve.order = 2 * Curve.halfOrder + 1 := by decide
              have range : 0 < low ∧ low ≤ Curve.halfOrder := by
                split at lowered <;> omega
              have bound : low < Curve.order := Nat.lt_of_le_of_lt range.2 (by decide)
              cases signed
              exact ⟨Signature.inRange_ofNat (Nat.pos_of_ne_zero nonzeroR) boundR,
                Signature.inRange_ofNat range.1 bound,
                by simpa [Signature.isLowS, Signature.toNat_ofNat bound] using range.2⟩

/-- The first number of a signature is the first coordinate of the nonce's point. -/
private theorem r_of_signWithNonce {key : PrivateKey} {digest : Hash32} {nonce x y : Nat}
    {signature : Signature} (point : Curve.mulGenerator nonce = .affine x y)
    (signed : key.signWithNonce digest nonce = .ok signature) :
    signature.r = BitVec.ofNat 256 (x % Curve.order) := by
  simp only [signWithNonce, point] at signed
  split at signed
  · cases signed
  · split at signed
    · cases signed
    · cases signed
      rfl

theorem signWithNonce_of_signWithK {key : PrivateKey} {digest : Hash32} {k : Bytes}
    {signature : Signature} (signed : key.signWithK digest k = .ok signature) :
    key.signWithNonce digest (k.toNatBE % Curve.order) = .ok signature := by
  simp only [signWithK] at signed
  split at signed
  · cases signed
  · exact mapError_eq_ok_iff.mp signed

private theorem signWithNonce_of_sign {key : PrivateKey} {digest : Hash32} {signature : Signature}
    (signed : key.sign digest = .ok signature) :
    ∃ nonce, key.signWithNonce digest nonce = .ok signature := by
  -- Opened as a function: compared at its arguments it would be run, and with it the whole search
  -- for a nonce.
  have opened : sign = sign := rfl
  conv at opened => rhs; delta sign
  have here := congrFun (congrFun opened key) digest
  rw [signed] at here
  generalize key.nonce? digest = found at here
  cases found with
  | none => cases here
  | some nonce => exact ⟨nonce, mapError_eq_ok_iff.mp here.symm⟩

theorem isNormal_of_sign {key : PrivateKey} {digest : Hash32} {signature : Signature}
    (signed : key.sign digest = .ok signature) : signature.IsNormal := by
  obtain ⟨nonce, made⟩ := signWithNonce_of_sign signed
  exact isNormal_of_signWithNonce made

/-! ## Keys as nonces -/

private theorem mulGenerator_scalar (key : PrivateKey) :
    Curve.mulGenerator key.scalar = .affine key.publicKey.x key.publicKey.y := by
  have isPoint := key.ofPoint?_scalar
  generalize Curve.mulGenerator key.scalar = point at isPoint
  cases point with
  | infinity => cases isPoint
  | affine x y =>
      simp only [PublicKey.ofPoint?, PublicKey.ofCoordinates?] at isPoint
      split at isPoint
      · rw [← Option.some.inj isPoint]
      · cases isPoint

theorem scalar_of_ofBytes {bytes : Bytes} {key : PrivateKey} (read : ofBytes bytes = .ok key) :
    key.scalar = bytes.toNatBE := by
  simp only [ofBytes] at read
  split at read
  · cases read
  · split at read
    · next found =>
        cases read
        simp only [ofScalar?] at found
        split at found
        · split at found
          · cases found
            rfl
          · cases found
        · cases found
    · cases read

/-- A signature made with a nonce has the first coordinate of the nonce's point as its first
number, when that coordinate is below the order of the group. -/
theorem r_of_signWithK {key solution : PrivateKey} {digest : Hash32} {nonce : Bytes}
    {signature : Signature} (isNonce : ofBytes nonce = .ok solution)
    (below : solution.publicKey.x < Curve.order)
    (signed : key.signWithK digest nonce = .ok signature) :
    signature.r = BitVec.ofNat 256 solution.publicKey.x := by
  have made := signWithNonce_of_signWithK signed
  rw [← scalar_of_ofBytes isNonce, Nat.mod_eq_of_lt solution.scalar_lt] at made
  rw [r_of_signWithNonce solution.mulGenerator_scalar made, Nat.mod_eq_of_lt below]

end PrivateKey

end BitcoinSpend
