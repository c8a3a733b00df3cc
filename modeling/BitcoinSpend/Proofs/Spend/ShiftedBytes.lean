import Mathlib.Algebra.Group.Nat.Defs
import Mathlib.Data.List.Induction
import BitcoinSpend.Proofs.ExceptProperties
import BitcoinSpend.Spend.Arithmetic

/-!
# Shifted bytes

A shift takes the bytes of a string one after another and sets bits of two neighbours in
a string of zeros. Every byte of the result gets the bits that stay in the byte moved
there and those that come in from the byte beside that one, and no index is out of range.
-/

set_option autoImplicit false

namespace BitcoinSpend.Spend

variable {amount bits moved spare : Nat} {bytes : Bytes}

/-! ## Bits of one byte -/

/-- The lowest bits of a byte. -/
def lowBits (count : Nat) : UInt8 :=
  UInt8.ofNat (2 ^ count - 1)

private theorem toNat_lowBits {count : Nat} (part : count ≤ 8) :
    (lowBits count).toNat = 2 ^ count - 1 := by
  have small : 2 ^ count ≤ 2 ^ 8 := Nat.pow_le_pow_right (by decide) part
  rw [lowBits, UInt8.toNat_ofNat', Nat.mod_eq_of_lt (by omega)]

private theorem testBit_not_lowBits {count : Nat} (part : count ≤ 8) (index : Nat) :
    (~~~lowBits count).toNat.testBit index = (decide (index < 8) && !decide (index < count)) := by
  have small : 2 ^ count ≤ 2 ^ 8 := Nat.pow_le_pow_right (by decide) part
  have positive : 0 < 2 ^ count := Nat.two_pow_pos count
  have complement : UInt8.size - 1 - (2 ^ count - 1) = 2 ^ 8 - (2 ^ count - 1 + 1) := by
    have size : UInt8.size = 2 ^ 8 := rfl
    omega
  rw [UInt8.toNat_not, toNat_lowBits part, complement, Nat.testBit_two_pow_sub_succ (by omega),
    Nat.testBit_two_pow_sub_one]

/-- A shift up drops the highest bits, so they may be dropped before. -/
private theorem and_lowBits_shiftLeft (part : bits < 8) (byte : UInt8) :
    (byte &&& lowBits (8 - bits)) <<< UInt8.ofNat bits = byte <<< UInt8.ofNat bits := by
  have count : bits % 2 ^ 8 % 8 = bits := by omega
  have whole : 2 ^ 8 = 2 ^ (8 - bits) * 2 ^ bits := by
    rw [← Nat.pow_add, Nat.sub_add_cancel (Nat.le_of_lt part)]
  apply UInt8.toNat_inj.mp
  rw [UInt8.toNat_shiftLeft, UInt8.toNat_shiftLeft, UInt8.toNat_and, toNat_lowBits (Nat.sub_le _ _),
    Nat.and_two_pow_sub_one_eq_mod, UInt8.toNat_ofNat', count, Nat.shiftLeft_eq, Nat.shiftLeft_eq,
    whole, Nat.mul_mod_mul_right, Nat.mul_mod_mul_right, Nat.mod_mod]

/-- A shift down drops the lowest bits, so they may be dropped before. -/
private theorem and_not_lowBits_shiftRight (part : bits < 8) (byte : UInt8) :
    (byte &&& ~~~lowBits bits) >>> UInt8.ofNat bits = byte >>> UInt8.ofNat bits := by
  have count : bits % 2 ^ 8 % 8 = bits := by omega
  apply UInt8.toNat_inj.mp
  rw [UInt8.toNat_shiftRight, UInt8.toNat_shiftRight, UInt8.toNat_ofNat', count]
  apply Nat.eq_of_testBit_eq
  intro index
  have notBelow : ¬bits + index < bits := by omega
  rw [Nat.testBit_shiftRight, Nat.testBit_shiftRight, UInt8.toNat_and, Nat.testBit_and,
    testBit_not_lowBits (Nat.le_of_lt part), decide_eq_false notBelow, Bool.not_false,
    Bool.and_true]
  by_cases inside : bits + index < 8
  · rw [decide_eq_true inside, Bool.and_true]
  · have beyond : byte.toNat < 2 ^ (bits + index) :=
      Nat.lt_of_lt_of_le byte.toNat_lt (Nat.pow_le_pow_right (by decide) (Nat.not_lt.mp inside))
    rw [decide_eq_false inside, Bool.and_false, Nat.testBit_lt_two_pow beyond]

private theorem itemAt_leftMasks (part : bits < 8) :
    itemAt leftMasks bits = .ok (lowBits (8 - bits)) := by
  have masks : ∀ count : Fin 8, leftMasks[count.val]? = some (lowBits (8 - count)) := by decide
  rw [itemAt, masks ⟨bits, part⟩]

private theorem itemAt_rightMasks (part : bits < 8) :
    itemAt rightMasks bits = .ok (~~~lowBits bits) := by
  have masks : ∀ count : Fin 8, rightMasks[count.val]? = some (~~~lowBits count) := by decide
  rw [itemAt, masks ⟨bits, part⟩]

private theorem setBits_append (before after : Bytes) (byte set : UInt8) :
    setBits (before ++ byte :: after) before.length set =
      .ok (before ++ (byte ||| set) :: after) := by
  have here : itemAt (before ++ byte :: after) before.length = .ok byte := by
    rw [itemAt, List.getElem?_append_right (Nat.le_refl _), Nat.sub_self]
    rfl
  rw [setBits, here, ok_bind, List.set_append_right _ _ (Nat.le_refl _), Nat.sub_self]
  rfl

/-! ## Up -/

/-- The bits of a byte that a shift by `bits` moves into the byte before it. The complement of
`bits` to a whole byte is `spare`. -/
def carryLeft (bits spare : Nat) (byte : UInt8) : UInt8 :=
  if bits = 0 then 0 else byte >>> UInt8.ofNat spare

/-- Moves the bits of a string up by less than a byte. -/
def shiftBitsLeft (bits spare : Nat) : Bytes → Bytes
  | [] => []
  | byte :: rest =>
      ((byte <<< UInt8.ofNat bits) ||| carryLeft bits spare (rest.headD 0)) ::
        shiftBitsLeft bits spare rest

private theorem carryLeft_zeros (count : Nat) :
    carryLeft bits spare ((List.replicate count 0).headD 0) = 0 := by
  have first : (List.replicate count (0 : UInt8)).headD 0 = 0 := by
    cases count <;> rfl
  rw [first, carryLeft, UInt8.zero_shiftRight, ite_self]

private theorem shiftBitsLeft_zeros (count : Nat) :
    shiftBitsLeft bits spare (List.replicate count 0) = List.replicate count 0 := by
  induction count with
  | zero => rfl
  | succ count ih =>
      rw [List.replicate_succ, shiftBitsLeft, ih, carryLeft_zeros, UInt8.zero_shiftLeft,
        UInt8.or_zero]

/-- The places of bytes that are still to be moved up. The last of them has got the bits of the byte
after it. -/
def awaitingLeft (carry : UInt8) : (count : Nat) → Bytes
  | 0 => []
  | count + 1 => List.replicate count 0 ++ [carry]

private theorem awaitingLeft_zero (count : Nat) :
    awaitingLeft 0 count = List.replicate count 0 := by
  cases count with
  | zero => rfl
  | succ count => exact List.replicate_succ'.symm

private theorem setBits_awaitingLeft (count : Nat) (carry set : UInt8) (tail : Bytes) :
    setBits (awaitingLeft carry (count + 1) ++ tail) count set =
      .ok (awaitingLeft (carry ||| set) (count + 1) ++ tail) := by
  have here := setBits_append (List.replicate count 0) tail carry set
  rw [List.length_replicate] at here
  simpa [awaitingLeft] using here

/-- The byte at an index gets its own bits and passes bits on to the byte before. -/
private theorem placeLeft_awaitingLeft {skipped front after : Bytes} {byte carry : UInt8}
    (part : bits < 8) (tail : Bytes) :
    placeLeft (skipped ++ (front ++ byte :: after)) skipped.length bits (lowBits (8 - bits))
        (awaitingLeft carry (front.length + 1) ++ tail) (skipped.length + front.length) =
      .ok (awaitingLeft (carryLeft bits (8 - bits) byte) front.length ++
        ((byte <<< UInt8.ofNat bits) ||| carry) :: tail) := by
  have target : difference (skipped.length + front.length) skipped.length = .ok front.length := by
    rw [difference_of_le (Nat.le_add_right _ _), Nat.add_sub_cancel_left]
  have here : itemAt (skipped ++ (front ++ byte :: after)) (skipped.length + front.length) =
      .ok byte := by
    simp [itemAt]
  have own : awaitingLeft (carry ||| byte <<< UInt8.ofNat bits) (front.length + 1) ++ tail =
      List.replicate front.length 0 ++ ((byte <<< UInt8.ofNat bits) ||| carry) :: tail := by
    simp [awaitingLeft, UInt8.or_comm]
  rw [placeLeft, target, ok_bind, here, ok_bind, setBits_awaitingLeft, ok_bind,
    and_lowBits_shiftLeft part, own]
  cases place : front.length with
  | zero => rfl
  | succ before =>
      have next : difference (before + 1) 1 = .ok before := difference_of_le (Nat.le_add_left 1 _)
      rw [← awaitingLeft_zero]
      by_cases shifts : 0 < bits
      · have carried := and_not_lowBits_shiftRight (show 8 - bits < 8 by omega) byte
        rw [if_pos ⟨Nat.le_add_left 1 _, shifts⟩, next, ok_bind,
          difference_of_le (Nat.le_of_lt part), ok_bind, carried, setBits_awaitingLeft,
          UInt8.zero_or, carryLeft, if_neg (Nat.ne_of_gt shifts)]
      · rw [if_neg fun both => shifts both.2, carryLeft, if_pos (Nat.eq_zero_of_not_pos shifts)]
        rfl

/-- The bytes behind an index are in their places, and the bytes before it follow them. -/
private theorem foldlM_placeLeft (part : bits < 8) (skipped front after zeros : Bytes) :
    (List.range' skipped.length front.length).reverse.foldlM
        (placeLeft (skipped ++ (front ++ after)) skipped.length bits (lowBits (8 - bits)))
        (awaitingLeft (carryLeft bits (8 - bits) ((after ++ zeros).headD 0)) front.length ++
          shiftBitsLeft bits (8 - bits) (after ++ zeros)) =
      .ok (shiftBitsLeft bits (8 - bits) (front ++ after ++ zeros)) := by
  -- The last of the bytes in front is moved first.
  induction front using List.reverseRecOn generalizing after with
  | nil => rfl
  | append_singleton front byte ih =>
      have length : (front ++ [byte]).length = front.length + 1 := List.length_append
      have whole : skipped ++ (front ++ [byte] ++ after) =
          skipped ++ (front ++ byte :: after) := by simp
      have later := ih (byte :: after)
      rw [length, List.range'_concat, List.reverse_append, List.reverse_singleton,
        List.singleton_append, List.foldlM_cons, whole, Nat.one_mul,
        placeLeft_awaitingLeft part, ok_bind]
      simpa [shiftBitsLeft] using later

theorem shiftBytes_left_eq (inside : amount < 8 * bytes.length) :
    shiftBytes .left amount bytes =
      .ok (shiftBitsLeft (amount % 8) (8 - amount % 8)
        (bytes.drop (amount / 8) ++ List.replicate (amount / 8) 0)) := by
  have part : amount % 8 < 8 := Nat.mod_lt _ (by decide)
  have whole : amount / 8 ≤ bytes.length := by omega
  have fold := foldlM_placeLeft part (bytes.take (amount / 8)) (bytes.drop (amount / 8)) []
    (List.replicate (amount / 8) 0)
  rw [List.append_nil, List.take_append_drop, List.nil_append, carryLeft_zeros,
    awaitingLeft_zero, shiftBitsLeft_zeros, List.replicate_append_replicate, List.length_drop,
    Nat.sub_add_cancel whole, List.length_take_of_le whole] at fold
  rw [shiftBytes]
  dsimp only
  rw [itemAt_leftMasks part]
  exact fold

/-! ## Down -/

/-- The bits of a byte that a shift by `bits` moves into the byte after it. -/
def carryRight (bits spare : Nat) (byte : UInt8) : UInt8 :=
  if bits = 0 then 0 else byte <<< UInt8.ofNat spare

/-- Moves the bits of a string down by less than a byte, after a byte that was `previous`. -/
def shiftBitsRight (bits spare : Nat) (previous : UInt8) : Bytes → Bytes
  | [] => []
  | byte :: rest =>
      (carryRight bits spare previous ||| (byte >>> UInt8.ofNat bits)) ::
        shiftBitsRight bits spare byte rest

private theorem carryRight_zero : carryRight bits spare 0 = 0 := by
  rw [carryRight, UInt8.zero_shiftLeft, ite_self]

private theorem shiftBitsRight_zeros_append (count : Nat) (rest : Bytes) :
    shiftBitsRight bits spare 0 (List.replicate count 0 ++ rest) =
      List.replicate count 0 ++ shiftBitsRight bits spare 0 rest := by
  induction count with
  | zero => rfl
  | succ count ih =>
      rw [List.replicate_succ, List.cons_append, shiftBitsRight, ih, carryRight_zero,
        UInt8.zero_shiftRight, UInt8.or_zero, List.cons_append]

/-- The places of bytes that are still to be moved down. The first of them has got the bits of the
byte before it. -/
def awaitingRight (carry : UInt8) : (count : Nat) → Bytes
  | 0 => []
  | count + 1 => carry :: List.replicate count 0

private theorem awaitingRight_zero (count : Nat) :
    awaitingRight 0 count = List.replicate count 0 := by
  cases count with
  | zero => rfl
  | succ count => exact List.replicate_succ.symm

/-- A byte gets its own bits and passes bits on to the byte after. -/
private theorem placeRight_awaitingRight (part : bits < 8) (done : Bytes) (byte carry : UInt8)
    (count index : Nat) (target : index + moved = done.length) :
    placeRight (done.length + (count + 1)) moved bits (~~~lowBits bits)
        (done ++ awaitingRight carry (count + 1)) (byte, index) =
      .ok (done ++ (carry ||| (byte >>> UInt8.ofNat bits)) ::
        awaitingRight (carryRight bits (8 - bits) byte) count) := by
  have own := setBits_append done (List.replicate count 0) carry (byte >>> UInt8.ofNat bits)
  rw [placeRight, target]
  dsimp only
  rw [if_pos (Nat.lt_add_of_pos_right (Nat.succ_pos count)), and_not_lowBits_shiftRight part,
    awaitingRight, own, ok_bind]
  cases count with
  | zero =>
      rw [if_neg fun both => Nat.lt_irrefl _ both.1]
      rfl
  | succ count =>
      have inside : done.length + 1 < done.length + (count + 1 + 1) := by omega
      have nextByte := setBits_append (done ++ [carry ||| (byte >>> UInt8.ofNat bits)])
        (List.replicate count 0) 0 (byte <<< UInt8.ofNat (8 - bits))
      rw [List.length_append, List.length_singleton, List.append_assoc, List.singleton_append,
        ← List.replicate_succ, List.append_assoc, List.singleton_append, UInt8.zero_or] at nextByte
      by_cases shifts : 0 < bits
      · have back : 8 - (8 - bits) = bits := by omega
        have carried := and_lowBits_shiftLeft (show 8 - bits < 8 by omega) byte
        rw [back] at carried
        rw [if_pos ⟨inside, shifts⟩, difference_of_le (Nat.le_of_lt part), ok_bind, UInt8.not_not,
          carried, nextByte, carryRight, if_neg (Nat.ne_of_gt shifts)]
        rfl
      · rw [if_neg fun both => shifts both.2, carryRight, if_pos (Nat.eq_zero_of_not_pos shifts)]
        rfl

/-- The bytes before an index are in their places, and the bytes from it on follow them. -/
private theorem foldlM_placeRight (part : bits < 8) (done rest : Bytes) (previous : UInt8)
    (start : Nat) (target : start + moved = done.length) :
    (rest.zipIdx start).foldlM
        (placeRight (done.length + rest.length) moved bits (~~~lowBits bits))
        (done ++ awaitingRight (carryRight bits (8 - bits) previous) rest.length) =
      .ok (done ++ shiftBitsRight bits (8 - bits) previous rest) := by
  induction rest generalizing done previous start with
  | nil => rfl
  | cons byte rest ih =>
      have later := ih
        (done ++ [carryRight bits (8 - bits) previous ||| (byte >>> UInt8.ofNat bits)]) byte
        (start + 1) (by simp only [List.length_append, List.length_singleton]; omega)
      rw [List.length_append, List.length_singleton, Nat.add_assoc, Nat.add_comm 1,
        List.append_assoc, List.singleton_append, List.append_assoc,
        List.singleton_append] at later
      rw [List.zipIdx_cons, List.foldlM_cons, List.length_cons,
        placeRight_awaitingRight part done byte _ rest.length start target, ok_bind]
      exact later

/-- Bytes that leave the string at its end change nothing. -/
private theorem foldlM_placeRight_of_le (mask : UInt8) (result lost : Bytes) (length start : Nat)
    (beyond : length ≤ start + moved) :
    (lost.zipIdx start).foldlM (placeRight length moved bits mask) result = .ok result := by
  induction lost generalizing start with
  | nil => rfl
  | cons byte lost ih =>
      have same : placeRight length moved bits mask result (byte, start) = .ok result := by
        rw [placeRight]
        dsimp only
        rw [if_neg (Nat.not_lt.mpr beyond), pure_bind, if_neg (by omega)]
        rfl
      rw [List.zipIdx_cons, List.foldlM_cons, same, ok_bind]
      exact ih (start + 1) (by omega)

theorem shiftBytes_right_eq (inside : amount < 8 * bytes.length) :
    shiftBytes .right amount bytes =
      .ok (shiftBitsRight (amount % 8) (8 - amount % 8) 0
        (List.replicate (amount / 8) 0 ++ bytes.take (bytes.length - amount / 8))) := by
  have part : amount % 8 < 8 := Nat.mod_lt _ (by decide)
  have whole : amount / 8 ≤ bytes.length := by omega
  have kept : (bytes.take (bytes.length - amount / 8)).length = bytes.length - amount / 8 :=
    List.length_take_of_le (Nat.sub_le _ _)
  have zeros : (List.replicate (amount / 8) (0 : UInt8)).length = amount / 8 :=
    List.length_replicate
  have fold := foldlM_placeRight part (List.replicate (amount / 8) 0)
    (bytes.take (bytes.length - amount / 8)) 0 0 ((Nat.zero_add _).trans zeros.symm)
  rw [zeros, kept, Nat.add_sub_cancel' whole, carryRight_zero, awaitingRight_zero,
    List.replicate_append_replicate, Nat.add_sub_cancel' whole] at fold
  have entries : bytes.zipIdx = (bytes.take (bytes.length - amount / 8)).zipIdx ++
      (bytes.drop (bytes.length - amount / 8)).zipIdx (bytes.length - amount / 8) := by
    have cut := @List.zipIdx_append _ (bytes.take (bytes.length - amount / 8))
      (bytes.drop (bytes.length - amount / 8)) 0
    rwa [List.take_append_drop, kept, Nat.zero_add] at cut
  rw [shiftBytes, itemAt_rightMasks part, ok_bind, entries, List.foldlM_append, fold, ok_bind,
    foldlM_placeRight_of_le _ _ _ _ _ (by omega), shiftBitsRight_zeros_append]

end BitcoinSpend.Spend
