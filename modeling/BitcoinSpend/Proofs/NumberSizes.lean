import BitcoinSpend.Proofs.ShortestNumber
import BitcoinSpend.ScriptNumber

/-!
# Sizes of script numbers

A form bounds the number that it stands for, and a number bounds the length of its
shortest form. So the length of a result follows from the lengths of the operands.
-/

set_option autoImplicit false

namespace BitcoinSpend

namespace ScriptNumber

private theorem natAbs_decode_lt (bytes : Bytes) :
    (decode bytes).natAbs < Bytes.capacity bytes.length := by
  rcases List.eq_nil_or_concat bytes with rfl | ⟨rest, last, rfl⟩
  · exact Nat.zero_lt_one
  · have bound := Bytes.toNatLE_lt (rest ++ [magnitudeBits last])
    simp only [List.length_append, List.length_singleton] at bound
    rw [List.concat_eq_append]
    simp only [decode, List.getLast?_concat, List.dropLast_concat, List.length_append,
      List.length_singleton]
    split
    · exact bound
    · rw [Int.natAbs_neg]
      exact bound

/-- The sign may need one more byte. -/
theorem length_encode_le {value : Int} {width : Nat} (small : value.natAbs < Bytes.capacity width) :
    (encode value).length ≤ width + 1 := by
  have fits : (Bytes.ofNatLEShortest value.natAbs).length ≤ width := by
    rw [Bytes.ofNatLEShortest, Bytes.length_ofNatLE]
    exact Bytes.widthOf_le small
  simp only [encode]
  rcases List.eq_nil_or_concat (Bytes.ofNatLEShortest value.natAbs) with none | ⟨rest, last, form⟩
  · rw [none]
    exact Nat.zero_le _
  · rw [List.concat_eq_append] at form
    rw [form, List.length_append, List.length_singleton] at fits
    rw [form, List.getLast?_concat]
    dsimp only
    split
    · simp only [List.dropLast_concat, List.length_append, List.length_singleton]
      omega
    · simp only [List.length_append, List.length_singleton]
      omega

theorem length_minimize_le (bytes : Bytes) : (minimize bytes).length ≤ bytes.length := by
  rcases List.eq_nil_or_concat bytes with rfl | ⟨rest, last, rfl⟩
  · exact Nat.le_refl _
  · rw [List.concat_eq_append]
    simp only [minimize, List.reverse_append, List.reverse_singleton, List.singleton_append]
    split
    · exact Nat.le_refl _
    · have shorter := (List.dropWhile_suffix (· == 0) : _ <:+ rest.reverse).length_le
      rw [List.length_reverse] at shorter
      split
      · exact Nat.zero_le _
      · next top below found =>
          rw [found, List.length_cons] at shorter
          split
          · simp only [List.length_append, List.length_reverse, List.length_singleton]
            omega
          · simp only [List.length_append, List.length_reverse, List.length_cons, List.length_nil]
            omega

/-- A number that is read within limits is as small as the length that they allow. -/
theorem natAbs_lt_of_decodeWithin {rule : Rule} {bytes : Bytes} {value : Int}
    (read : decodeWithin rule bytes = .ok value) :
    value.natAbs < Bytes.capacity rule.maxLength := by
  simp only [decodeWithin] at read
  split at read
  · cases read
  · next short =>
      split at read
      · cases read
      · cases read
        exact Nat.lt_of_lt_of_le (natAbs_decode_lt bytes) (Bytes.capacity_mono (by omega))

theorem length_ofBool_le (value : Bool) : (ofBool value).length ≤ 1 := by
  cases value <;> decide

end ScriptNumber

end BitcoinSpend
