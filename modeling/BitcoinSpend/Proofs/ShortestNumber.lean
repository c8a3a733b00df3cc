import BitcoinSpend.Bytes

/-!
# Shortest forms of numbers

A number in the fewest bytes reads back as itself, and its most significant byte is
not zero. So numbers can be compared by their lengths first and then byte by byte.
-/

set_option autoImplicit false

namespace BitcoinSpend.Bytes

theorem capacity_eq_pow (width : Nat) : capacity width = Nat.pow 2 (8 * width) := by
  induction width with
  | zero => rfl
  | succ width ih =>
      have wider : Nat.pow 2 (8 * (width + 1)) = Nat.pow 2 (8 * width) * 256 :=
        Nat.pow_add 2 (8 * width) 8
      rw [capacity, ih, wider, Nat.mul_comm]

theorem capacity_add (first second : Nat) :
    capacity (first + second) = capacity first * capacity second := by
  simp only [capacity_eq_pow, Nat.mul_add]
  exact Nat.pow_add 2 _ _

theorem capacity_pos (width : Nat) : 0 < capacity width := by
  rw [capacity_eq_pow]
  exact Nat.pow_pos (by decide)

theorem capacity_mono {width wider : Nat} (ordered : width ≤ wider) :
    capacity width ≤ capacity wider := by
  simp only [capacity_eq_pow]
  exact Nat.pow_le_pow_right (by decide) (by omega)

theorem lt_capacity_widthOf (value : Nat) : value < capacity (widthOf value) := by
  by_cases zero : value = 0
  · subst zero
    decide
  · have below : value < Nat.pow 2 (value.log2 + 1) := Nat.lt_log2_self
    have enough : value.log2 + 1 ≤ 8 * widthOf value := by
      rw [widthOf, if_neg zero]
      omega
    rw [capacity_eq_pow]
    exact Nat.lt_of_lt_of_le below (Nat.pow_le_pow_right (by decide) enough)

/-- One byte fewer would not hold the number. -/
private theorem capacity_le_of_widthOf {value width : Nat} (wide : widthOf value = width + 1) :
    capacity width ≤ value := by
  by_cases zero : value = 0
  · rw [widthOf, if_pos zero] at wide
    cases wide
  · rw [widthOf, if_neg zero] at wide
    have enough : 8 * width ≤ value.log2 := by omega
    have above : Nat.pow 2 value.log2 ≤ value := Nat.log2_self_le zero
    rw [capacity_eq_pow]
    exact Nat.le_trans (Nat.pow_le_pow_right (by decide) enough) above

theorem widthOf_le {value width : Nat} (small : value < capacity width) :
    widthOf value ≤ width := by
  cases wide : widthOf value with
  | zero => exact Nat.zero_le _
  | succ fewer =>
      have above := capacity_le_of_widthOf wide
      rw [capacity_eq_pow] at small above
      have inside : Nat.pow 2 (8 * fewer) < Nat.pow 2 (8 * width) := Nat.lt_of_le_of_lt above small
      have shorter := (Nat.pow_lt_pow_iff_right (by decide)).mp inside
      omega

theorem toNatLE_append (low high : Bytes) :
    toNatLE (low ++ high) = toNatLE low + capacity low.length * toNatLE high := by
  induction low with
  | nil => simp [toNatLE, capacity]
  | cons byte rest ih =>
      rw [List.cons_append, toNatLE, ih, toNatLE, List.length_cons, capacity, Nat.mul_add,
        Nat.mul_assoc, Nat.add_assoc]

theorem toNatBE_cons (first : UInt8) (rest : Bytes) :
    toNatBE (first :: rest) = toNatBE rest + capacity rest.length * first.toNat := by
  rw [toNatBE, List.reverse_cons, toNatLE_append, List.length_reverse, toNatBE]
  simp [toNatLE]

theorem toNatBE_ofNatBE {width value : Nat} (small : value < capacity width) :
    toNatBE (ofNatBE width value) = value := by
  rw [toNatBE, ofNatBE, List.reverse_reverse, toNatLE_ofNatLE, Nat.mod_eq_of_lt small]

theorem ofNatBE_toNatBE (bytes : Bytes) : ofNatBE bytes.length (toNatBE bytes) = bytes := by
  have reversed := ofNatLE_toNatLE bytes.reverse
  rw [List.length_reverse] at reversed
  rw [ofNatBE, toNatBE, reversed, List.reverse_reverse]

theorem toNatBE_lt (bytes : Bytes) : toNatBE bytes < capacity bytes.length := by
  have bound := toNatLE_lt bytes.reverse
  rwa [List.length_reverse] at bound

@[simp] theorem length_ofNatBEShortest (value : Nat) :
    (ofNatBEShortest value).length = widthOf value := by
  simp [ofNatBEShortest, ofNatLEShortest]

theorem toNatBE_ofNatBEShortest (value : Nat) : toNatBE (ofNatBEShortest value) = value := by
  rw [ofNatBEShortest, ofNatLEShortest]
  exact toNatBE_ofNatBE (lt_capacity_widthOf value)

theorem ne_zero_of_ofNatBEShortest {value : Nat} {first : UInt8} {rest : Bytes}
    (form : ofNatBEShortest value = first :: rest) : first ≠ 0 := by
  rintro rfl
  have wide : widthOf value = rest.length + 1 := by
    rw [← length_ofNatBEShortest, form, List.length_cons]
  have same := toNatBE_ofNatBEShortest value
  rw [form, toNatBE_cons] at same
  have small := toNatBE_lt rest
  have large := capacity_le_of_widthOf wide
  simp only [UInt8.toNat_zero, Nat.mul_zero, Nat.add_zero] at same
  omega

/-! ## Fixed widths -/

theorem ofNatLE_add (low high value : Nat) :
    ofNatLE (low + high) value = ofNatLE low value ++ ofNatLE high (value / capacity low) := by
  induction low generalizing value with
  | zero => simp [ofNatLE, capacity]
  | succ low ih =>
      rw [Nat.add_right_comm, ofNatLE, ih, ofNatLE, capacity, Nat.div_div_eq_div_mul,
        List.cons_append]

theorem ofNatLE_zero (width : Nat) : ofNatLE width 0 = List.replicate width 0 := by
  induction width with
  | zero => rfl
  | succ width ih => rw [ofNatLE, Nat.zero_div, ih, List.replicate_succ]; rfl

theorem dropWhile_ofNatBEShortest (value : Nat) :
    (ofNatBEShortest value).dropWhile (· == 0) = ofNatBEShortest value := by
  cases form : ofNatBEShortest value with
  | nil => rfl
  | cons first rest =>
      have nonzero := ne_zero_of_ofNatBEShortest form
      simp [nonzero]

/-- Without its leading zeros a number of any width is in its shortest form. -/
theorem dropWhile_ofNatBE {width value : Nat} (small : value < capacity width) :
    (ofNatBE width value).dropWhile (· == 0) = ofNatBEShortest value := by
  obtain ⟨padding, rfl⟩ := Nat.exists_eq_add_of_le (widthOf_le small)
  have none : value / capacity (widthOf value) = 0 :=
    Nat.div_eq_of_lt (lt_capacity_widthOf value)
  rw [ofNatBE, ofNatLE_add, none, ofNatLE_zero, List.reverse_append, List.reverse_replicate,
    List.dropWhile_append_of_pos (by simp)]
  exact dropWhile_ofNatBEShortest value

/-- The shortest form of what bytes stand for is the bytes without their leading zeros. -/
theorem ofNatBEShortest_toNatBE (bytes : Bytes) :
    ofNatBEShortest (toNatBE bytes) = bytes.dropWhile (· == 0) := by
  have dropped := dropWhile_ofNatBE (toNatBE_lt bytes)
  rw [ofNatBE_toNatBE] at dropped
  exact dropped.symm

theorem toNatLE_ofNatLEShortest (value : Nat) : toNatLE (ofNatLEShortest value) = value := by
  have same := toNatBE_ofNatBEShortest value
  rwa [toNatBE, ofNatBEShortest, List.reverse_reverse] at same

theorem ofNatLEShortest_toNatLE (bytes : Bytes) :
    ofNatLEShortest (toNatLE bytes) = (bytes.reverse.dropWhile (· == 0)).reverse := by
  rw [← ofNatBEShortest_toNatBE, toNatBE, List.reverse_reverse, ofNatBEShortest,
    List.reverse_reverse]

theorem toNatBE_dropWhile (bytes : Bytes) : toNatBE (bytes.dropWhile (· == 0)) = toNatBE bytes := by
  rw [← ofNatBEShortest_toNatBE, toNatBE_ofNatBEShortest]

/-! ## Comparing numbers by their bytes -/

theorem toNatBE_lt_of_widthOf {bytes : Bytes} {value : Nat}
    (longer : bytes.length < widthOf value) :
    toNatBE bytes < value := by
  obtain ⟨fewer, wide⟩ := Nat.exists_eq_add_one_of_ne_zero (Nat.ne_zero_of_lt longer)
  have below := toNatBE_lt bytes
  have room : capacity bytes.length ≤ capacity fewer := capacity_mono (by omega)
  have above := capacity_le_of_widthOf wide
  omega

/-- Byte strings of one length are ordered as the numbers that they stand for. -/
theorem lex_iff_toNatBE_lt {left right : Bytes} (same : left.length = right.length) :
    left.lex right (· < ·) = true ↔ toNatBE left < toNatBE right := by
  induction left generalizing right with
  | nil =>
      cases right with
      | nil => decide
      | cons byte rest => cases same
  | cons byte rest ih =>
      cases right with
      | nil => cases same
      | cons other others =>
          have lengths : rest.length = others.length := Nat.succ.inj same
          have later := ih lengths
          have below := toNatBE_lt rest
          have below' := toNatBE_lt others
          rw [lengths] at below
          rw [toNatBE_cons, toNatBE_cons, lengths]
          generalize capacity others.length = unit at below below' ⊢
          simp only [List.lex, Bool.or_eq_true, Bool.and_eq_true, decide_eq_true_eq, beq_iff_eq,
            later]
          rw [UInt8.lt_iff_toNat_lt, ← UInt8.toNat_inj]
          rcases Nat.lt_trichotomy byte.toNat other.toNat with less | equal | more
          · have apart := Nat.mul_le_mul_left unit less
            rw [Nat.mul_succ] at apart
            omega
          · rw [equal]
            omega
          · have apart := Nat.mul_le_mul_left unit more
            rw [Nat.mul_succ] at apart
            omega

theorem toNatLE_eq_zero_iff {bytes : Bytes} : toNatLE bytes = 0 ↔ ∀ byte ∈ bytes, byte = 0 := by
  induction bytes with
  | nil => simp [toNatLE]
  | cons byte rest ih =>
      have zero : byte.toNat = 0 ↔ byte = 0 := UInt8.toNat_inj (b := 0)
      have notZero : ¬256 = 0 := by decide
      rw [toNatLE, Nat.add_eq_zero_iff, Nat.mul_eq_zero, or_iff_right notZero, ih, zero,
        List.forall_mem_cons]

theorem toNatLE_zeros (count : Nat) : toNatLE (List.replicate count 0) = 0 :=
  toNatLE_eq_zero_iff.mpr fun _ member => List.eq_of_mem_replicate member

end BitcoinSpend.Bytes
