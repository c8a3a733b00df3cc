import BitcoinSpend.Proofs.Chunk.Push

/-!
# One shortest push of a string

Of all pushes of one string that a script may hold, the one that is built is the only
one that counts as shortest, and its bytes are fewer than those of any other.
-/

set_option autoImplicit false

namespace BitcoinSpend.Chunk

variable {op : Opcode} {data value : Bytes} {chunk : Chunk}

/-! ## Pushes with an operand -/

private theorem bounds_of_hasOperand (hasOperand : Opcode.hasOperand op = true) :
    0 < op.toNat ∧ op.toNat ≤ 0x4e := by
  simpa [Opcode.hasOperand, UInt8.lt_iff_toNat_lt, UInt8.le_iff_toNat_le, Opcode.pushData4]
    using hasOperand

private theorem pushValue?_of_hasOperand (hasOperand : Opcode.hasOperand op = true) :
    pushValue? ⟨op, some data⟩ = some data :=
  pushValue?_of_operand (bounds_of_hasOperand hasOperand).1 (bounds_of_hasOperand hasOperand).2

/-- A push with an operand is the one that is built if no opcode pushes the string alone and the
opcode is the one for its length. -/
theorem eq_push_iff : ⟨op, some data⟩ = push data ↔
    bareOpcode? data = none ∧ op = pushOpcode data.length := by
  cases alone : bareOpcode? data with
  | none => simp [push, alone]
  | some bare => simp [push, alone, ofOpcode]

private theorem isMinimal_of_hasOperand (hasOperand : Opcode.hasOperand op = true) :
    isMinimal ⟨op, some data⟩ = true ↔ ⟨op, some data⟩ = push data := by
  obtain ⟨positive, bound⟩ := bounds_of_hasOperand hasOperand
  have notEmpty : op ≠ Opcode.pushEmpty := ne_of_toNat_ne (Nat.ne_of_gt positive)
  have counted : ¬Opcode.pushData4 < op := UInt8.not_lt.mpr (UInt8.le_iff_toNat_le.mpr bound)
  rw [eq_push_iff]
  rcases data with _ | ⟨byte, _ | ⟨second, rest⟩⟩
  · simp [isMinimal, operand, notEmpty, counted, bareOpcode?]
  · have direct : pushOpcode 1 = 1 := rfl
    by_cases small : 1 ≤ byte ∧ byte ≤ 16
    · simp [isMinimal, operand, notEmpty, counted, bareOpcode?, small]
    · by_cases negative : byte = 0x81
      · simp [isMinimal, operand, notEmpty, counted, bareOpcode?, negative]
      · have large : (decide (1 ≤ byte) && decide (byte ≤ 16)) = false := by
          rw [← Bool.decide_and]
          exact decide_eq_false small
        simp [isMinimal, operand, notEmpty, counted, bareOpcode?, small, negative, large, direct]
  · simp [isMinimal, operand, notEmpty, counted, bareOpcode?]

/-! ## Sizes -/

private theorem length_encode_data (op : Opcode) (data : Bytes) :
    (encode ⟨op, some data⟩).length = 1 + lengthWidth op + data.length := by
  simp only [encode, List.length_cons, List.length_append, Bytes.length_ofNatLE]
  omega

private theorem lengthWidth_pushOpcode_of_le {length : Nat} (positive : 0 < length)
    (short : length ≤ 75) :
    lengthWidth (pushOpcode length) = 0 := by
  have same : (pushOpcode length).toNat = length := by
    rcases pushOpcode_cases positive with ⟨-, same⟩ | ⟨long, -⟩ | ⟨long, -⟩ | ⟨long, -⟩
    · exact same
    all_goals omega
  refine lengthWidth_of_direct ?_
  simp only [Opcode.isDirectPush, Bool.and_eq_true, decide_eq_true_eq, UInt8.le_iff_toNat_le, same]
  exact ⟨positive, short⟩

/-- Another opcode than the one for the length of a string takes a longer length field. -/
private theorem lengthWidth_pushOpcode_lt (sized : Sized ⟨op, some data⟩)
    (nonempty : 0 < data.length) (other : op ≠ pushOpcode data.length) :
    lengthWidth (pushOpcode data.length) < lengthWidth op := by
  have kinds := pushOpcode_cases nonempty
  have narrow := lengthWidth_pushOpcode_of_le nonempty
  cases sized with
  | direct isDirect length =>
      have bound : op.toNat ≤ 75 := by
        simp only [Opcode.isDirectPush, Bool.and_eq_true, decide_eq_true_eq] at isDirect
        exact UInt8.le_iff_toNat_le.mp isDirect.2
      rcases kinds with ⟨-, same⟩ | ⟨long, -⟩ | ⟨long, -⟩ | ⟨long, -⟩
      · exact absurd (UInt8.toNat_inj.mp (length.symm.trans same.symm)) other
      all_goals omega
  | pushData1 short =>
      rcases kinds with ⟨direct, -⟩ | ⟨-, -, same⟩ | ⟨long, -⟩ | ⟨long, -⟩
      · rw [narrow direct]
        decide
      · exact absurd same.symm other
      all_goals omega
  | pushData2 short =>
      rcases kinds with ⟨direct, -⟩ | ⟨-, -, same⟩ | ⟨-, -, same⟩ | ⟨long, -⟩
      · rw [narrow direct]
        decide
      · rw [same]
        decide
      · exact absurd same.symm other
      · omega
  | pushData4 short =>
      rcases kinds with ⟨direct, -⟩ | ⟨-, -, same⟩ | ⟨-, -, same⟩ | ⟨-, same⟩
      · rw [narrow direct]
        decide
      · rw [same]
        decide
      · rw [same]
        decide
      · exact absurd same.symm other

/-- A string that an opcode pushes alone takes one byte, and any operand takes more. -/
private theorem length_encode_bare_lt {bare : Opcode} (alone : bareOpcode? data = some bare)
    (sized : Sized ⟨op, some data⟩) :
    (push data).encode.length < (encode ⟨op, some data⟩).length := by
  have single : (push data).encode.length = 1 := by
    rw [push, alone]
    rfl
  have longer : 0 < lengthWidth op + data.length := by
    cases sized with
    | direct isDirect length =>
        have positive := (bounds_of_hasOperand (hasOperand_iff.mpr (.inl isDirect))).1
        omega
    | pushData1 | pushData2 | pushData4 => exact Nat.add_pos_left (by decide) _
  rw [single, length_encode_data]
  omega

/-! ## All pushes -/

private theorem eq_push_of_bare (noOperand : Opcode.hasOperand op = false)
    (pushes : pushValue? ⟨op, none⟩ = some value) : ⟨op, none⟩ = push value := by
  have all : ∀ number : Fin 256, Opcode.hasOperand (UInt8.ofNat number) = true ∨
      ∀ pushed ∈ pushValue? ⟨UInt8.ofNat number, none⟩,
        ⟨UInt8.ofNat number, none⟩ = push pushed := by decide +kernel
  have whole := all ⟨op.toNat, op.toNat_lt⟩
  rw [UInt8.ofNat_toNat, noOperand] at whole
  exact whole.resolve_left Bool.false_ne_true value pushes

/-- A chunk of a script that pushes something has the data that its opcode announces, since a return
that takes the rest of the script pushes nothing. -/
theorem InOrder.sized_of_pushes {depth : Nat} {chunks : List Chunk} (inOrder : InOrder depth chunks)
    (member : chunk ∈ chunks) (pushes : chunk.pushValue? = some value) : chunk.Sized := by
  induction inOrder with
  | nil => cases member
  | ending nonempty =>
      obtain rfl := List.mem_singleton.mp member
      cases pushes
  | cons sized goesOn later ih =>
      obtain rfl | member := List.mem_cons.mp member
      · exact sized
      · exact ih member

theorem isMinimal_iff_eq_push (sized : chunk.Sized) (pushes : chunk.pushValue? = some value) :
    chunk.isMinimal = true ↔ chunk = push value := by
  obtain ⟨op, _ | data⟩ := chunk
  · have same := eq_push_of_bare (noOperand_of_sized sized) pushes
    rw [same]
    exact iff_of_true (isMinimal_push value) rfl
  · have hasOperand := hasOperand_of_sized sized
    rw [pushValue?_of_hasOperand hasOperand] at pushes
    obtain rfl := Option.some.inj pushes
    exact isMinimal_of_hasOperand hasOperand

theorem length_encode_push_lt (sized : chunk.Sized) (pushes : chunk.pushValue? = some value)
    (other : chunk ≠ push value) : (push value).encode.length < chunk.encode.length := by
  obtain ⟨op, _ | data⟩ := chunk
  · exact absurd (eq_push_of_bare (noOperand_of_sized sized) pushes) other
  · rw [pushValue?_of_hasOperand (hasOperand_of_sized sized)] at pushes
    obtain rfl := Option.some.inj pushes
    cases alone : bareOpcode? data with
    | some bare => exact length_encode_bare_lt alone sized
    | none =>
        have different : op ≠ pushOpcode data.length := fun same =>
          other (eq_push_iff.mpr ⟨alone, same⟩)
        have shorter := lengthWidth_pushOpcode_lt sized (length_pos_of_bareOpcode? alone) different
        have built : push data = ⟨pushOpcode data.length, some data⟩ := by rw [push, alone]
        rw [built, length_encode_data, length_encode_data]
        omega

end BitcoinSpend.Chunk
