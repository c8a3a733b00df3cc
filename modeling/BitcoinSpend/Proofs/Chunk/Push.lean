import BitcoinSpend.Proofs.Chunk.Splitting
import BitcoinSpend.Template.Sign

/-!
# Shortest pushes

A push in shortest form has the data that its opcode announces, counts as shortest,
and pushes what it was made of. Scripts of such pushes split into them again.
-/

set_option autoImplicit false

namespace BitcoinSpend

namespace Chunk

/-! ## One push -/

/-- A string is pushed by an opcode alone, or with its bytes after the opcode for its length. -/
theorem push_cases (data : Bytes) :
    (data = [] ∧ push data = ⟨Opcode.pushEmpty, none⟩) ∨
      (∃ byte : UInt8, data = [byte] ∧ 1 ≤ byte ∧ byte ≤ 16 ∧
        push data = ⟨Opcode.one + byte - 1, none⟩) ∨
      (data = [0x81] ∧ push data = ⟨Opcode.negativeOne, none⟩) ∨
      (bareOpcode? data = none ∧ push data = ⟨pushOpcode data.length, some data⟩) := by
  rcases data with _ | ⟨byte, _ | ⟨second, rest⟩⟩
  · exact Or.inl ⟨rfl, rfl⟩
  · by_cases small : 1 ≤ byte ∧ byte ≤ 16
    · refine Or.inr (Or.inl ⟨byte, rfl, small.1, small.2, ?_⟩)
      simp [push, bareOpcode?, small, ofOpcode]
    · by_cases negative : byte = 0x81
      · subst negative
        exact Or.inr (Or.inr (Or.inl ⟨rfl, rfl⟩))
      · refine Or.inr (Or.inr (Or.inr ?_))
        simp [push, bareOpcode?, small, negative]
  · exact Or.inr (Or.inr (Or.inr ⟨rfl, rfl⟩))

private theorem toNat_smallOpcode {byte : UInt8} (positive : 1 ≤ byte) (small : byte ≤ 16) :
    (Opcode.one + byte - 1).toNat = 0x50 + byte.toNat := by
  have lower := UInt8.le_iff_toNat_le.mp positive
  have upper := UInt8.le_iff_toNat_le.mp small
  have one : (1 : UInt8).toNat = 1 := rfl
  have sixteen : (16 : UInt8).toNat = 16 := rfl
  have opcode : Opcode.one.toNat = 0x51 := rfl
  rw [UInt8.toNat_sub, UInt8.toNat_add, opcode, one]
  omega

private theorem pushData4_lt_smallOpcode {byte : UInt8} (positive : 1 ≤ byte) (small : byte ≤ 16) :
    Opcode.pushData4 < Opcode.one + byte - 1 := by
  rw [UInt8.lt_iff_toNat_lt, toNat_smallOpcode positive small]
  exact Nat.lt_add_right _ (by decide)

theorem pushOpcode_cases {length : Nat} (positive : 0 < length) :
    (length ≤ 75 ∧ (pushOpcode length).toNat = length) ∨
      (75 < length ∧ length < 0x100 ∧ pushOpcode length = Opcode.pushData1) ∨
      (0x100 ≤ length ∧ length < 0x10000 ∧ pushOpcode length = Opcode.pushData2) ∨
      (0x10000 ≤ length ∧ pushOpcode length = Opcode.pushData4) := by
  simp only [pushOpcode]
  split
  · next direct =>
      refine Or.inl ⟨direct, ?_⟩
      rw [UInt8.toNat_ofNat']
      omega
  · next long =>
      split
      · exact Or.inr (Or.inl ⟨by omega, by omega, rfl⟩)
      · split
        · exact Or.inr (Or.inr (Or.inl ⟨by omega, by omega, rfl⟩))
        · exact Or.inr (Or.inr (Or.inr ⟨by omega, rfl⟩))

theorem pushOpcode_bounds {length : Nat} (positive : 0 < length) :
    0 < (pushOpcode length).toNat ∧ (pushOpcode length).toNat ≤ 0x4e := by
  rcases pushOpcode_cases positive with ⟨direct, same⟩ | ⟨-, -, same⟩ | ⟨-, -, same⟩ | ⟨-, same⟩
  · omega
  all_goals
    rw [same]
    decide

theorem length_pos_of_bareOpcode? {data : Bytes} (plain : bareOpcode? data = none) :
    0 < data.length := by
  cases data with
  | nil => cases plain
  | cons byte rest => exact Nat.zero_lt_succ _

theorem push_of_length {data : Bytes} (long : 1 < data.length) :
    push data = ⟨pushOpcode data.length, some data⟩ := by
  rcases data with _ | ⟨byte, _ | ⟨second, rest⟩⟩
  · cases long
  · exact absurd long (by simp)
  · rfl

theorem sized_push {data : Bytes} (short : data.length < UInt32.size) : (push data).Sized := by
  rcases push_cases data with ⟨-, same⟩ | ⟨byte, -, positive, small, same⟩ | ⟨-, same⟩ |
    ⟨plain, same⟩
  · rw [same]
    exact .bare rfl
  · rw [same]
    refine .bare ?_
    simp [Opcode.hasOperand, UInt8.not_le.mpr (pushData4_lt_smallOpcode positive small)]
  · rw [same]
    exact .bare rfl
  · rw [same]
    have positive := length_pos_of_bareOpcode? plain
    rcases pushOpcode_cases positive with ⟨direct, isLength⟩ | ⟨-, bound, isOp⟩ |
      ⟨-, bound, isOp⟩ | ⟨-, isOp⟩
    · refine .direct ?_ isLength.symm
      have first : (0x01 : UInt8) ≤ pushOpcode data.length := by
        rw [UInt8.le_iff_toNat_le, isLength]
        exact positive
      have last : pushOpcode data.length ≤ (0x4b : UInt8) := by
        rw [UInt8.le_iff_toNat_le, isLength]
        exact direct
      simp [Opcode.isDirectPush, first, last]
    · rw [isOp]
      exact .pushData1 bound
    · rw [isOp]
      exact .pushData2 bound
    · rw [isOp]
      exact .pushData4 short

theorem op_push_le (data : Bytes) : (push data).op ≤ Opcode.sixteen := by
  rcases push_cases data with ⟨-, same⟩ | ⟨byte, -, positive, small, same⟩ | ⟨-, same⟩ |
    ⟨plain, same⟩
  · rw [same]
    decide
  · rw [same, UInt8.le_iff_toNat_le, toNat_smallOpcode positive small]
    exact Nat.add_le_add_left (UInt8.le_iff_toNat_le.mp small) 0x50
  · rw [same]
    decide
  · rw [same, UInt8.le_iff_toNat_le]
    exact Nat.le_trans (pushOpcode_bounds (length_pos_of_bareOpcode? plain)).2 (by decide)

theorem isPush_push (data : Bytes) : (push data).isPush = true := by
  simp [isPush, op_push_le]

theorem length_operand_push_le (data : Bytes) : (push data).operand.length ≤ data.length := by
  rcases push_cases data with ⟨-, same⟩ | ⟨byte, -, -, -, same⟩ | ⟨-, same⟩ | ⟨-, same⟩
  · rw [same]
    exact Nat.zero_le _
  · rw [same]
    exact Nat.zero_le _
  · rw [same]
    exact Nat.zero_le _
  · rw [same]
    exact Nat.le_refl _

theorem isMinimal_push (data : Bytes) : (push data).isMinimal = true := by
  rcases push_cases data with ⟨-, same⟩ | ⟨byte, -, positive, small, same⟩ | ⟨-, same⟩ |
    ⟨plain, same⟩
  · rw [same]
    rfl
  · rw [same]
    simp [isMinimal, pushData4_lt_smallOpcode positive small]
  · rw [same]
    rfl
  · rw [same]
    simp only [isMinimal, operand, Option.getD_some]
    rcases data with _ | ⟨byte, _ | ⟨second, rest⟩⟩
    · cases plain
    · simp only [bareOpcode?] at plain
      split at plain
      · cases plain
      · next large =>
          split at plain
          · cases plain
          · next positive =>
              have notSmall : (decide (1 ≤ byte) && decide (byte ≤ 16)) = false := by
                rw [← Bool.decide_and]
                exact decide_eq_false large
              simp only [notSmall, positive]
              rfl
    · simp

theorem ne_of_toNat_ne {left right : UInt8} (apart : left.toNat ≠ right.toNat) : left ≠ right :=
  fun same => apart (congrArg UInt8.toNat same)

private theorem pushValue?_smallOpcode {byte : UInt8} (positive : 1 ≤ byte) (small : byte ≤ 16) :
    pushValue? ⟨Opcode.one + byte - 1, none⟩ = some [byte] := by
  have value := toNat_smallOpcode positive small
  have lower : 1 ≤ byte.toNat := UInt8.le_iff_toNat_le.mp positive
  have upper : byte.toNat ≤ 16 := UInt8.le_iff_toNat_le.mp small
  have apart : ∀ op : Opcode, op.toNat ≤ 0x50 → Opcode.one + byte - 1 ≠ op := by
    intro op before
    exact ne_of_toNat_ne (by omega)
  have notBefore : Opcode.one ≤ Opcode.one + byte - 1 := by
    rw [UInt8.le_iff_toNat_le, value]
    exact Nat.add_le_add_left lower 0x50
  have notAfter : Opcode.one + byte - 1 ≤ Opcode.sixteen := by
    rw [UInt8.le_iff_toNat_le, value]
    exact Nat.add_le_add_left upper 0x50
  have back : Opcode.one + byte - 1 - Opcode.one + 1 = byte := by
    apply UInt8.toNat_inj.mp
    have one : (1 : UInt8).toNat = 1 := rfl
    have opcode : Opcode.one.toNat = 0x51 := rfl
    rw [UInt8.toNat_add, UInt8.toNat_sub, value, one, opcode]
    omega
  simp only [pushValue?, apart Opcode.pushEmpty (by decide), apart Opcode.negativeOne (by decide),
    apart Opcode.reserved (by decide), if_false, Opcode.smallValue?, notBefore, notAfter,
    decide_true, Bool.and_self, if_true, back]

/-- An opcode with an operand is none of those that push alone. -/
theorem pushValue?_of_operand {op : Opcode} {data : Bytes} (positive : 0 < op.toNat)
    (bound : op.toNat ≤ 0x4e) : pushValue? ⟨op, some data⟩ = some data := by
  have notEmpty : op ≠ Opcode.pushEmpty := ne_of_toNat_ne (Nat.ne_of_gt positive)
  have apart : ∀ other : Opcode, 0x4e < other.toNat → op ≠ other := by
    intro other after
    exact ne_of_toNat_ne (by omega)
  have beforeSmall : ¬Opcode.one ≤ op := by
    rw [UInt8.le_iff_toNat_le]
    exact Nat.not_le.mpr (Nat.lt_of_le_of_lt bound (by decide))
  have counted : op ≤ Opcode.pushData4 := UInt8.le_iff_toNat_le.mpr bound
  simp only [pushValue?, notEmpty, apart Opcode.negativeOne (by decide),
    apart Opcode.reserved (by decide), if_false, Opcode.smallValue?, beforeSmall, decide_false,
    Bool.false_and, Bool.false_eq_true, counted, if_true, operand, Option.getD_some]

private theorem pushValue?_pushOpcode {data : Bytes} (nonempty : 0 < data.length) :
    pushValue? ⟨pushOpcode data.length, some data⟩ = some data :=
  pushValue?_of_operand (pushOpcode_bounds nonempty).1 (pushOpcode_bounds nonempty).2

theorem pushValue?_push (data : Bytes) : (push data).pushValue? = some data := by
  rcases push_cases data with ⟨rfl, same⟩ | ⟨byte, rfl, positive, small, same⟩ | ⟨rfl, same⟩ |
    ⟨plain, same⟩
  · rw [same]
    rfl
  · rw [same]
    exact pushValue?_smallOpcode positive small
  · rw [same]
    rfl
  · rw [same]
    exact pushValue?_pushOpcode (length_pos_of_bareOpcode? plain)

/-! ## Sizes -/

theorem length_encode_push_le (data : Bytes) :
    (push data).encode.length ≤ data.length + 5 := by
  have width : ∀ op : Opcode, lengthWidth op ≤ 4 := by
    intro op
    simp only [lengthWidth]
    split
    · decide
    · split
      · decide
      · split <;> decide
  have shortOperand := length_operand_push_le data
  simp only [encode, operand] at shortOperand ⊢
  cases pushed : (push data).data with
  | none => simp
  | some bytes =>
      have short := width (push data).op
      rw [pushed] at shortOperand
      simp only [Option.getD_some] at shortOperand
      simp only [List.length_cons, List.length_append, Bytes.length_ofNatLE]
      omega

private theorem length_encode_pos (chunk : Chunk) : 0 < chunk.encode.length := by
  simp only [encode]
  split <;> exact Nat.zero_lt_succ _

theorem length_le_size_ofChunks (chunks : List Chunk) :
    chunks.length ≤ (Script.ofChunks chunks).size := by
  induction chunks with
  | nil => exact Nat.le_refl 0
  | cons chunk chunks ih =>
      have positive := chunk.length_encode_pos
      simp only [Script.size, Script.ofChunks, encodeAll_cons, List.length_append,
        List.length_cons] at ih ⊢
      omega

/-! ## Scripts of pushes -/

theorem InOrder.pushes_append {items : List Bytes} {depth : Nat} {rest : List Chunk}
    (short : ∀ item ∈ items, item.length < UInt32.size) (later : InOrder depth rest) :
    InOrder depth (items.map push ++ rest) := by
  induction items with
  | nil => exact later
  | cons item items ih =>
      obtain ⟨shortItem, shortRest⟩ := List.forall_mem_cons.mp short
      refine .cons (sized_push shortItem) ?_ ?_
      · rintro ⟨isReturn, -⟩
        exact absurd (isReturn ▸ op_push_le item) (by decide)
      · rw [depthAfter_of_push (op_push_le item)]
        exact ih shortRest

end Chunk

namespace Script

theorem foldlM_appendPush_eq_ok_iff {items : List Bytes} {before script : Script} :
    items.foldlM appendPush before = .ok script ↔
      (∀ item ∈ items, item.length < UInt32.size) ∧
        script = ⟨before.bytes ++ Chunk.encodeAll (items.map Chunk.push)⟩ := by
  induction items generalizing before with
  | nil =>
      simp [List.foldlM, pure, Except.pure, Chunk.encodeAll, eq_comm]
  | cons item items ih =>
      rw [List.foldlM_cons, bind_eq_ok_iff, List.forall_mem_cons]
      constructor
      · rintro ⟨middle, appended, later⟩
        simp only [appendPush] at appended
        split at appended
        · cases appended
        · next short =>
            cases appended
            obtain ⟨shortRest, rfl⟩ := ih.mp later
            refine ⟨⟨Nat.lt_of_not_le short, shortRest⟩, ?_⟩
            simp [appendChunk, Chunk.encodeAll_cons]
      · rintro ⟨⟨short, shortRest⟩, rfl⟩
        refine ⟨before.appendChunk (Chunk.push item), if_neg (Nat.not_le.mpr short), ?_⟩
        refine ih.mpr ⟨shortRest, ?_⟩
        simp [appendChunk, Chunk.encodeAll_cons]

/-- Pushes are refused only for items that their length field has no room for. -/
theorem ofPushes_eq_ok_iff {items : List Bytes} {script : Script} :
    ofPushes items = .ok script ↔
      (∀ item ∈ items, item.length < UInt32.size) ∧ script = ofChunks (items.map Chunk.push) := by
  rw [ofPushes, mapError_eq_ok_iff, foldlM_appendPush_eq_ok_iff]
  rfl

theorem chunks_of_ofPushes {items : List Bytes} {script : Script}
    (made : ofPushes items = .ok script) : script.chunks = .ok (items.map Chunk.push) := by
  obtain ⟨short, rfl⟩ := ofPushes_eq_ok_iff.mp made
  have inOrder : Chunk.InOrder 0 (items.map Chunk.push ++ []) := .pushes_append short .nil
  rw [List.append_nil] at inOrder
  exact Chunk.decodeFrom_encodeAll inOrder 0

end Script

end BitcoinSpend
