import BitcoinSpend.Proofs.ExceptProperties
import BitcoinSpend.Script.Basic

/-!
# Scripts and the chunks that they split into

A list of chunks is in order when the data of each chunk is what its opcode
announces and a return outside conditionals comes last. The scripts that split are
those that such lists encode to, each list being what its own encoding splits into.
-/

set_option autoImplicit false

namespace BitcoinSpend

namespace Chunk

/-- The chunk has the data that its opcode announces. -/
inductive Sized : Chunk → Prop where
  | direct {op : Opcode} {data : Bytes} (isDirect : Opcode.isDirectPush op = true)
      (length : data.length = op.toNat) : Sized ⟨op, some data⟩
  | pushData1 {data : Bytes} (short : data.length < 0x100) : Sized ⟨Opcode.pushData1, some data⟩
  | pushData2 {data : Bytes} (short : data.length < 0x10000) :
      Sized ⟨Opcode.pushData2, some data⟩
  | pushData4 {data : Bytes} (short : data.length < 0x100000000) :
      Sized ⟨Opcode.pushData4, some data⟩
  | bare {op : Opcode} (noOperand : Opcode.hasOperand op = false) : Sized ⟨op, none⟩

/-- The chunks of a script in order, when `depth` conditionals are open before them. A return
outside conditionals is the last chunk, and carries what follows it if anything does. -/
inductive InOrder : (depth : Nat) → List Chunk → Prop where
  | nil {depth : Nat} : InOrder depth []
  | ending {data : Option Bytes} (nonempty : data ≠ some []) :
      InOrder 0 [⟨Opcode.returnEarly, data⟩]
  | cons {depth : Nat} {chunk : Chunk} {rest : List Chunk} (sized : chunk.Sized)
      (goesOn : ¬(chunk.op = Opcode.returnEarly ∧ depth = 0))
      (later : InOrder (depthAfter chunk.op depth) rest) : InOrder depth (chunk :: rest)

/-! ## One push -/

theorem hasOperand_iff {op : Opcode} : Opcode.hasOperand op = true ↔
    Opcode.isDirectPush op = true ∨ op = Opcode.pushData1 ∨ op = Opcode.pushData2 ∨
      op = Opcode.pushData4 := by
  simp only [Opcode.hasOperand, Opcode.isDirectPush, Bool.and_eq_true, decide_eq_true_eq,
    UInt8.le_iff_toNat_le, UInt8.lt_iff_toNat_lt, ← UInt8.toNat_inj, Opcode.pushData1,
    Opcode.pushData2, Opcode.pushData4]
  simp
  omega

theorem lengthWidth_of_direct {op : Opcode} (isDirect : Opcode.isDirectPush op = true) :
    lengthWidth op = 0 := by
  have notCounted : ∀ other : Opcode, 0x4b < other → op ≠ other := by
    rintro other larger rfl
    simp only [Opcode.isDirectPush, Bool.and_eq_true, decide_eq_true_eq] at isDirect
    exact absurd isDirect.2 (by simpa using larger)
  simp [lengthWidth, notCounted Opcode.pushData1 (by decide),
    notCounted Opcode.pushData2 (by decide), notCounted Opcode.pushData4 (by decide)]

private theorem isDirectPush_of_width {op : Opcode} (counted : lengthWidth op ≠ 0) :
    Opcode.isDirectPush op = false :=
  Bool.eq_false_iff.mpr fun isDirect => counted (lengthWidth_of_direct isDirect)

/-- The field before the data is the announced length again. -/
private theorem ofNatLE_announcedLength {op : Opcode} {rest : Bytes}
    (enough : lengthWidth op ≤ rest.length) :
    Bytes.ofNatLE (lengthWidth op) (announcedLength op rest) = rest.take (lengthWidth op) := by
  by_cases counted : lengthWidth op = 0
  · rw [counted, List.take_zero, Bytes.ofNatLE]
  · have width : (rest.take (lengthWidth op)).length = lengthWidth op :=
      List.length_take_of_le enough
    have back := Bytes.ofNatLE_toNatLE (rest.take (lengthWidth op))
    rw [width] at back
    rwa [announcedLength, isDirectPush_of_width counted, if_neg Bool.false_ne_true]

private theorem sized_of_announcedLength {op : Opcode} {rest data : Bytes}
    (hasOperand : Opcode.hasOperand op = true) (enough : lengthWidth op ≤ rest.length)
    (length : data.length = announcedLength op rest) : Sized ⟨op, some data⟩ := by
  have bound := Bytes.toNatLE_lt (rest.take (lengthWidth op))
  rw [List.length_take_of_le enough] at bound
  rcases hasOperand_iff.mp hasOperand with isDirect | rfl | rfl | rfl
  · rw [announcedLength, if_pos isDirect] at length
    exact .direct isDirect length
  · exact .pushData1 (by rwa [length])
  · exact .pushData2 (by rwa [length])
  · exact .pushData4 (by rwa [length])

/-- A push that is read has the data that its opcode announces, and its length and data are the
bytes that were taken. -/
theorem sized_of_readOperand {offset : Nat} {op : Opcode} {rest data : Bytes} {taken : Nat}
    (hasOperand : Opcode.hasOperand op = true)
    (read : readOperand offset op rest = .ok (taken, data)) :
    Sized ⟨op, some data⟩ ∧
      Bytes.ofNatLE (lengthWidth op) data.length ++ data ++ rest.drop taken = rest := by
  simp only [readOperand] at read
  split at read
  · cases read
  · next wide =>
      split at read
      · cases read
      · next long =>
          cases read
          have enough : lengthWidth op ≤ rest.length := Nat.le_of_not_lt wide
          have length : ((rest.drop (lengthWidth op)).take (announcedLength op rest)).length =
              announcedLength op rest := List.length_take_of_le (Nat.le_of_not_lt long)
          refine ⟨sized_of_announcedLength hasOperand enough length, ?_⟩
          rw [length, ofNatLE_announcedLength enough, ← List.drop_drop, List.append_assoc,
            List.take_append_drop, List.take_append_drop]

/-- The length in front of the data of a sized push is announced as it is. -/
private theorem announcedLength_of_sized {op : Opcode} {data : Bytes}
    (sized : Sized ⟨op, some data⟩) (rest : Bytes) :
    announcedLength op (Bytes.ofNatLE (lengthWidth op) data.length ++ rest) = data.length := by
  have counted : ∀ width, lengthWidth op = width → width ≠ 0 →
      data.length < Bytes.capacity width →
      announcedLength op (Bytes.ofNatLE (lengthWidth op) data.length ++ rest) = data.length := by
    intro width same positive short
    have notDirect := isDirectPush_of_width (same ▸ positive)
    rw [announcedLength, notDirect, if_neg Bool.false_ne_true, same,
      List.take_left' (Bytes.length_ofNatLE width _), Bytes.toNatLE_ofNatLE, Nat.mod_eq_of_lt short]
  cases sized with
  | direct isDirect length => rw [announcedLength, if_pos isDirect, length]
  | pushData1 short => exact counted 1 rfl (by decide) short
  | pushData2 short => exact counted 2 rfl (by decide) short
  | pushData4 short => exact counted 4 rfl (by decide) short

private theorem readOperand_of_sized {op : Opcode} {data : Bytes} (sized : Sized ⟨op, some data⟩)
    (offset : Nat) (rest : Bytes) :
    readOperand offset op (Bytes.ofNatLE (lengthWidth op) data.length ++ data ++ rest) =
      .ok (lengthWidth op + data.length, data) := by
  have announced := announcedLength_of_sized sized (data ++ rest)
  have body : (Bytes.ofNatLE (lengthWidth op) data.length ++ (data ++ rest)).drop (lengthWidth op) =
      data ++ rest := List.drop_left' (Bytes.length_ofNatLE _ _)
  rw [List.append_assoc]
  simp only [readOperand, announced, body]
  rw [if_neg (by simp), if_neg (by simp), List.take_left]

theorem hasOperand_of_sized {op : Opcode} {data : Bytes} (sized : Sized ⟨op, some data⟩) :
    Opcode.hasOperand op = true := by
  cases sized with
  | direct isDirect length => exact hasOperand_iff.mpr (Or.inl isDirect)
  | pushData1 | pushData2 | pushData4 => rfl

theorem noOperand_of_sized {op : Opcode} (sized : Sized ⟨op, none⟩) :
    Opcode.hasOperand op = false := by
  cases sized with
  | bare noOperand => exact noOperand

theorem depthAfter_of_push {op : Opcode} (push : op ≤ Opcode.sixteen) (depth : Nat) :
    depthAfter op depth = depth := by
  have different : ∀ other : Opcode, Opcode.sixteen < other → op ≠ other := by
    rintro other larger rfl
    exact absurd push (UInt8.not_le.mpr larger)
  simp [depthAfter, different Opcode.ifTrue (by decide), different Opcode.ifFalse (by decide),
    different Opcode.verIf (by decide), different Opcode.verNotIf (by decide),
    different Opcode.endIf (by decide)]

theorem depthAfter_of_hasOperand {op : Opcode} (hasOperand : Opcode.hasOperand op = true)
    (depth : Nat) : depthAfter op depth = depth := by
  simp only [Opcode.hasOperand, Bool.and_eq_true, decide_eq_true_eq] at hasOperand
  exact depthAfter_of_push (UInt8.le_trans hasOperand.2 (by decide)) depth

theorem depthAfter_mono {op : Opcode} {depth depth' : Nat} (shallower : depth' ≤ depth) :
    depthAfter op depth' ≤ depthAfter op depth := by
  unfold depthAfter
  split
  · exact Nat.succ_le_succ shallower
  · split
    · exact Nat.sub_le_sub_right shallower 1
    · exact shallower

theorem le_depthAfter {op : Opcode} (other : op ≠ Opcode.endIf) (depth : Nat) :
    depth ≤ depthAfter op depth := by
  rw [depthAfter, if_neg other]
  split
  · exact Nat.le_succ depth
  · exact Nat.le_refl depth

/-! ## Whole scripts -/

theorem encodeAll_cons (chunk : Chunk) (rest : List Chunk) :
    encodeAll (chunk :: rest) = chunk.encode ++ encodeAll rest :=
  List.flatMap_cons

theorem encodeAll_ending (data : Option Bytes) :
    encodeAll [⟨Opcode.returnEarly, data⟩] = Opcode.returnEarly :: data.getD [] := by
  have width : lengthWidth Opcode.returnEarly = 0 := rfl
  cases data with
  | none => rfl
  | some data => simp [encodeAll, encode, width, Bytes.ofNatLE]

theorem inOrder_of_decodeFrom {offset depth : Nat} {bytes : Bytes} {chunks : List Chunk}
    (decoded : decodeFrom offset depth bytes = .ok chunks) :
    InOrder depth chunks ∧ encodeAll chunks = bytes := by
  fun_induction decodeFrom offset depth bytes generalizing chunks with
  | case1 =>
      cases decoded
      exact ⟨.nil, rfl⟩
  | case2 offset depth op rest isReturn =>
      cases decoded
      obtain ⟨rfl, rfl⟩ := isReturn
      cases rest with
      | nil => exact ⟨.ending (by simp), rfl⟩
      | cons byte later => exact ⟨.ending (by simp), encodeAll_ending _⟩
  | case3 offset depth op rest notReturn hasOperand cause read => cases decoded
  | case4 offset depth op rest notReturn hasOperand taken data read ih =>
      obtain ⟨tail, tailDecoded, rfl⟩ := map_eq_ok_iff.mp decoded
      obtain ⟨inOrder, encoded⟩ := ih tailDecoded
      obtain ⟨sized, bytes⟩ := sized_of_readOperand hasOperand read
      refine ⟨.cons sized notReturn ?_, ?_⟩
      · rwa [depthAfter_of_hasOperand hasOperand]
      · rw [encodeAll_cons, encoded, encode, List.cons_append, bytes]
  | case5 offset depth op rest notReturn noOperand ih =>
      obtain ⟨tail, tailDecoded, rfl⟩ := map_eq_ok_iff.mp decoded
      obtain ⟨inOrder, encoded⟩ := ih tailDecoded
      refine ⟨.cons (.bare (Bool.eq_false_iff.mpr noOperand)) notReturn inOrder, ?_⟩
      rw [encodeAll_cons, encoded]
      rfl

theorem decodeFrom_push {op : Opcode} {data : Bytes} (sized : Sized ⟨op, some data⟩)
    {depth : Nat} (goesOn : ¬(op = Opcode.returnEarly ∧ depth = 0)) (offset : Nat) (rest : Bytes) :
    decodeFrom offset depth (encode ⟨op, some data⟩ ++ rest) =
      (decodeFrom (offset + 1 + (lengthWidth op + data.length)) depth rest).map
        (⟨op, some data⟩ :: ·) := by
  have after : (Bytes.ofNatLE (lengthWidth op) data.length ++ data ++ rest).drop
      (lengthWidth op + data.length) = rest := List.drop_left' (by simp)
  rw [encode, List.cons_append, decodeFrom, if_neg goesOn, if_pos (hasOperand_of_sized sized)]
  simp only [readOperand_of_sized sized, after]

theorem decodeFrom_encodeAll {depth : Nat} {chunks : List Chunk} (inOrder : InOrder depth chunks)
    (offset : Nat) : decodeFrom offset depth (encodeAll chunks) = .ok chunks := by
  induction inOrder generalizing offset with
  | nil => rw [encodeAll, List.flatMap_nil, decodeFrom]
  | @ending data nonempty =>
      rw [encodeAll_ending, decodeFrom, if_pos ⟨rfl, rfl⟩]
      rcases data with _ | ⟨_ | ⟨byte, later⟩⟩
      · rfl
      · exact absurd rfl nonempty
      · rfl
  | @cons depth chunk rest sized goesOn later ih =>
      obtain ⟨op, data⟩ := chunk
      rw [encodeAll_cons]
      rcases data with _ | data
      · cases sized with
        | bare noOperand =>
            rw [encode, List.singleton_append, decodeFrom, if_neg goesOn, noOperand,
              if_neg Bool.false_ne_true, ih]
            rfl
      · rw [depthAfter_of_hasOperand (hasOperand_of_sized sized)] at ih
        rw [decodeFrom_push sized goesOn, ih]
        rfl

end Chunk

theorem Script.chunks_eq_ok_iff {script : Script} {chunks : List Chunk} :
    script.chunks = .ok chunks ↔ Chunk.InOrder 0 chunks ∧ Script.ofChunks chunks = script := by
  constructor
  · intro decoded
    obtain ⟨inOrder, encoded⟩ := Chunk.inOrder_of_decodeFrom decoded
    exact ⟨inOrder, congrArg Script.mk encoded⟩
  · rintro ⟨inOrder, rfl⟩
    exact Chunk.decodeFrom_encodeAll inOrder 0

/-- An empty push in a long form, a close without an opening, and a return before half a push. -/
example : Script.chunks ⟨[0x4d, 0x00, 0x00, 0x68, 0x6a, 0x4c]⟩ =
    .ok [⟨0x4d, some []⟩, ⟨0x68, none⟩, ⟨0x6a, some [0x4c]⟩] := by
  cbv

end BitcoinSpend
