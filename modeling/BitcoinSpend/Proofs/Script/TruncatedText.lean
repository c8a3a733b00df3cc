import BitcoinSpend.Proofs.Chunk.Splitting
import BitcoinSpend.Script.Assembly

/-!
# The text of a truncated script

A script that breaks off inside a push is written by a walk that measures each chunk
and reads it on its own, outside any conditional. The walk takes the chunks that the
script has up to the truncated push, each as it is read in its place, and stops there.
-/

set_option autoImplicit false

namespace BitcoinSpend.Script

/-- Measuring and reading one chunk after another, each on its own, takes some chunks from the
front of bytes and stops before what is left, whose first chunk is not complete. -/
inductive Walks : Bytes → List Chunk → (left : Bytes) → Prop where
  | stop {op : Opcode} {rest : Bytes} (incomplete : operandLength? op rest = none) :
      Walks (op :: rest) [] (op :: rest)
  | step {op : Opcode} {rest left : Bytes} {length : Nat} {chunk : Chunk} {chunks : List Chunk}
      (measured : operandLength? op rest = some length)
      (alone : Chunk.decode (op :: rest.take length) = .ok [chunk])
      (later : Walks (rest.drop length) chunks left) : Walks (op :: rest) (chunk :: chunks) left

private theorem leadingTexts_of_walks {bytes left : Bytes} {chunks : List Chunk}
    (walks : Walks bytes chunks left) : leadingTexts bytes = chunks.map Chunk.assembly := by
  induction walks with
  | stop incomplete =>
      rw [leadingTexts, incomplete]
      rfl
  | step measured alone later ih =>
      rw [leadingTexts]
      simp only [measured, alone, ih]
      rfl

/-! ## Measuring a chunk -/

variable {op : Opcode} {offset taken : Nat} {rest data : Bytes}

private theorem operandLength?_of_operand (hasOperand : Opcode.hasOperand op = true)
    (read : Chunk.readOperand offset op rest = .ok (taken, data)) :
    operandLength? op rest = some taken := by
  simp only [Chunk.readOperand] at read
  split at read
  · cases read
  · next wide =>
      split at read
      · cases read
      · next long =>
          cases read
          have enough : Chunk.lengthWidth op + Chunk.announcedLength op rest ≤ rest.length := by
            rw [List.length_drop] at long
            omega
          simp only [operandLength?, hasOperand, if_true, if_neg wide, if_pos enough]

/-- A push that is truncated is not complete for the walk either. -/
private theorem operandLength?_of_truncated {cause : ScriptError}
    (hasOperand : Opcode.hasOperand op = true)
    (read : Chunk.readOperand offset op rest = .error cause) :
    operandLength? op rest = none ∧
      ∃ wanted remaining, cause = .truncatedPush offset wanted remaining := by
  simp only [Chunk.readOperand] at read
  split at read
  · next narrow =>
      cases read
      exact ⟨by simp only [operandLength?, if_pos narrow], _, _, rfl⟩
  · next wide =>
      split at read
      · next short =>
          cases read
          have missing : ¬Chunk.lengthWidth op + Chunk.announcedLength op rest ≤ rest.length := by
            rw [List.length_drop] at short
            omega
          refine ⟨?_, _, _, rfl⟩
          simp only [operandLength?, hasOperand, if_true, if_neg wide, if_neg missing]
      · cases read

private theorem operandLength?_bare (noOperand : ¬Opcode.hasOperand op = true) (rest : Bytes) :
    operandLength? op rest = some 0 := by
  have uncounted : Chunk.lengthWidth op = 0 := by
    have notCounted : op ≠ Opcode.pushData1 ∧ op ≠ Opcode.pushData2 ∧ op ≠ Opcode.pushData4 := by
      refine ⟨?_, ?_, ?_⟩ <;> rintro rfl <;> exact noOperand rfl
    simp only [Chunk.lengthWidth, notCounted, if_false]
  simp [operandLength?, uncounted, noOperand]

/-! ## Reading a chunk on its own -/

private theorem decode_operand_alone (hasOperand : Opcode.hasOperand op = true)
    (read : Chunk.readOperand offset op rest = .ok (taken, data)) :
    Chunk.decode (op :: rest.take taken) = .ok [⟨op, some data⟩] ∧
      Chunk.encode ⟨op, some data⟩ = op :: rest.take taken := by
  obtain ⟨sized, bytes⟩ := Chunk.sized_of_readOperand hasOperand read
  have split := List.take_append_drop taken rest
  have body : Bytes.ofNatLE (Chunk.lengthWidth op) data.length ++ data = rest.take taken :=
    List.append_cancel_right (bytes.trans split.symm)
  have notReturn : op ≠ Opcode.returnEarly := by
    rintro rfl
    cases hasOperand
  have encoded : Chunk.encode ⟨op, some data⟩ = op :: rest.take taken := by
    simp only [Chunk.encode, body]
  have inOrder : Chunk.InOrder 0 [⟨op, some data⟩] :=
    .cons sized (fun isReturn => notReturn isReturn.1) .nil
  have decoded := Chunk.decodeFrom_encodeAll inOrder 0
  rw [Chunk.encodeAll, List.flatMap_singleton, encoded] at decoded
  exact ⟨decoded, encoded⟩

/-- A return on its own is bare, whether or not it stands in a conditional where it comes from. -/
private theorem decode_bare_alone (noOperand : ¬Opcode.hasOperand op = true) (rest : Bytes) :
    Chunk.decode (op :: rest.take 0) = .ok [Chunk.ofOpcode op] := by
  rw [List.take_zero, Chunk.decode, Chunk.decodeFrom, if_neg noOperand, Chunk.decodeFrom]
  split
  · next isReturn =>
      rw [isReturn.1]
      rfl
  · rfl

/-! ## The walk -/

/-- Where splitting finds a truncated push, the walk stops, with the chunks before it. -/
private theorem walks_of_truncated {depth place wanted remaining : Nat} {bytes : Bytes}
    (truncated : Chunk.decodeFrom offset depth bytes =
      .error (.truncatedPush place wanted remaining)) :
    offset ≤ place ∧ ∃ chunks, Chunk.InOrder depth chunks ∧
      Chunk.encodeAll chunks = bytes.take (place - offset) ∧
      Walks bytes chunks (bytes.drop (place - offset)) := by
  fun_induction Chunk.decodeFrom offset depth bytes with
  | case1 => cases truncated
  | case2 offset depth op rest isReturn => cases truncated
  | case3 offset depth op rest notReturn hasOperand cause read =>
      obtain ⟨incomplete, _, _, rfl⟩ := operandLength?_of_truncated hasOperand read
      cases truncated
      rw [Nat.sub_self]
      exact ⟨Nat.le_refl place, [], .nil, rfl, .stop incomplete⟩
  | case4 offset depth op rest notReturn hasOperand taken data read ih =>
      obtain ⟨later, chunks, inOrder, encoded, walks⟩ := ih (map_eq_error_iff.mp truncated)
      obtain ⟨alone, bytes⟩ := decode_operand_alone hasOperand read
      obtain ⟨sized, -⟩ := Chunk.sized_of_readOperand hasOperand read
      have place' : place - offset = (taken + (place - (offset + 1 + taken))) + 1 := by omega
      refine ⟨by omega, ⟨op, some data⟩ :: chunks, .cons sized notReturn ?_, ?_, ?_⟩
      · rwa [Chunk.depthAfter_of_hasOperand hasOperand]
      · rw [Chunk.encodeAll_cons, bytes, encoded, place', List.take_succ_cons, List.take_add,
          List.cons_append]
      · rw [place', List.drop_succ_cons, ← List.drop_drop]
        exact .step (operandLength?_of_operand hasOperand read) alone walks
  | case5 offset depth op rest notReturn noOperand ih =>
      obtain ⟨later, chunks, inOrder, encoded, walks⟩ := ih (map_eq_error_iff.mp truncated)
      have place' : place - offset = (place - (offset + 1)) + 1 := by omega
      have sized : Chunk.Sized (Chunk.ofOpcode op) := .bare (Bool.eq_false_iff.mpr noOperand)
      refine ⟨by omega, Chunk.ofOpcode op :: chunks, .cons sized notReturn inOrder, ?_, ?_⟩
      · rw [Chunk.encodeAll_cons, encoded, place', List.take_succ_cons]
        rfl
      · rw [place', List.drop_succ_cons]
        exact .step (operandLength?_bare noOperand rest) (decode_bare_alone noOperand rest) walks

/-- A script that breaks off inside a push splits up to that push, and is written as the chunks that
it has there and the mark. The walk that writes them takes the same chunks and stops at the same
place. -/
theorem toAssembly_of_truncated {script : Script} {place wanted remaining : Nat}
    (truncated : script.chunks = .error (.truncatedPush place wanted remaining)) :
    ∃ chunks, Script.chunks ⟨script.bytes.take place⟩ = .ok chunks ∧
      script.toAssembly = Chunk.joinWords (chunks.map Chunk.assembly ++ ["[error]"]) ∧
      Walks script.bytes chunks (script.bytes.drop place) := by
  obtain ⟨-, chunks, inOrder, encoded, walks⟩ := walks_of_truncated truncated
  have splits : Script.chunks ⟨script.bytes.take place⟩ = .ok chunks :=
    chunks_eq_ok_iff.mpr ⟨inOrder, congrArg Script.mk encoded⟩
  refine ⟨chunks, splits, ?_, walks⟩
  simp only [toAssembly, truncated, leadingTexts_of_walks walks]

/-- A return inside a conditional, an empty push in a long form and half a push. -/
theorem toAssembly_of_truncated_inside :
    let script : Script := ⟨[0x63, 0x6a, 0x4c, 0x00, 0x68, 0x4d, 0x02, 0x00, 0xab]⟩
    script.chunks = .error (.truncatedPush 5 2 1) ∧
      script.toAssembly = "OP_IF OP_RETURN 0 OP_ENDIF [error]" := by
  intro script
  have truncated : script.chunks = .error (.truncatedPush 5 2 1) := by cbv
  obtain ⟨chunks, splits, text, -⟩ := toAssembly_of_truncated truncated
  have first : Script.chunks ⟨script.bytes.take 5⟩ =
      .ok [⟨0x63, none⟩, ⟨0x6a, none⟩, ⟨0x4c, some []⟩, ⟨0x68, none⟩] := by cbv
  rw [first] at splits
  cases splits
  refine ⟨truncated, text.trans ?_⟩
  decide +kernel

end BitcoinSpend.Script
