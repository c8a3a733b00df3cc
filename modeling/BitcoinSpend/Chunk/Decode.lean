import BitcoinSpend.Chunk.Basic

/-!
# Scripts as chunks

Reading a script splits it into chunks. A return outside conditionals takes the
rest of the script as its data; how many conditionals are open is counted over
the opcodes read so far, whether or not they balance.
-/

set_option autoImplicit false

namespace BitcoinSpend.Chunk

/-- The number of open conditionals after an opcode. A close without an opening changes nothing. -/
def depthAfter (op : Opcode) (depth : Nat) : Nat :=
  if op = Opcode.ifTrue ∨ op = Opcode.ifFalse ∨ op = Opcode.verIf ∨ op = Opcode.verNotIf then
    depth + 1
  else if op = Opcode.endIf then depth - 1
  else depth

/-- The length that a push announces, in its opcode or in the field after it. -/
def announcedLength (op : Opcode) (rest : Bytes) : Nat :=
  if Opcode.isDirectPush op then op.toNat else Bytes.toNatLE (rest.take (lengthWidth op))

/-- The data of a push, and the bytes that its length and data take together. -/
def readOperand (offset : Nat) (op : Opcode) (rest : Bytes) : Except ScriptError (Nat × Bytes) :=
  let width := lengthWidth op
  if rest.length < width then .error (.truncatedPush offset width rest.length)
  else
    let length := announcedLength op rest
    let body := rest.drop width
    if body.length < length then .error (.truncatedPush offset length body.length)
    else .ok (width + length, body.take length)

/-- The chunks of the rest of a script, from an offset and with some conditionals open. -/
def decodeFrom (offset depth : Nat) : Bytes → Except ScriptError (List Chunk)
  | [] => .ok []
  | op :: rest =>
      if op = Opcode.returnEarly ∧ depth = 0 then
        .ok [⟨op, if rest.isEmpty then none else some rest⟩]
      else if Opcode.hasOperand op then
        match readOperand offset op rest with
        | .error cause => .error cause
        | .ok (taken, data) =>
            (decodeFrom (offset + 1 + taken) depth (rest.drop taken)).map (⟨op, some data⟩ :: ·)
      else (decodeFrom (offset + 1) (depthAfter op depth) rest).map (ofOpcode op :: ·)
termination_by bytes => bytes.length
decreasing_by
  all_goals simp only [List.length_cons, List.length_drop]; omega

def decode (bytes : Bytes) : Except ScriptError (List Chunk) :=
  decodeFrom 0 0 bytes

def encodeAll (chunks : List Chunk) : Bytes :=
  chunks.flatMap encode

private theorem length_le_of_readOperand {offset : Nat} {op : Opcode} {rest : Bytes} {taken : Nat}
    {data : Bytes} (read : readOperand offset op rest = .ok (taken, data)) :
    data.length ≤ rest.length := by
  simp only [readOperand] at read
  split at read
  · cases read
  · split at read
    · cases read
    · cases read
      simp only [List.length_take, List.length_drop]
      omega

theorem operand_length_lt {offset depth : Nat} {bytes : Bytes} {chunks : List Chunk}
    (decoded : decodeFrom offset depth bytes = .ok chunks) {chunk : Chunk}
    (member : chunk ∈ chunks) : chunk.operand.length < bytes.length := by
  fun_induction decodeFrom offset depth bytes generalizing chunks with
  | case1 =>
      cases decoded
      simp at member
  | case2 offset depth op rest isReturn =>
      cases decoded
      simp only [List.mem_singleton] at member
      subst member
      cases rest <;> simp [operand]
  | case3 offset depth op rest notReturn hasOperand cause read => cases decoded
  | case4 offset depth op rest notReturn hasOperand taken data read ih =>
      cases tailDecoded : decodeFrom (offset + 1 + taken) depth (rest.drop taken) with
      | error cause =>
          rw [tailDecoded] at decoded
          cases decoded
      | ok tail =>
          rw [tailDecoded] at decoded
          cases decoded
          rcases List.mem_cons.mp member with rfl | inTail
          · have := length_le_of_readOperand read
            simp only [operand, Option.getD_some, List.length_cons]
            omega
          · have := ih tailDecoded inTail
            simp only [List.length_drop, List.length_cons] at this ⊢
            omega
  | case5 offset depth op rest notReturn noOperand ih =>
      cases tailDecoded : decodeFrom (offset + 1) (depthAfter op depth) rest with
      | error cause =>
          rw [tailDecoded] at decoded
          cases decoded
      | ok tail =>
          rw [tailDecoded] at decoded
          cases decoded
          rcases List.mem_cons.mp member with rfl | inTail
          · simp [operand, ofOpcode]
          · have := ih tailDecoded inTail
            simp only [List.length_cons]
            omega

end BitcoinSpend.Chunk
