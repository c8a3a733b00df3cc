import BitcoinSpend.Chunk.Decode

/-!
# Chunks as text

Pushes are written as hexadecimal data and other chunks by mnemonic. The data of
a return is written as the chunks it splits into, and as plain data when it does
not split.
-/

set_option autoImplicit false

namespace BitcoinSpend.Chunk

/-- The words of several chunks, separated by single spaces. -/
def joinWords (words : List String) : String :=
  String.intercalate " " words

def assembly (chunk : Chunk) : String :=
  if chunk.op = Opcode.pushEmpty then "0"
  else if chunk.op = Opcode.negativeOne then "-1"
  else
    match _dataOf : chunk.data with
    | none => Opcode.mnemonic chunk.op
    | some data =>
        if chunk.op = Opcode.returnEarly then
          "OP_RETURN " ++
            match _decoded : decodeFrom 0 0 data with
            | .ok chunks => joinWords (chunks.attach.map fun ⟨inner, _⟩ => assembly inner)
            | .error _ => Hex.encode data
        else if chunk.op ≤ Opcode.pushData4 then
          if data.isEmpty then "0" else Hex.encode data
        else Opcode.mnemonic chunk.op
termination_by chunk.operand.length
decreasing_by
  have shorter := operand_length_lt _decoded (by assumption)
  simpa [operand, _dataOf] using shorter

end BitcoinSpend.Chunk
