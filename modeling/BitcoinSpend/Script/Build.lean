import BitcoinSpend.Script.Basic

/-!
# Building scripts

Appending pushes, opcodes, chunks and whole scripts. An append that is refused
yields no script.
-/

set_option autoImplicit false

namespace BitcoinSpend.Script

def appendChunk (script : Script) (chunk : Chunk) : Script :=
  ⟨script.bytes ++ chunk.encode⟩

def appendPush (script : Script) (data : Bytes) : Except ScriptError Script :=
  if UInt32.size ≤ data.length then .error (.dataTooBig data.length)
  else .ok (script.appendChunk (Chunk.push data))

/-- Appends the shortest push of a string given in hexadecimal. -/
def appendPushHex (script : Script) (text : String) : Except ScriptError Script :=
  match Hex.decode text with
  | .ok data => script.appendPush data
  | .error cause => .error (.hex cause)

def appendNumber (script : Script) (value : Int) : Script :=
  script.appendChunk (Chunk.push (ScriptNumber.encode value))

/-- Appends opcodes as they are. One that needs data is refused. -/
def appendOpcodes (script : Script) (opcodes : List Opcode) : Except ScriptError Script :=
  match opcodes.find? Opcode.hasOperand with
  | some op => .error (.pushWithoutData op)
  | none => .ok ⟨script.bytes ++ opcodes⟩

def appendScript (script other : Script) : Script :=
  ⟨script.bytes ++ other.bytes⟩

end BitcoinSpend.Script
