import BitcoinSpend.Script.Basic
import BitcoinSpend.Text.Blank

/-!
# Assembly text

Words separated by blanks: mnemonics, the numbers `0` and `-1`, and hexadecimal
data, which is pushed in its shortest form. A script with a truncated push is
written up to there and closed by a mark.
-/

set_option autoImplicit false

namespace BitcoinSpend.Script

/-- The chunk that a word of assembly text stands for. A mnemonic of an opcode that needs data is
refused, since the data could not follow it as a word. -/
def chunkOfWord (word : String) : Except ScriptError Chunk :=
  if word = "0" then .ok (Chunk.ofOpcode Opcode.pushEmpty)
  else if word = "-1" then .ok (Chunk.ofOpcode Opcode.negativeOne)
  else
    match Opcode.ofMnemonic? word with
    | some op =>
        if Opcode.hasOperand op then .error (.invalidToken word) else .ok (Chunk.ofOpcode op)
    | none =>
        match Hex.decode word with
        | .ok data => .ok (Chunk.push data)
        | .error _ => .error (.invalidToken word)

/-- Reads assembly text. The first word that stands for nothing is reported. -/
def ofAssembly (text : String) : Except ScriptError Script :=
  ((Text.words text).mapM chunkOfWord).map ofChunks

/-- The number of bytes that belong to the first opcode, if all of them are there. -/
def operandLength? (op : Opcode) (rest : Bytes) : Option Nat :=
  let width := Chunk.lengthWidth op
  if rest.length < width then none
  else
    let length := if Opcode.hasOperand op then Chunk.announcedLength op rest else 0
    if width + length ≤ rest.length then some (width + length) else none

/-- The texts of the chunks before the first truncated one, each read on its own. -/
def leadingTexts : Bytes → List String
  | [] => []
  | op :: rest =>
      match operandLength? op rest with
      | none => []
      | some length =>
          match Chunk.decode (op :: rest.take length) with
          | .error _ => []
          | .ok chunks => chunks.map Chunk.assembly ++ leadingTexts (rest.drop length)
termination_by bytes => bytes.length
decreasing_by simp only [List.length_cons, List.length_drop]; omega

def toAssembly (script : Script) : String :=
  match script.chunks with
  | .ok chunks => Chunk.joinWords (chunks.map Chunk.assembly)
  | .error _ => Chunk.joinWords (leadingTexts script.bytes ++ ["[error]"])

end BitcoinSpend.Script
