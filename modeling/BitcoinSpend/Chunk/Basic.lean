import BitcoinSpend.Opcode
import BitcoinSpend.Script.Error

/-!
# Script chunks

A chunk is an opcode with the bytes that belong to it. Pushes are built in their
shortest form, and `isMinimal` recognises that form; the two are stated
separately.
-/

set_option autoImplicit false

namespace BitcoinSpend

structure Chunk where
  op : Opcode
  /-- The pushed bytes, or what follows a return outside conditionals. -/
  data : Option Bytes
  deriving DecidableEq, Repr

namespace Chunk

def ofOpcode (op : Opcode) : Chunk :=
  ⟨op, none⟩

def operand (chunk : Chunk) : Bytes :=
  chunk.data.getD []

/-- The opcode before a string of `length` bytes in the shortest form, small numbers apart. -/
def pushOpcode (length : Nat) : Opcode :=
  if length ≤ 75 then UInt8.ofNat length
  else if length ≤ 0xff then Opcode.pushData1
  else if length ≤ 0xffff then Opcode.pushData2
  else Opcode.pushData4

/-- The opcode that alone pushes a string, for the empty string, the numbers one to sixteen and
minus one. -/
def bareOpcode? : Bytes → Option Opcode
  | [] => some Opcode.pushEmpty
  | [byte] =>
      if 1 ≤ byte ∧ byte ≤ 16 then some (Opcode.one + byte - 1)
      else if byte = 0x81 then some Opcode.negativeOne
      else none
  | _ => none

def push (data : Bytes) : Chunk :=
  match bareOpcode? data with
  | some op => ofOpcode op
  | none => ⟨pushOpcode data.length, some data⟩

/-- Whether the opcode is one of the pushes, the unassigned one among them included. -/
def isPush (chunk : Chunk) : Bool :=
  chunk.op ≤ Opcode.sixteen

def pushValue? (chunk : Chunk) : Option Bytes :=
  if chunk.op = Opcode.pushEmpty then some []
  else if chunk.op = Opcode.negativeOne then some [0x81]
  else if chunk.op = Opcode.reserved then none
  else
    match Opcode.smallValue? chunk.op with
    | some value => some [value]
    | none => if chunk.op ≤ Opcode.pushData4 then some chunk.operand else none

/-- Whether a push has no shorter form; chunks that are no pushes count as minimal. -/
def isMinimal (chunk : Chunk) : Bool :=
  if Opcode.pushData4 < chunk.op || chunk.op = Opcode.pushEmpty then true
  else
    match chunk.operand with
    | [] => false
    | [byte] => !((1 ≤ byte && byte ≤ 16) || byte = 0x81) && chunk.op = 1
    | data => chunk.op = pushOpcode data.length

/-- The bytes that a push's length takes between opcode and data. -/
def lengthWidth (op : Opcode) : Nat :=
  if op = Opcode.pushData1 then 1
  else if op = Opcode.pushData2 then 2
  else if op = Opcode.pushData4 then 4
  else 0

/-- The bytes of a chunk. A length that its field has no room for is cut off. -/
def encode (chunk : Chunk) : Bytes :=
  match chunk.data with
  | none => [chunk.op]
  | some data => chunk.op :: (Bytes.ofNatLE (lengthWidth chunk.op) data.length ++ data)

/-- The bytes before the data in the shortest push of `length` bytes that keeps to a length. -/
def pushHeader (length : Nat) : Except ScriptError Bytes :=
  let op := pushOpcode length
  if op = Opcode.pushData4 ∧ UInt32.size ≤ length then .error (.dataTooBig length)
  else .ok (op :: Bytes.ofNatLE (lengthWidth op) length)

end Chunk

end BitcoinSpend
