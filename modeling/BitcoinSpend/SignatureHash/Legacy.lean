import BitcoinSpend.Amount
import BitcoinSpend.SignatureHash.HashType
import BitcoinSpend.Transaction.Source

/-!
# The older digest

The message is a transaction with changes: other inputs are left without scripts,
the signed input carries the script code without separators, and the hash type
leaves out inputs, outputs and sequence numbers. A single output that does not
exist has the number one for its digest.
-/

set_option autoImplicit false

namespace BitcoinSpend

/-- The script code without separators. Bytes that do not split into chunks stay as they are. -/
def withoutSeparators (code : Bytes) : Bytes :=
  match Script.chunks ⟨code⟩ with
  | .error _ => code
  | .ok chunks =>
      if chunks.any (fun chunk => chunk.op == Opcode.codeSeparator) then
        (Script.ofChunks (chunks.filter fun chunk => chunk.op != Opcode.codeSeparator)).bytes
      else code

/-- The digest that stands for a single output that does not exist: the number one,
little-endian. -/
def missingOutputDigest : Hash32 :=
  ⟨1 :: List.replicate 31 0, by simp⟩

/-- The output that stands for those before a single one. -/
def blankOutput : Output :=
  ⟨Amount.largest, Script.empty, false⟩

namespace HashType

/-- How the message encodes an input that is not the signed one. -/
def encodeOther (type : HashType) (input : Input) : Bytes :=
  input.outpoint.encodeInput [] (if type.cover = .all then input.sequence else 0)

def encodeInputs (type : HashType) (tx : Transaction) (index : Nat) (signed : Input)
    (code : Bytes) : Bytes :=
  let encodeSigned := signed.outpoint.encodeInput (withoutSeparators code) signed.sequence
  if type.isAnyoneCanPay then Wire.varInt 1 ++ encodeSigned
  else
    encodeCounted
      (fun (input, place) => if place = index then encodeSigned else type.encodeOther input)
      tx.inputs.zipIdx

def encodeOutputs (type : HashType) (tx : Transaction) (index : Nat) (single : Option Output) :
    Bytes :=
  match type.cover with
  | .all => encodeCounted Output.encode tx.outputs
  | .none => Wire.varInt 0
  | .single =>
      Wire.varInt (UInt64.ofNat (index + 1)) ++
        (List.replicate index blankOutput.encode).flatten ++
        match single with
        | some output => output.encode
        | none => []

end HashType

namespace Transaction

def legacyMessage (tx : Transaction) (index : Nat) (signed : Input) (code : Bytes)
    (type : HashType) : Bytes :=
  Bytes.ofNatLE 4 tx.version.toNat ++ type.encodeInputs tx index signed code ++
    type.encodeOutputs tx index tx.outputs[index]? ++ Bytes.ofNatLE 4 tx.lockTime.toNat ++
    Bytes.ofNatLE 4 type.bits.toNat

def legacyDigest (tx : Transaction) (index : Nat) (code : Bytes) (type : HashType) :
    Except TransactionError Hash32 := do
  let signed ← tx.inputAt index
  if type.cover = .single ∧ tx.outputs.length ≤ index then pure missingOutputDigest
  else pure (Hash32.hash256 (tx.legacyMessage index signed code type))

end Transaction

end BitcoinSpend
