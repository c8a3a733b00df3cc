import BitcoinSpend.Transaction.Encode
import BitcoinSpend.Transaction.Error

/-!
# The size of a transaction once it is signed

Inputs with an unlocking script count as they are; those that wait for their
unlocker count with its estimate.
-/

set_option autoImplicit false

namespace BitcoinSpend

def Output.size (output : Output) : Nat :=
  8 + Wire.varIntLength (UInt64.ofNat output.script.size) + output.script.size

/-- The size of an input with an unlocking script of a given length. -/
def Input.sizeWith (scriptLength : Nat) : Nat :=
  32 + 4 + Wire.varIntLength (UInt64.ofNat scriptLength) + scriptLength + 4

/-- The length of the unlocking script once the input is signed. An empty script counts only where
no unlocker is set. -/
def Input.estimatedLength (input : Input) (index : Nat) : Except TransactionError Nat :=
  match input.unlocking, input.unlocker with
  | none, none => .error (.notUnlocked index)
  | none, some unlocker => .ok unlocker.estimatedLength
  | some script, none => .ok script.size
  | some script, some unlocker =>
      .ok (if script.isEmpty then unlocker.estimatedLength else script.size)

/-- The size of a transaction once every input is signed. -/
def Transaction.estimatedSize (tx : Transaction) : Except TransactionError Nat := do
  let lengths ← tx.inputs.zipIdx.mapM fun (input, index) => input.estimatedLength index
  let inputsSize := lengths.foldl (fun size length => size + Input.sizeWith length) 0
  let outputsSize := tx.outputs.foldl (fun size output => size + output.size) 0
  pure (4 + Wire.varIntLength (UInt64.ofNat tx.inputs.length) + inputsSize +
    Wire.varIntLength (UInt64.ofNat tx.outputs.length) + outputsSize + 4)

end BitcoinSpend
