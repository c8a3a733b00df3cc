import BitcoinSpend.Amount
import BitcoinSpend.Transaction.Source

/-!
# Totals and fee

The values that a transaction takes and makes. A total of outputs beyond the
largest amount stops there; a total of inputs beyond it is refused.
-/

set_option autoImplicit false

namespace BitcoinSpend

def totalValue (outputs : List Output) : UInt64 :=
  outputs.foldl (fun total output => Amount.addSaturating total output.value) 0

namespace Transaction

def totalOutput (tx : Transaction) : UInt64 :=
  totalValue tx.outputs

/-- Adds the value of the output that an input spends. -/
def addSpent (total : UInt64) (input : Input × Nat) : Except TransactionError UInt64 := do
  let spent ← input.1.sourceOutput input.2
  match Amount.add? total spent.value with
  | some total => pure total
  | none => throw (.invalid .inputTotal)

/-- The total value of the outputs that the inputs spend. -/
def totalInput (tx : Transaction) : Except TransactionError UInt64 :=
  tx.inputs.zipIdx.foldlM addSpent 0

/-- What the inputs bring in beyond the outputs. -/
def paidFee (tx : Transaction) : Except TransactionError UInt64 := do
  let inputs ← tx.totalInput
  let outputs := tx.totalOutput
  match Amount.sub? inputs outputs with
  | some fee => pure fee
  | none => throw (.outputsExceedInputs inputs outputs)

end Transaction

end BitcoinSpend
