import BitcoinSpend.Fee.Model
import BitcoinSpend.Transaction.Totals

/-!
# Paying the fee

What the inputs bring in beyond the fixed outputs and the fee is shared out to
the change outputs: each gets the same, and the first also the remainder. Where
that leaves a change output without a satoshi, all of them are removed.
-/

set_option autoImplicit false

namespace BitcoinSpend

/-- A transaction with its change settled. -/
inductive Settled where
  /-- The change outputs have their values. -/
  | kept (tx : Transaction)
  /-- The change outputs are removed. -/
  | dropped (tx : Transaction)

/-- Sets each change output to a share, the first of them with an extra. -/
def shareChange (share : UInt64) : (extra : UInt64) → List Output → List Output
  | _, [] => []
  | extra, output :: rest =>
      if output.change then { output with value := share + extra } :: shareChange share 0 rest
      else output :: shareChange share extra rest

namespace Transaction

def fixedOutputs (tx : Transaction) : List Output :=
  tx.outputs.filter (!·.change)

def changeCount (tx : Transaction) : UInt64 :=
  UInt64.ofNat (tx.outputs.filter Output.change).length

def settle (tx : Transaction) (fee : UInt64) : Except TransactionError Settled := do
  let inputs ← tx.totalInput
  let available := Amount.subSaturating inputs (totalValue tx.fixedOutputs)
  match Amount.sub? available fee with
  | none => throw (.insufficientFee available fee)
  | some change =>
      let count := tx.changeCount
      if count = 0 then pure (.kept tx)
      else if change < count then pure (.dropped { tx with outputs := tx.fixedOutputs })
      else
        pure (.kept { tx with outputs := shareChange (change / count) (change % count) tx.outputs })

/-- Pays the fee of a model: the fee, and the transaction as it is left. After change outputs are
removed the fee is the one for what is left. -/
def payFee {m : Type → Type} [Monad m] (tx : Transaction) (model : FeeModel m) :
    m (Except TransactionError UInt64 × Transaction) := do
  match ← model.fee tx with
  | .error cause => pure (.error cause, tx)
  | .ok fee =>
      match tx.settle fee with
      | .error cause => pure (.error cause, tx)
      | .ok (.kept next) => pure (.ok fee, next)
      | .ok (.dropped next) => do
          let fee ← model.fee next
          pure (fee, next)

end Transaction

end BitcoinSpend
