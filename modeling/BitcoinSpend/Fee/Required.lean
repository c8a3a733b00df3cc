import BitcoinSpend.Fee.Model
import BitcoinSpend.Transaction.Verify

/-!
# Verification with a required fee

The fee of the transaction itself is looked at before its ancestry.
-/

set_option autoImplicit false

namespace BitcoinSpend.Transaction

/-- Requires a transaction to pay at least the fee of a model. -/
def requireFee {m : Type → Type} [Monad m] (tx : Transaction) (model : FeeModel m) :
    ExceptT TransactionError m Unit := do
  let paid ← ExceptT.mk (pure tx.paidFee)
  let required ← ExceptT.mk (model.fee tx)
  if paid < required then throw (.insufficientFee paid required)

/-- Verifies a transaction that must pay at least the fee of a model, and its ancestry. -/
def verifyWithFee {m : Type → Type} [Monad m] (tx : Transaction) (tracker : Merkle.Tracker m)
    (model : FeeModel m) (options : VerifyOptions) : ExceptT TransactionError m Unit := do
  tx.requireFee model
  tx.verify tracker options

end BitcoinSpend.Transaction
