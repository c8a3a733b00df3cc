import BitcoinSpend.Transaction.EstimatedSize
import BitcoinSpend.Amount

/-!
# Fee models

A model says what a transaction should pay once it is signed. It may have to ask
for a rate, so it answers in a monad of its own. A rate is a number of satoshis
for a thousand bytes; a part of a satoshi counts as one.
-/

set_option autoImplicit false

namespace BitcoinSpend

/-- A way to tell the fee that a transaction should pay. -/
structure FeeModel (m : Type → Type) where
  fee : Transaction → m (Except TransactionError UInt64)

namespace Fee

/-- The fee for a size at a rate. The product stops at the largest amount. -/
def forSize (size : Nat) (rate : UInt64) : UInt64 :=
  UInt64.ofNat (((Amount.saturate (size * rate.toNat)).toNat + 999) / 1000)

def atRate (rate : UInt64) (tx : Transaction) : Except TransactionError UInt64 := do
  let size ← tx.estimatedSize
  pure (forSize size rate)

def fixed {m : Type → Type} [Monad m] (rate : UInt64) : FeeModel m where
  fee tx := pure (atRate rate tx)

end Fee

end BitcoinSpend
