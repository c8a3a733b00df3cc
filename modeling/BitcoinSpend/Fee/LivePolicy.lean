import BitcoinSpend.Fee.Model
import BitcoinSpend.Fee.RateCache

/-!
# Live fee rates

A policy charges the rate that a source reports, remembers it while it is fresh,
and when the source fails goes back to the last rate, or to a fixed one where
none was ever fetched.
-/

set_option autoImplicit false

namespace BitcoinSpend.Fee

/-- Where a policy takes the time and rates from. -/
structure RateSource (m : Type → Type) where
  now : m Nat
  /-- The current rate, unless it cannot be had. -/
  fetch : m (Option UInt64)

/-- A source with the rate to fall back to. -/
structure LivePolicy (m : Type → Type) where
  source : RateSource m
  fallback : UInt64

namespace LivePolicy

def fallbackRate {m : Type → Type} (policy : LivePolicy m) (cache : RateCache) : UInt64 :=
  cache.lastRate?.getD policy.fallback

/-- The rate to charge now. A rate that is fresh is not fetched again. -/
def currentRate {m : Type → Type} [Monad m] (policy : LivePolicy m) :
    StateT RateCache m UInt64 := do
  let now ← policy.source.now
  let cache ← get
  match cache.freshRate? now with
  | some rate => pure rate
  | none =>
      match ← policy.source.fetch with
      | some rate =>
          let time ← policy.source.now
          set (cache.store rate time)
          pure rate
      | none => pure (policy.fallbackRate cache)

/-- The fee for a transaction at the current rate. The rate is not asked for where the size is not
known. -/
def fee {m : Type → Type} [Monad m] (policy : LivePolicy m) (tx : Transaction) :
    StateT RateCache m (Except TransactionError UInt64) :=
  match tx.estimatedSize with
  | .error cause => pure (.error cause)
  | .ok size => do
      let rate ← policy.currentRate
      pure (.ok (forSize size rate))

def model {m : Type → Type} [Monad m] (policy : LivePolicy m) : FeeModel (StateT RateCache m) where
  fee := policy.fee

end LivePolicy

end BitcoinSpend.Fee
