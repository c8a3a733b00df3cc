/-!
# Remembered fee rates

The last rate that was fetched, and for how long it may be used. Times and the
length of use are in milliseconds.
-/

set_option autoImplicit false

namespace BitcoinSpend.Fee

/-- A rate and the time at which it was fetched. -/
structure FetchedRate where
  rate : UInt64
  time : Nat
  deriving DecidableEq, Repr

structure RateCache where
  last : Option FetchedRate
  /-- How long a rate stays fresh. -/
  validity : Nat
  deriving DecidableEq, Repr

namespace RateCache

/-- How long a rate stays fresh unless something else is asked for: five minutes. -/
def defaultValidity : Nat := 5 * 60 * 1000

def empty (validity : Nat) : RateCache :=
  ⟨none, validity⟩

def store (cache : RateCache) (rate : UInt64) (time : Nat) : RateCache :=
  { cache with last := some ⟨rate, time⟩ }

/-- The last rate, however old. -/
def lastRate? (cache : RateCache) : Option UInt64 :=
  cache.last.map FetchedRate.rate

/-- The last rate if it is fresh. A rate from the future has no age. -/
def freshRate? (cache : RateCache) (now : Nat) : Option UInt64 := do
  let fetched ← cache.last
  if now - fetched.time < cache.validity then some fetched.rate else none

end RateCache

end BitcoinSpend.Fee
