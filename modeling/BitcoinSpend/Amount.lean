/-!
# Amounts

Sums of 64-bit amounts that stop at the largest amount, or are refused beyond it.
-/

set_option autoImplicit false

namespace BitcoinSpend.Amount

def largest : UInt64 := 0xffffffffffffffff

def saturate (value : Nat) : UInt64 :=
  if value < UInt64.size then UInt64.ofNat value else largest

/-- The sum, or the largest amount where the sum is larger. -/
def addSaturating (left right : UInt64) : UInt64 :=
  saturate (left.toNat + right.toNat)

def add? (left right : UInt64) : Option UInt64 :=
  if left.toNat + right.toNat < UInt64.size then some (left + right) else none

def subSaturating (left right : UInt64) : UInt64 :=
  if right ≤ left then left - right else 0

def sub? (left right : UInt64) : Option UInt64 :=
  if right ≤ left then some (left - right) else none

end BitcoinSpend.Amount
