import BitcoinSpend.Merkle.Error

/-!
# Merkle nodes

A node is the double SHA-256 digest of its two children, left first, each in the
order in which its digest was produced.
-/

set_option autoImplicit false

namespace BitcoinSpend.Merkle

def parent (left right : Hash32) : Hash32 :=
  Hash32.hash256 (left.bytes ++ right.bytes)

/-- The parent of two nodes, all three as displayed texts. -/
def parentOfDisplay (left right : String) : Except Error String := do
  let left ← (Hash32.ofDisplay left).mapError .encoding
  let right ← (Hash32.ofDisplay right).mapError .encoding
  pure (parent left right).display

end BitcoinSpend.Merkle
