import BitcoinSpend.Merkle.Path.Root

/-!
# Checking paths against the chain

A tracker knows the Merkle roots of blocks. Asking it may have effects, so it
answers in a monad of its own.
-/

set_option autoImplicit false

namespace BitcoinSpend.Merkle

structure Tracker (m : Type → Type) where
  /-- Whether a hash is the root of the block at a height. -/
  isRoot : (root : Hash32) → (height : UInt32) → m (Except Error Bool)

/-- Whether a transaction belongs to the block of a path. A transaction that does not climb to a
root does not, and the tracker is not asked about it. -/
def Path.verify {m : Type → Type} [Monad m] (path : Path) (txid : Hash32) (tracker : Tracker m) :
    m (Except Error Bool) :=
  match path.root (some txid) with
  | .error _ => pure (.ok false)
  | .ok root => tracker.isRoot root path.blockHeight

end BitcoinSpend.Merkle
