import BitcoinSpend.SignatureHash.ForkId
import BitcoinSpend.SignatureHash.Legacy

/-!
# The digest that is signed

The hash type chooses between the two digests of an input.
-/

set_option autoImplicit false

namespace BitcoinSpend.Transaction

/-- The digest of an input for a script code and a value. Only the replay-protected digest commits
to the value. -/
def digest (tx : Transaction) (index : Nat) (code : Bytes) (type : HashType) (value : UInt64) :
    Except TransactionError Hash32 :=
  if type.isForkId then do
    let message ← tx.forkIdMessage index code type value
    pure (Hash32.hash256 message)
  else tx.legacyDigest index code type

/-- The digest of an input for the output that it spends. -/
def inputDigest (tx : Transaction) (index : Nat) (type : HashType) :
    Except TransactionError Hash32 := do
  let input ← tx.inputAt index
  let spent ← input.sourceOutput index
  tx.digest index spent.script.bytes type spent.value

end BitcoinSpend.Transaction
