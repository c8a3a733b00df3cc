import BitcoinSpend.Script.Basic
import BitcoinSpend.Spend.Fault

/-!
# Transaction contexts

What a running script may ask about the transaction that spends: whether a
signature is valid, and the fields that lock times are compared with. An answer
about a signature may depend on the questions asked before it.
-/

set_option autoImplicit false

namespace BitcoinSpend.Spend

/-- A question about a signature. -/
structure SignatureQuery where
  /-- The encoded signature with its hash type after it. -/
  signature : Bytes
  publicKey : Bytes
  /-- The script that the signature commits to. -/
  subScript : Script
  inputIndex : Nat
  hashType : UInt32
  deriving DecidableEq, Repr

/-- A transaction as seen by the script that spends one of its inputs. -/
structure TxContext where
  /-- The answer to a question after earlier ones, oldest first. A failure counts as an invalid
  signature. -/
  verifySignature : (earlier : List SignatureQuery) → SignatureQuery → Except Fault Bool
  lockTime : UInt32
  version : UInt32
  /-- The sequence number of an input. -/
  sequence : (inputIndex : Nat) → UInt32

/-- Whether every answer depends on the question alone. -/
def TxContext.IsMemoryless (context : TxContext) : Prop :=
  ∀ earlier earlier' query,
    context.verifySignature earlier query = context.verifySignature earlier' query

end BitcoinSpend.Spend
