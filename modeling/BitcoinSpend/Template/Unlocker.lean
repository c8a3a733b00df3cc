import BitcoinSpend.PrivateKey
import BitcoinSpend.SignatureHash.HashType

/-!
# Unlockers

An unlocker makes the unlocking script of an input when the transaction is
signed. Each kind satisfies the locking scripts of one template.
-/

set_option autoImplicit false

namespace BitcoinSpend

/-- What makes the unlocking script of an input. -/
inductive Unlocker where
  /-- Signs, and shows the key that the locking script names by its hash. -/
  | payToKeyHash (key : PrivateKey) (hashType : HashType)
  /-- Signs. -/
  | pushDrop (key : PrivateKey) (hashType : HashType)
  /-- Signs with the nonce that solves the puzzle, and shows the key. -/
  | rPuzzle (nonce : Bytes) (key : PrivateKey) (hashType : HashType)

/-- An upper estimate of the length of the script that an unlocker makes: a push of at most 73
signature bytes, and where the key is shown a push of 33 bytes. -/
def Unlocker.estimatedLength : Unlocker → Nat
  | payToKeyHash _ _ => 108
  | pushDrop _ _ => 74
  | rPuzzle _ _ _ => 108

end BitcoinSpend
