import BitcoinSpend.PublicKey

/-!
# Key hashes

The 20-byte names of public keys that addresses and locking scripts carry.
-/

set_option autoImplicit false

namespace BitcoinSpend

/-- A string of 20 bytes that names a public key. -/
structure KeyHash where
  bytes : Bytes
  length_bytes : bytes.length = 20
  deriving DecidableEq, Repr

namespace KeyHash

/-- A byte string that has the length of a key hash. -/
def ofBytes? (bytes : Bytes) : Option KeyHash :=
  if h : bytes.length = 20 then some ⟨bytes, h⟩ else none

def ofKey (key : PublicKey) : KeyHash :=
  ⟨key.hash, by simp⟩

end KeyHash

end BitcoinSpend
