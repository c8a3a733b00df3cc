import BitcoinSpend.Digest.Ripemd160
import BitcoinSpend.Digest.Sha1
import BitcoinSpend.Digest.Sha256

/-!
# The digests of scripts

The three plain digests and the two compositions: twice SHA-256, which names
transactions and Merkle nodes, and RIPEMD-160 of SHA-256, which names keys.
-/

set_option autoImplicit false

namespace BitcoinSpend.Digest

/-- SHA-256 of the SHA-256 digest. -/
def hash256 (message : Bytes) : Bytes :=
  sha256 (sha256 message)

/-- RIPEMD-160 of the SHA-256 digest. -/
def hash160 (message : Bytes) : Bytes :=
  ripemd160 (sha256 message)

@[simp] theorem length_hash256 (message : Bytes) : (hash256 message).length = 32 := by
  simp [hash256]

@[simp] theorem length_hash160 (message : Bytes) : (hash160 message).length = 20 := by
  simp [hash160]

/-- A digest that a script can ask for. -/
inductive Algorithm where
  | ripemd160
  | sha1
  | sha256
  | hash160
  | hash256
  deriving DecidableEq, Repr

def Algorithm.digest : Algorithm → Bytes → Bytes
  | ripemd160 => Digest.ripemd160
  | sha1 => Digest.sha1
  | sha256 => Digest.sha256
  | hash160 => Digest.hash160
  | hash256 => Digest.hash256

end BitcoinSpend.Digest
