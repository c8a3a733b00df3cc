import BitcoinSpend.Digest.Sha256

/-!
# Keyed digests

HMAC over SHA-256 for keys of at most one block.
-/

set_option autoImplicit false

namespace BitcoinSpend.Digest

/-- A key filled up to one block and combined with a byte. -/
def hmacPad (key : Bytes) (byte : UInt8) : Bytes :=
  (key ++ List.replicate (64 - key.length) 0).map (· ^^^ byte)

/-- The keyed SHA-256 digest of a message, for a key of at most 64 bytes. -/
def hmacSha256 (key message : Bytes) : Bytes :=
  sha256 (hmacPad key 0x5c ++ sha256 (hmacPad key 0x36 ++ message))

@[simp] theorem length_hmacSha256 (key message : Bytes) : (hmacSha256 key message).length = 32 := by
  simp [hmacSha256]

end BitcoinSpend.Digest
