import BitcoinSpend.Digest.Composite
import BitcoinSpend.EncodingError

/-!
# 32-byte hashes

Transaction identifiers and Merkle nodes. Bytes are held as the digest produced
them; the displayed form reverses them.
-/

set_option autoImplicit false

namespace BitcoinSpend

/-- A digest of 32 bytes, in the order in which it was produced. -/
structure Hash32 where
  bytes : Bytes
  length_bytes : bytes.length = 32
  deriving DecidableEq, Repr

namespace Hash32

/-- Two hashes are equal when their bytes are. -/
@[ext] theorem ext {left right : Hash32} (h : left.bytes = right.bytes) : left = right := by
  cases left
  cases right
  simp_all

def zero : Hash32 :=
  ⟨List.replicate 32 0, by simp⟩

instance : Inhabited Hash32 := ⟨zero⟩

def ofBytes? (bytes : Bytes) : Option Hash32 :=
  if h : bytes.length = 32 then some ⟨bytes, h⟩ else none

/-- A byte string as a hash, refused when it has another length. -/
def ofBytes (bytes : Bytes) : Except EncodingError Hash32 :=
  match ofBytes? bytes with
  | some hash => .ok hash
  | none => .error (.hashLength bytes.length)

def hash256 (message : Bytes) : Hash32 :=
  ⟨Digest.hash256 message, by simp⟩

def displayedBytes (hash : Hash32) : Bytes :=
  hash.bytes.reverse

def display (hash : Hash32) : String :=
  Hex.encode hash.displayedBytes

/-- Reads the displayed text. The length is counted in UTF-8 bytes and checked first. -/
def ofDisplay (text : String) : Except EncodingError Hash32 :=
  let length := Hex.utf8Length text.toList
  if length ≠ 64 then .error (.hashTextLength length)
  else
    match Hex.decode text with
    | .error cause => .error (.hex cause)
    | .ok bytes => ofBytes bytes.reverse

/-- Hashes are ordered by their bytes as held, first byte first. -/
instance : Ord Hash32 where
  compare left right := compare left.bytes right.bytes

@[simp] theorem ofBytes?_bytes (hash : Hash32) : ofBytes? hash.bytes = some hash := by
  simp [ofBytes?, hash.length_bytes]

@[simp] theorem ofBytes_bytes (hash : Hash32) : ofBytes hash.bytes = .ok hash := by
  simp [ofBytes]

end Hash32

end BitcoinSpend
