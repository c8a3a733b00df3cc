import BitcoinSpend.Bytes

/-!
# Padded blocks

The iterated digests read a message as blocks of sixteen 32-bit words. The
message is closed by a single set bit, zeros up to eight bytes short of a block
boundary, and its length in bits. The digests differ in the order of bytes
within words.
-/

set_option autoImplicit false

namespace BitcoinSpend.Digest

/-- The order of the bytes in a word. -/
inductive ByteOrder where
  | littleEndian
  | bigEndian
  deriving DecidableEq, Repr

namespace ByteOrder

def read : ByteOrder → Bytes → Nat
  | littleEndian, bytes => bytes.toNatLE
  | bigEndian, bytes => bytes.toNatBE

/-- The `width` low bytes of a value in this order. -/
def write : ByteOrder → (width value : Nat) → Bytes
  | littleEndian, width, value => Bytes.ofNatLE width value
  | bigEndian, width, value => Bytes.ofNatBE width value

@[simp] theorem length_write (order : ByteOrder) (width value : Nat) :
    (order.write width value).length = width := by
  cases order <;> simp [write]

end ByteOrder

/-- The closing of a message of `length` bytes. -/
def closing (order : ByteOrder) (length : Nat) : Bytes :=
  0x80 :: List.replicate ((119 - length % 64) % 64) 0 ++ order.write 8 (8 * length)

/-- The first `count` pieces of `size` elements. -/
def pieces {α : Type} (size : Nat) : (count : Nat) → List α → List (List α)
  | 0, _ => []
  | count + 1, items => items.take size :: pieces size count (items.drop size)

def blockWords (order : ByteOrder) (block : Bytes) : List UInt32 :=
  (pieces 4 16 block).map fun word => UInt32.ofNat (order.read word)

def blocks (order : ByteOrder) (message : Bytes) : List (List UInt32) :=
  let closed := message ++ closing order message.length
  (pieces 64 (closed.length / 64) closed).map (blockWords order)

def wordBytes (order : ByteOrder) (words : List UInt32) : Bytes :=
  words.flatMap fun word => order.write 4 word.toNat

theorem length_wordBytes (order : ByteOrder) (words : List UInt32) :
    (wordBytes order words).length = 4 * words.length := by
  induction words with
  | nil => rfl
  | cons word words ih =>
      simp only [wordBytes, List.flatMap_cons, List.length_append, ByteOrder.length_write,
        List.length_cons] at ih ⊢
      omega

/-- A word turned left by `amount` bits, `0 < amount < 32`. -/
def rotateLeft (word : UInt32) (amount : UInt32) : UInt32 :=
  (word <<< amount) ||| (word >>> (32 - amount))

/-- A word turned right by `amount` bits, `0 < amount < 32`. -/
def rotateRight (word : UInt32) (amount : UInt32) : UInt32 :=
  (word >>> amount) ||| (word <<< (32 - amount))

end BitcoinSpend.Digest
