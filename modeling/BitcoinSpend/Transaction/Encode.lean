import BitcoinSpend.Transaction.Basic
import BitcoinSpend.Wire.Field

/-!
# The standard encoding of transactions

Version, counted inputs, counted outputs and lock time. An input that is not
signed is encoded with an empty script. The identifier of a transaction is the
digest of this encoding.
-/

set_option autoImplicit false

namespace BitcoinSpend

def Outpoint.encode (outpoint : Outpoint) : Bytes :=
  Wire.encodeFields [.bytes outpoint.txid.bytes, .uint32 outpoint.index]

def Output.encode (output : Output) : Bytes :=
  Wire.encodeFields [.uint64 output.value, .varBytes output.script.bytes]

/-- The encoding of an input with a given unlocking script and sequence number. -/
def Outpoint.encodeInput (outpoint : Outpoint) (unlocking : Bytes) (sequence : UInt32) : Bytes :=
  outpoint.encode ++ Wire.encodeFields [.varBytes unlocking, .uint32 sequence]

def Input.encode (input : Input) : Bytes :=
  input.outpoint.encodeInput input.unlockingBytes input.sequence

/-- The encodings of the members of a list, after their number. -/
def encodeCounted {α : Type} (encode : α → Bytes) (items : List α) : Bytes :=
  Wire.varInt (UInt64.ofNat items.length) ++ items.flatMap encode

namespace Transaction

def encodeTail (tx : Transaction) : Bytes :=
  encodeCounted Output.encode tx.outputs ++ Bytes.ofNatLE 4 tx.lockTime.toNat

def encode (tx : Transaction) : Bytes :=
  Bytes.ofNatLE 4 tx.version.toNat ++ encodeCounted Input.encode tx.inputs ++ tx.encodeTail

def toHex (tx : Transaction) : String :=
  Hex.encode tx.encode

def txid (tx : Transaction) : Hash32 :=
  Hash32.hash256 tx.encode

def size (tx : Transaction) : Nat :=
  tx.encode.length

end Transaction

end BitcoinSpend
