import BitcoinSpend.Transaction.Source

/-!
# The extended encoding of transactions

A marker follows the version, and each input is followed by the value and the
script of the output that it spends.
-/

set_option autoImplicit false

namespace BitcoinSpend

/-- The bytes after the version that mark the extended encoding. -/
def extendedMarker : Bytes :=
  [0x00, 0x00, 0x00, 0x00, 0x00, 0xef]

/-- The encoding of a spent output after its input. -/
def SpentOutput.encode (spent : SpentOutput) : Bytes :=
  Wire.encodeFields [.uint64 spent.value, .varBytes spent.script.bytes]

def Input.encodeExtended (input : Input) (index : Nat) : Except TransactionError Bytes := do
  let spent ← input.sourceOutput index
  pure (input.encode ++ spent.encode)

namespace Transaction

/-- The extended encoding, unless the output that an input spends is not known. -/
def encodeExtended (tx : Transaction) : Except TransactionError Bytes := do
  let inputs ← tx.inputs.zipIdx.mapM fun (input, index) => input.encodeExtended index
  pure (Bytes.ofNatLE 4 tx.version.toNat ++ extendedMarker ++ encodeCounted id inputs ++
    tx.encodeTail)

def toHexExtended (tx : Transaction) : Except TransactionError String := do
  let bytes ← tx.encodeExtended
  pure (Hex.encode bytes)

end Transaction

end BitcoinSpend
