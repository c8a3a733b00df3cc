import BitcoinSpend.Transaction.Extended
import BitcoinSpend.Wire.Cursor

/-!
# Reading transactions

Either encoding is read; the marker tells them apart. An input of the extended
encoding states the output that it spends.
-/

set_option autoImplicit false

namespace BitcoinSpend

abbrev TransactionRead (α : Type) := Wire.Read TransactionError α

def readWireField {α : Type} (name : WireField) (read : Wire.Read EncodingError α) :
    TransactionRead α :=
  read.mapError fun cause => .wire (.field name cause)

def Output.read : TransactionRead Output := do
  let value ← readWireField .value Wire.readUInt64
  let script ← readWireField .lockingScript Wire.readVarBytes
  pure ⟨value, ⟨script⟩, false⟩

def Input.read : TransactionRead Input := do
  let txid ← readWireField .sourceTxid Wire.readHash32
  let index ← readWireField .outputIndex Wire.readUInt32
  let script ← readWireField .unlockingScript Wire.readVarBytes
  let sequence ← readWireField .sequence Wire.readUInt32
  pure { Input.ofOutpoint ⟨txid, index⟩ with unlocking := some ⟨script⟩, sequence := sequence }

def Input.readExtended : TransactionRead Input := do
  let input ← Input.read
  let value ← readWireField .sourceValue Wire.readUInt64
  let script ← readWireField .sourceScript Wire.readVarBytes
  pure (input.withSource ⟨value, ⟨script⟩⟩)

/-- Takes the marker of the extended encoding if it is next. -/
def readMarker : TransactionRead Bool := do
  let cursor ← get
  if cursor.peek? extendedMarker.length == some extendedMarker then
    let _ ← readWireField .marker (Wire.takeBytes extendedMarker.length)
    pure true
  else pure false

namespace Transaction

/-- Reads a transaction in either encoding and leaves what follows it. -/
def read : TransactionRead Transaction := do
  let version ← readWireField .version Wire.readUInt32
  let isExtended ← readMarker
  let inputCount ← readWireField .inputCount Wire.readVarInt
  let inputs ← (if isExtended then Input.readExtended else Input.read).replicate inputCount.toNat
  let outputCount ← readWireField .outputCount Wire.readVarInt
  let outputs ← Output.read.replicate outputCount.toNat
  let lockTime ← readWireField .lockTime Wire.readUInt32
  pure ⟨version, inputs, outputs, lockTime, none⟩

/-- Reads a transaction in either encoding that takes up a whole byte string. -/
def ofBytes (bytes : Bytes) : Except TransactionError Transaction :=
  match read (Wire.Cursor.start bytes) with
  | .error cause _ => .error cause
  | .ok tx cursor =>
      if cursor.isEmpty then .ok tx else .error (.wire (.trailing cursor.remaining))

/-- Reads a transaction that must be in the extended encoding. -/
def ofBytesExtended (bytes : Bytes) : Except TransactionError Transaction :=
  if (bytes.drop 4).take extendedMarker.length = extendedMarker then ofBytes bytes
  else .error (.wire .noMarker)

def ofHex (text : String) : Except TransactionError Transaction := do
  let bytes ← (Hex.decode text).mapError fun cause => .wire (.hex cause)
  ofBytes bytes

def ofHexExtended (text : String) : Except TransactionError Transaction := do
  let bytes ← (Hex.decode text).mapError fun cause => .wire (.hex cause)
  ofBytesExtended bytes

end Transaction

end BitcoinSpend
