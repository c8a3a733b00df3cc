import BitcoinSpend.Wire.Cursor
import BitcoinSpend.Wire.VarInt

/-!
# Fields of the wire format

The typed fields that records are made of. A field writes itself; its shape
reads it back.
-/

set_option autoImplicit false

namespace BitcoinSpend.Wire

def varBytes (bytes : Bytes) : Bytes :=
  varInt (UInt64.ofNat bytes.length) ++ bytes

/-- One value to write. -/
inductive Field where
  | uint8 (value : UInt8)
  | uint16 (value : UInt16)
  | uint32 (value : UInt32)
  | uint64 (value : UInt64)
  | varInt (value : UInt64)
  | bytes (value : Bytes)
  | varBytes (value : Bytes)
  deriving DecidableEq, Repr

/-- What a reader has to know of a field before it reads it. -/
inductive Shape where
  | uint8
  | uint16
  | uint32
  | uint64
  | varInt
  | bytes (length : Nat)
  | varBytes
  deriving DecidableEq, Repr

namespace Field

def encode : Field → Bytes
  | uint8 value => [value]
  | uint16 value => Bytes.ofNatLE 2 value.toNat
  | uint32 value => Bytes.ofNatLE 4 value.toNat
  | uint64 value => Bytes.ofNatLE 8 value.toNat
  | varInt value => Wire.varInt value
  | bytes value => value
  | varBytes value => Wire.varBytes value

def shape : Field → Shape
  | uint8 _ => .uint8
  | uint16 _ => .uint16
  | uint32 _ => .uint32
  | uint64 _ => .uint64
  | varInt _ => .varInt
  | bytes value => .bytes value.length
  | varBytes _ => .varBytes

end Field

def Shape.read : Shape → Read EncodingError Field
  | uint8 => do
      let value ← readUInt8
      pure (.uint8 value)
  | uint16 => do
      let value ← readUInt16
      pure (.uint16 value)
  | uint32 => do
      let value ← readUInt32
      pure (.uint32 value)
  | uint64 => do
      let value ← readUInt64
      pure (.uint64 value)
  | varInt => do
      let value ← readVarInt
      pure (.varInt value)
  | bytes length => do
      let value ← takeBytes length
      pure (.bytes value)
  | varBytes => do
      let value ← readVarBytes
      pure (.varBytes value)

def encodeFields (fields : List Field) : Bytes :=
  fields.flatMap Field.encode

def readFields : List Shape → Read EncodingError (List Field)
  | [] => pure []
  | shape :: shapes => do
      let field ← shape.read
      let fields ← readFields shapes
      pure (field :: fields)

end BitcoinSpend.Wire
