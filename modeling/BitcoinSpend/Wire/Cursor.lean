import BitcoinSpend.EncodingError
import BitcoinSpend.Hash32

/-!
# Reading the wire format

A cursor counts the bytes taken and holds those left. A reader that fails keeps
the cursor where it stopped: a field of known width is taken whole or not at
all, a field of several parts may leave its first parts taken.
-/

set_option autoImplicit false

namespace BitcoinSpend.Wire

/-- A place in a byte string. -/
structure Cursor where
  /-- The bytes taken so far. -/
  position : Nat
  /-- The bytes left. -/
  rest : Bytes
  deriving DecidableEq, Repr

namespace Cursor

def start (bytes : Bytes) : Cursor :=
  ⟨0, bytes⟩

def remaining (cursor : Cursor) : Nat :=
  cursor.rest.length

def isEmpty (cursor : Cursor) : Bool :=
  cursor.rest.isEmpty

def peek? (cursor : Cursor) (count : Nat) : Option Bytes :=
  if count ≤ cursor.remaining then some (cursor.rest.take count) else none

end Cursor

/-- A reader: a value or a failure, and in both cases the cursor it leaves. -/
abbrev Read (ε α : Type) := EStateM ε Cursor α

namespace Read

/-- Words a failure in the terms of the field being read. -/
def mapError {ε δ α : Type} (wrap : ε → δ) (read : Read ε α) : Read δ α := fun cursor =>
  match read cursor with
  | .ok value next => .ok value next
  | .error cause next => .error (wrap cause) next

def replicate {ε α : Type} (read : Read ε α) : (count : Nat) → Read ε (List α)
  | 0 => pure []
  | count + 1 => do
      let value ← read
      let values ← replicate read count
      pure (value :: values)

end Read

/-- Takes `count` bytes, or none if fewer are left. -/
def takeBytes (count : Nat) : Read EncodingError Bytes := fun cursor =>
  if count ≤ cursor.remaining then
    .ok (cursor.rest.take count) ⟨cursor.position + count, cursor.rest.drop count⟩
  else .error (.endOfData count cursor.remaining) cursor

def readNat (width : Nat) : Read EncodingError Nat := do
  let bytes ← takeBytes width
  pure bytes.toNatLE

def readUInt8 : Read EncodingError UInt8 := do
  let value ← readNat 1
  pure (UInt8.ofNat value)

def readUInt16 : Read EncodingError UInt16 := do
  let value ← readNat 2
  pure (UInt16.ofNat value)

def readUInt32 : Read EncodingError UInt32 := do
  let value ← readNat 4
  pure (UInt32.ofNat value)

def readUInt64 : Read EncodingError UInt64 := do
  let value ← readNat 8
  pure (UInt64.ofNat value)

/-- A variable-length number, in its shortest form or a longer one. -/
def readVarInt : Read EncodingError UInt64 := do
  let marker ← readUInt8
  if marker = 0xff then readUInt64
  else if marker = 0xfe then
    let value ← readUInt32
    pure value.toUInt64
  else if marker = 0xfd then
    let value ← readUInt16
    pure value.toUInt64
  else pure marker.toUInt64

def readVarBytes : Read EncodingError Bytes := do
  let length ← readVarInt
  takeBytes length.toNat

def readHash32 : Read EncodingError Hash32 := fun cursor =>
  match takeBytes 32 cursor with
  | .error cause next => .error cause next
  | .ok bytes next =>
      match Hash32.ofBytes bytes with
      | .ok hash => .ok hash next
      | .error cause => .error cause next

end BitcoinSpend.Wire
