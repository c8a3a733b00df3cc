import BitcoinSpend.Merkle.Path.Basic
import BitcoinSpend.Wire.Cursor
import BitcoinSpend.Wire.VarInt

/-!
# The binary form of Merkle paths

The block height, the number of levels in one byte, and for each level the number
of its elements and the elements. An element is its offset, a byte of marks, and
its hash unless it is a duplicate. Reading sorts each level by offset and drops
marks that are not known.
-/

set_option autoImplicit false

namespace BitcoinSpend.Merkle

/-- The mark of an element that only stands for its left sibling. -/
def duplicateMark : UInt8 := 0x01

/-- The mark of a transaction that the path proves. -/
def txidMark : UInt8 := 0x02

/-- The length of the shortest path: one level with one element. -/
def shortestLength : Nat := 37

namespace Element

/-- The byte of marks. -/
def marks (element : Element) : UInt8 :=
  (if element.isDuplicate then duplicateMark else 0) ||| (if element.isMarked then txidMark else 0)

def encode (element : Element) : Bytes :=
  Wire.varInt element.offset ++ [element.marks] ++
    match element.isDuplicate, element.hash with
    | false, some hash => hash.bytes
    | _, _ => []

end Element

def Level.encode (level : Level) : Bytes :=
  Wire.varInt (UInt64.ofNat level.length) ++ level.flatMap Element.encode

/-- The elements of a level in the order of their offsets. Elements of one offset keep their
order. -/
def Level.sort (level : Level) : Level :=
  level.mergeSort fun left right => left.offset ≤ right.offset

abbrev Read (α : Type) := Wire.Read Error α

def readField {α : Type} (field : PathField) (read : Wire.Read EncodingError α) : Read α :=
  read.mapError fun cause => .malformed (.field field cause)

def readElement : Read Element := do
  let offset ← readField .offset Wire.readVarInt
  let marks ← readField .flags Wire.readUInt8
  let txid := if marks &&& txidMark != 0 then some true else none
  if marks &&& duplicateMark != 0 then pure ⟨offset, none, txid, some true⟩
  else
    let hash ← readField .hash Wire.readHash32
    pure ⟨offset, some hash, txid, none⟩

def readLevel : Read Level := do
  let count ← readField .leafCount Wire.readVarInt
  let elements ← readElement.replicate count.toNat
  pure (Level.sort elements)

namespace Path

/-- The bytes of a path. The number of levels is written in one byte. -/
def toBytes (path : Path) : Bytes :=
  Wire.varInt path.blockHeight.toUInt64 ++ [UInt8.ofNat path.levels.length] ++
    path.levels.flatMap Level.encode

def toHex (path : Path) : String :=
  Hex.encode path.toBytes

def read : Read Path := do
  let height ← readField .blockHeight Wire.readVarInt
  if UInt32.size ≤ height.toNat then throw (.malformed (.blockHeightRange height))
  let count ← readField .treeHeight Wire.readUInt8
  let levels ← readLevel.replicate count.toNat
  pure ⟨height.toUInt32, levels⟩

/-- Reads a path that takes up a whole byte string. -/
def ofBytes (bytes : Bytes) : Except Error Path :=
  if bytes.length < shortestLength then .error (.malformed (.tooShort bytes.length))
  else
    match read (Wire.Cursor.start bytes) with
    | .error cause _ => .error cause
    | .ok path cursor =>
        if cursor.isEmpty then .ok path else .error (.malformed (.trailing cursor.remaining))

def ofHex (text : String) : Except Error Path := do
  let bytes ← (Hex.decode text).mapError .hex
  ofBytes bytes

end Path

end BitcoinSpend.Merkle
