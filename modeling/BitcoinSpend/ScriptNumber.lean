import BitcoinSpend.EncodingError

/-!
# Script numbers

Integers of any size as byte strings: the magnitude little-endian, the top bit
of the last byte for the sign. Zero is the empty string. Reading accepts longer
forms than necessary; writing gives the shortest.
-/

set_option autoImplicit false

namespace BitcoinSpend.ScriptNumber

/-- The sign bit of a last byte. -/
def signBit (byte : UInt8) : UInt8 :=
  byte &&& 0x80

/-- A last byte without its sign bit. -/
def magnitudeBits (byte : UInt8) : UInt8 :=
  byte &&& 0x7f

/-- The value of a byte string, whether or not it is the shortest form. -/
def decode (bytes : Bytes) : Int :=
  match bytes.getLast? with
  | none => 0
  | some last =>
      let magnitude := Bytes.toNatLE (bytes.dropLast ++ [magnitudeBits last])
      if signBit last = 0 then Int.ofNat magnitude else -Int.ofNat magnitude

def encode (value : Int) : Bytes :=
  let magnitude := Bytes.ofNatLEShortest value.natAbs
  let sign : UInt8 := if value < 0 then 0x80 else 0
  match magnitude.getLast? with
  | none => []
  | some last =>
      if signBit last = 0 then magnitude.dropLast ++ [last ||| sign]
      else magnitude ++ [sign]

/-- Whether the last byte is needed: it holds a bit of the magnitude, or the sign of a byte that
has no room for it. -/
def isMinimal (bytes : Bytes) : Bool :=
  match bytes.reverse with
  | [] => true
  | last :: rest =>
      magnitudeBits last != 0 ||
        match rest with
        | [] => false
        | previous :: _ => signBit previous != 0

/-- Moves the sign down over the zero bytes at the end. -/
def minimize (bytes : Bytes) : Bytes :=
  match bytes.reverse with
  | [] => []
  | last :: rest =>
      if magnitudeBits last ≠ 0 then bytes
      else
        match rest.dropWhile (· == 0) with
        | [] => []
        | top :: below =>
            if signBit top = 0 then below.reverse ++ [top ||| signBit last]
            else below.reverse ++ [top, signBit last]

/-- The limits under which a script reads numbers. -/
structure Rule where
  /-- The longest form that is read. -/
  maxLength : Nat
  /-- Whether only shortest forms are read. -/
  requireMinimal : Bool
  deriving DecidableEq, Repr

/-- The value of a byte string within the limits; the length is checked first. -/
def decodeWithin (rule : Rule) (bytes : Bytes) : Except EncodingError Int :=
  if rule.maxLength < bytes.length then
    .error (.scriptNumberTooLong bytes.length rule.maxLength)
  else if rule.requireMinimal && !isMinimal bytes then .error .scriptNumberNotMinimal
  else .ok (decode bytes)

/-- Whether a stack item counts as true: some bit is set besides the sign bit. -/
def isTrue (bytes : Bytes) : Bool :=
  match bytes.reverse with
  | [] => false
  | last :: rest => rest.any (· != 0) || magnitudeBits last != 0

def ofBool : Bool → Bytes
  | true => [1]
  | false => []

def ofDecimal (text : String) : Except EncodingError Int :=
  (Text.parseInteger 10 text.toList).mapError .numeral

/-- Reads a hexadecimal text of the magnitude, negated by a minus sign before it. -/
def ofHex (text : String) : Except EncodingError Int :=
  let (negative, digits) :=
    match text.toList with
    | '-' :: rest => (true, rest)
    | whole => (false, whole)
  match Text.parseInteger 16 digits with
  | .ok value => .ok (if negative then -value else value)
  | .error _ => .error (.notHexNumber text)

/-- The value as a machine index, when it fits 64 bits without sign. -/
def toIndex? (value : Int) : Option Nat :=
  if 0 ≤ value ∧ value < UInt64.size then some value.toNat else none

def toInt64? (value : Int) : Option Int :=
  if Int64.minValue.toInt ≤ value ∧ value ≤ Int64.maxValue.toInt then some value else none

end BitcoinSpend.ScriptNumber
