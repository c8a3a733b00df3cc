import BitcoinSpend.Bytes

/-!
# Variable-length integers

An unsigned 64-bit number in one, three, five or nine bytes: a marker byte and
a little-endian payload for all but the smallest.
-/

set_option autoImplicit false

namespace BitcoinSpend.Wire

/-- The bytes that the shortest form of a number takes. -/
def varIntLength (value : UInt64) : Nat :=
  if value < 0xfd then 1
  else if value < 0x10000 then 3
  else if value < 0x100000000 then 5
  else 9

def varInt (value : UInt64) : Bytes :=
  if value < 0xfd then [value.toUInt8]
  else if value < 0x10000 then 0xfd :: Bytes.ofNatLE 2 value.toNat
  else if value < 0x100000000 then 0xfe :: Bytes.ofNatLE 4 value.toNat
  else 0xff :: Bytes.ofNatLE 8 value.toNat

@[simp] theorem length_varInt (value : UInt64) : (varInt value).length = varIntLength value := by
  unfold varInt varIntLength
  repeat' split
  all_goals simp

end BitcoinSpend.Wire
