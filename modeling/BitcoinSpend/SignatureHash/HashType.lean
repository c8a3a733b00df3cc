/-!
# Hash types

The word that goes with a signature and says what it commits to. Its low five
bits say which outputs are signed.
-/

set_option autoImplicit false

namespace BitcoinSpend

/-- What a signature commits to. -/
structure HashType where
  bits : UInt32
  deriving DecidableEq, Repr

/-- Which outputs a signature commits to. -/
inductive OutputCover where
  | all
  | none
  /-- The output at the index of the signed input. -/
  | single
  deriving DecidableEq, Repr

namespace HashType

/-- The bit that selects the replay-protected digest. -/
def forkIdBit : UInt32 := 0x40

/-- The bit under which only the signed input is committed to. -/
def anyoneCanPayBit : UInt32 := 0x80

/-- All inputs and outputs, under the replay-protected digest. -/
def standard : HashType := ⟨0x41⟩

/-- The bits that say which outputs are signed. -/
def base (type : HashType) : UInt32 :=
  type.bits &&& 0x1f

/-- Which outputs are signed. A base without a meaning of its own stands for all. -/
def cover (type : HashType) : OutputCover :=
  if type.base = 2 then .none
  else if type.base = 3 then .single
  else .all

/-- Whether the replay-protected digest is used. -/
def isForkId (type : HashType) : Bool :=
  type.bits &&& forkIdBit != 0

/-- Whether only the signed input is committed to. -/
def isAnyoneCanPay (type : HashType) : Bool :=
  type.bits &&& anyoneCanPayBit != 0

def byte (type : HashType) : UInt8 :=
  type.bits.toUInt8

end HashType

end BitcoinSpend
