/-!
# Flags and limits

The rules under which scripts run are chosen by a word of flags. One of the
flags says whether the output being spent was made after the genesis upgrade,
which raises most limits.
-/

set_option autoImplicit false

namespace BitcoinSpend.Spend

/-- A set of flags, one bit each. -/
structure Flags where
  bits : UInt32
  deriving DecidableEq, Repr

namespace Flags

/-- The flag at a bit position. -/
def bit (position : UInt32) : Flags :=
  ⟨1 <<< position⟩

def empty : Flags := ⟨0⟩

/-- The extra operand of a multiple signature check must be empty. -/
def strictMultiSig : Flags := bit 1

/-- Opcodes kept for later upgrades fail. -/
def discourageUpgradableNops : Flags := bit 2

/-- The lock time check is enabled. -/
def checkLockTime : Flags := bit 3

/-- The relative lock time check is enabled. -/
def checkSequence : Flags := bit 4

/-- Exactly one item must remain at the end. -/
def cleanStack : Flags := bit 5

/-- Signatures must be strictly DER encoded. -/
def derSignatures : Flags := bit 6

/-- Signatures must use the smaller `s`. -/
def lowS : Flags := bit 7

/-- Pushes and numbers must be in shortest form. -/
def minimalData : Flags := bit 8

/-- A failed signature check must have been given empty signatures. -/
def nullFail : Flags := bit 9

/-- The unlocking script must consist of pushes. -/
def signaturePushOnly : Flags := bit 10

/-- Signatures commit to the spent value by the replay-protected digest. -/
def enableForkId : Flags := bit 11

/-- Hash types and public keys must be well formed. -/
def strictEncoding : Flags := bit 12

/-- The output being spent was made after the genesis upgrade. -/
def afterGenesis : Flags := bit 14

/-- The operand of a conditional must be empty or the byte one. -/
def minimalIf : Flags := bit 15

def union (left right : Flags) : Flags :=
  ⟨left.bits ||| right.bits⟩

def inter (left right : Flags) : Flags :=
  ⟨left.bits &&& right.bits⟩

/-- Whether all of some flags are set. -/
def has (flags wanted : Flags) : Bool :=
  flags.bits &&& wanted.bits == wanted.bits

/-- Whether one of several sets of flags is set as a whole. -/
def hasAny (flags : Flags) (choices : List Flags) : Bool :=
  choices.any flags.has

/-- The flags that are left when some are taken away. -/
def without (flags removed : Flags) : Flags :=
  ⟨flags.bits &&& ~~~removed.bits⟩

/-- The rules for outputs made after the genesis upgrade. -/
def standard : Flags :=
  [afterGenesis, enableForkId, strictEncoding, derSignatures, lowS, nullFail, minimalData,
    signaturePushOnly].foldl union empty

end Flags

/-- What a script may use. -/
structure Limits where
  maxOps : Nat
  maxStackSize : Nat
  maxScriptSize : Nat
  maxElementSize : Nat
  maxNumberLength : Nat
  maxKeys : Nat
  deriving DecidableEq, Repr

namespace Limits

/-- The largest signed 32-bit number, for limits that are as good as none. -/
def unbounded : Nat := 0x7fffffff

def beforeGenesis : Limits :=
  ⟨500, 1000, 10000, 520, 4, 20⟩

def afterGenesis : Limits :=
  ⟨unbounded, unbounded, unbounded, 0x40000000, 750000, unbounded⟩

def ofFlags (flags : Flags) : Limits :=
  if flags.has Flags.afterGenesis then afterGenesis else beforeGenesis

/-- The bytes that both stacks may hold together when nothing else is asked for. -/
def defaultMemory : Nat := 32000000

end Limits

end BitcoinSpend.Spend
