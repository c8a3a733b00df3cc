import BitcoinSpend.Spend.Conditional

/-!
# Lock times

A script may demand that the transaction is not final before some height or
time, or that its input is older than some number of blocks or seconds. The
operand stays on the stack. After the genesis upgrade both checks are nops.
-/

set_option autoImplicit false

namespace BitcoinSpend.Spend

open MonadExcept (ofExcept)

/-- Lock times below this number are block heights, the others are times. -/
def lockTimeThreshold : Nat := 500000000

/-- The sequence number of an input that no lock time applies to. -/
def finalSequence : UInt32 := 0xffffffff

/-- The bit that turns a relative lock time off. -/
def sequenceDisabledBit : Nat := 0x80000000

/-- The bit of a relative lock time that is counted in seconds. -/
def sequenceSecondsBit : Nat := 0x00400000

/-- The bits of a relative lock time that are compared: the unit and the count. -/
def sequenceMask : Nat := 0x0040ffff

def lockTimeLength : Nat := 5

/-- Requires two lock times to be of one kind and the demanded one not to exceed the
transaction's. -/
def compareLockTimes (transaction threshold required : Nat) : Except Fault Unit :=
  if decide (transaction < threshold) ≠ decide (required < threshold) then
    .error (.lockTimeKinds transaction required)
  else if transaction < required then .error (.lockTimeUnmet required transaction)
  else .ok ()

namespace Exec

/-- Reads a lock time operand and leaves it on the stack. -/
def peekLockTime (operand : String) : Exec Nat := do
  let item ← onStack (Stack.peek 0)
  let value ← onStack (Stack.readNumber lockTimeLength item)
  refuse (value < 0) (.negativeLockTime operand value)
  pure value.toNat

/-- Runs a check where its flag is set and the genesis upgrade is not yet. Elsewhere the check's
opcode is a nop kept for upgrades. -/
def whereInForce (flag : Flags) (op : Opcode) (check : Exec Unit) : Exec Unit := do
  let setup ← setup
  if !setup.flags.has flag || setup.afterGenesis then upgradableNop op
  else check

/-- Demands that the transaction is not final before a height or time. -/
def checkLockTime : Exec Unit :=
  whereInForce Flags.checkLockTime Opcode.checkLockTime do
    let setup ← setup
    let context ← requireContext "OP_CHECKLOCKTIMEVERIFY"
    let required ← peekLockTime "lock time"
    ofExcept (compareLockTimes context.lockTime.toNat lockTimeThreshold required)
    refuse (context.sequence setup.inputIndex = finalSequence) .finalInput

/-- Demands that the input is older than a number of blocks or seconds. -/
def checkSequence : Exec Unit :=
  whereInForce Flags.checkSequence Opcode.checkSequence do
    let setup ← setup
    let context ← requireContext "OP_CHECKSEQUENCEVERIFY"
    let required ← peekLockTime "sequence"
    if required &&& sequenceDisabledBit = 0 then
      refuse (context.version < 2) (.oldVersion context.version.toNat)
      let sequence := (context.sequence setup.inputIndex).toNat
      refuse (sequence &&& sequenceDisabledBit != 0) (.sequenceDisabled sequence)
      ofExcept (compareLockTimes (sequence &&& sequenceMask) sequenceSecondsBit
        (required &&& sequenceMask))

end Exec

end BitcoinSpend.Spend
