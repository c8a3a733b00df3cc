import BitcoinSpend.Spend.Conditional
import BitcoinSpend.Spend.Instruction

/-!
# Arithmetic instructions

Operands are numbers of any size, bounded only by the length of their form.
Division truncates toward zero and a remainder has the sign of the dividend.
Shifts move the bits of a whole byte string, first byte most significant, and
keep its length.
-/

set_option autoImplicit false

namespace BitcoinSpend.Spend

open MonadExcept (ofExcept)

def truthNumber (value : Bool) : Int :=
  if value then 1 else 0

def Unary.eval : Unary → Int → Int
  | increment, value => value + 1
  | decrement, value => value - 1
  | negate, value => -value
  | absolute, value => value.natAbs
  | isZero, value => truthNumber (value == 0)
  | isNonzero, value => truthNumber (value != 0)

def Binary.eval : Binary → Int → Int → Except Fault Int
  | add, left, right => .ok (left + right)
  | sub, left, right => .ok (left - right)
  | mul, left, right => .ok (left * right)
  | div, left, right => if right = 0 then .error .divideByZero else .ok (left.tdiv right)
  | mod, left, right => if right = 0 then .error .divideByZero else .ok (left.tmod right)
  | min, left, right => .ok (if left < right then left else right)
  | max, left, right => .ok (if right < left then left else right)

def Relation.holds : Relation → Int → Int → Bool
  | both, left, right => left != 0 && right != 0
  | either, left, right => left != 0 || right != 0
  | equal, left, right => left == right
  | notEqual, left, right => left != right
  | less, left, right => left < right
  | greater, left, right => right < left
  | lessOrEqual, left, right => left ≤ right
  | greaterOrEqual, left, right => right ≤ left

/-- The bits of a byte that stay in it when it moves up, by the number of bits that it moves. -/
def leftMasks : List UInt8 :=
  [0xff, 0x7f, 0x3f, 0x1f, 0x0f, 0x07, 0x03, 0x01]

/-- The bits of a byte that stay in it when it moves down. -/
def rightMasks : List UInt8 :=
  [0xff, 0xfe, 0xfc, 0xf8, 0xf0, 0xe0, 0xc0, 0x80]

/-- Sets bits of the byte at an index. -/
def setBits (bytes : Bytes) (index : Nat) (bits : UInt8) : Except Fault Bytes := do
  let byte ← itemAt bytes index
  pure (bytes.set index (byte ||| bits))

/-- Moves the byte at an index up by whole bytes and less than a byte, into a string. -/
def placeLeft (bytes : Bytes) (moved bits : Nat) (mask : UInt8) (result : Bytes) (index : Nat) :
    Except Fault Bytes := do
  let target ← difference index moved
  let byte ← itemAt bytes index
  let result ← setBits result target ((byte &&& mask) <<< UInt8.ofNat bits)
  if 1 ≤ target ∧ 0 < bits then
    let before ← difference target 1
    let spare ← difference 8 bits
    setBits result before ((byte &&& ~~~mask) >>> UInt8.ofNat spare)
  else pure result

/-- Moves a byte down by whole bytes and less than a byte, into a string of the given length. -/
def placeRight (length moved bits : Nat) (mask : UInt8) (result : Bytes) :
    (byte : UInt8 × Nat) → Except Fault Bytes
  | (byte, index) => do
      let target := index + moved
      let result ←
        if target < length then setBits result target ((byte &&& mask) >>> UInt8.ofNat bits)
        else pure result
      if target + 1 < length ∧ 0 < bits then
        let spare ← difference 8 bits
        setBits result (target + 1) ((byte &&& ~~~mask) <<< UInt8.ofNat spare)
      else pure result

/-- Moves the bits of a string by less than its length and keeps its length. -/
def shiftBytes (direction : Direction) (amount : Nat) (bytes : Bytes) : Except Fault Bytes := do
  let bits := amount % 8
  let moved := amount / 8
  let zeros := List.replicate bytes.length 0
  match direction with
  | .left =>
      let mask ← itemAt leftMasks bits
      -- Where the string is no longer than the bytes to move, there is no index.
      let indices := List.range' moved (bytes.length - moved)
      indices.reverse.foldlM (placeLeft bytes moved bits mask) zeros
  | .right =>
      let mask ← itemAt rightMasks bits
      bytes.zipIdx.foldlM (placeRight bytes.length moved bits mask) zeros

namespace Exec

def unary (op : Unary) : Exec Unit := do
  let value ← onStack Stack.popNumber
  onStack (Stack.pushNumber (op.eval value))

/-- Takes two numbers, the right one first, and puts a number. -/
def binary (op : Binary) : Exec Unit := do
  let right ← onStack Stack.popNumber
  let left ← onStack Stack.popNumber
  let value ← ofExcept (op.eval left right)
  onStack (Stack.pushNumber value)

/-- Takes two numbers, the right one first, and puts a truth value. -/
def relation (op : Relation) : Exec Unit := do
  let right ← onStack Stack.popNumber
  let left ← onStack Stack.popNumber
  onStack (Stack.pushBool (op.holds left right))

/-- Takes an upper bound, a lower bound and a number, and puts whether the number is at least the
lower and less than the upper bound. -/
def within : Exec Unit := do
  let upper ← onStack Stack.popNumber
  let lower ← onStack Stack.popNumber
  let value ← onStack Stack.popNumber
  onStack (Stack.pushBool (lower ≤ value && value < upper))

/-- Takes a number of bits and a string, and puts the shifted string. -/
def shift (direction : Direction) : Exec Unit := do
  let amount ← onStack Stack.popNumber
  let bytes ← onStack Stack.pop
  refuse (amount < 0) .shiftNegative
  if 8 * bytes.length ≤ amount then onStack (Stack.push (List.replicate bytes.length 0))
  else
    let shifted ← ofExcept (shiftBytes direction amount.toNat bytes)
    onStack (Stack.push shifted)

end Exec

end BitcoinSpend.Spend
