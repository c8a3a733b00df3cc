import BitcoinSpend.Spend.Conditional
import BitcoinSpend.Spend.Instruction

/-!
# Stack and string instructions

Moving items between and within the stacks, and joining, cutting and resizing
byte strings.
-/

set_option autoImplicit false

namespace BitcoinSpend.Spend

open MonadExcept (ofExcept)

/-- The byte that a bitwise operation makes of two. -/
def Bitwise.eval : Bitwise → UInt8 → UInt8 → UInt8
  | and, left, right => left &&& right
  | or, left, right => left ||| right
  | xor, left, right => left ^^^ right

/-- A form of a number filled up to `size` bytes, its sign moved to the last of them. The form
must be shorter than that. -/
def widen (size : Nat) (form : Bytes) : Except Fault Bytes := do
  let filled ← difference size 1
  let zeros := List.replicate (filled - form.length) 0
  match form.getLast? with
  | none => pure (zeros ++ [0])
  | some last =>
      pure (form.dropLast ++ [ScriptNumber.magnitudeBits last] ++ zeros ++
        [ScriptNumber.signBit last])

namespace Exec

def toAlt : Exec Unit := do
  let item ← onStack Stack.pop
  onAlt (Stack.push item)

/-- Moves the top item of the alternative stack back. -/
def fromAlt : Exec Unit := do
  let item ← onAlt Stack.pop
  onStack (Stack.push item)

/-- Copies the top item if it is true. -/
def dupIfTrue : Exec Unit := do
  let item ← onStack (Stack.peek 0)
  if ScriptNumber.isTrue item then onStack (Stack.push item)

def depth : Exec Unit := do
  let state ← get
  onStack (Stack.pushNumber state.stack.depth)

/-- Takes the index of an item among those left. -/
def popIndex : Exec Nat := do
  let index ← onStack Stack.popNumber
  let state ← get
  refuse (index < 0 || state.stack.depth ≤ index) (.stackIndex index state.stack.depth)
  pure index.toNat

def pick : Exec Unit := do
  let index ← popIndex
  onStack (Stack.pick index)

def roll : Exec Unit := do
  let index ← popIndex
  onStack (Stack.roll index)

def nip : Exec Unit := do
  let _ ← onStack (Stack.remove 1)

def cat : Exec Unit := do
  let setup ← setup
  let right ← onStack Stack.pop
  let left ← onStack Stack.pop
  let size := left.length + right.length
  refuse (setup.limits.maxElementSize < size) (.joinedTooBig size setup.limits.maxElementSize)
  onStack (Stack.push (left ++ right))

/-- Takes a position and a string, and cuts the string there. -/
def split : Exec Unit := do
  let position ← onStack Stack.popNumber
  let bytes ← onStack Stack.pop
  refuse (position < 0) .splitNegative
  refuse (bytes.length < position) (.splitPastEnd position bytes.length)
  let tail ← ofExcept (suffixFrom bytes position.toNat)
  onStack (Stack.push (bytes.take position.toNat))
  onStack (Stack.push tail)

/-- Takes a size and a number, and puts the number in exactly that many bytes. -/
def numToBin : Exec Unit := do
  let setup ← setup
  let size ← onStack Stack.popNumber
  let bytes ← onStack Stack.pop
  refuse (size < 0) (.sizeNegative size)
  refuse (setup.limits.maxElementSize < size) (.sizeTooBig size setup.limits.maxElementSize)
  let state ← get
  refuse (setup.memoryLimit < state.stack.held + state.alt.held + size.toNat)
    (.resultExceedsMemory size.toNat setup.memoryLimit)
  let form := ScriptNumber.minimize bytes
  refuse (size.toNat < form.length) (.sizeTooSmall form.length size.toNat)
  if form.length = size.toNat then onStack (Stack.push form)
  else
    let widened ← ofExcept (widen size.toNat form)
    onStack (Stack.push widened)

def binToNum : Exec Unit := do
  let setup ← setup
  let bytes ← onStack Stack.pop
  let form := ScriptNumber.minimize bytes
  refuse (setup.limits.maxNumberLength < form.length) (.numberLimit setup.limits.maxNumberLength)
  onStack (Stack.push form)

def size : Exec Unit := do
  let item ← onStack (Stack.peek 0)
  onStack (Stack.pushNumber item.length)

def invert : Exec Unit := do
  let bytes ← onStack Stack.pop
  onStack (Stack.push (bytes.map (~~~ ·)))

/-- Combines two strings of one length byte by byte. -/
def bitwise (op : Bitwise) : Exec Unit := do
  let right ← onStack Stack.pop
  let left ← onStack Stack.pop
  refuse (left.length != right.length) .unequalLengths
  onStack (Stack.push (List.zipWith op.eval left right))

def equal : Exec Unit := do
  let right ← onStack Stack.pop
  let left ← onStack Stack.pop
  onStack (Stack.pushBool (left == right))

end Exec

end BitcoinSpend.Spend
