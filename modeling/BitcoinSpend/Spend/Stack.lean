import BitcoinSpend.ScriptNumber
import BitcoinSpend.Spend.Guard

/-!
# Stacks

A stack of byte strings that counts the bytes it holds. An operation that fails
keeps what it has done to the stack until then.
-/

set_option autoImplicit false

namespace BitcoinSpend.Spend

open MonadExcept (ofExcept)

/-- A stack of byte strings and the rule under which it reads numbers. -/
structure Stack where
  /-- The items, top first. -/
  items : List Bytes
  /-- The number of bytes held. -/
  held : Nat
  rule : ScriptNumber.Rule
  deriving DecidableEq, Repr

/-- An operation on a stack. -/
abbrev StackM (α : Type) := EStateM Fault Stack α

namespace Stack

def empty (rule : ScriptNumber.Rule) : Stack :=
  ⟨[], 0, rule⟩

def depth (stack : Stack) : Nat :=
  stack.items.length

/-- The items, bottom first. -/
def toList (stack : Stack) : List Bytes :=
  stack.items.reverse

def cons (item : Bytes) (stack : Stack) : Stack :=
  { stack with items := item :: stack.items, held := stack.held + item.length }

def push (item : Bytes) : StackM Unit := fun stack =>
  .ok () (stack.cons item)

def pushNumber (value : Int) : StackM Unit :=
  push (ScriptNumber.encode value)

def pushBool (value : Bool) : StackM Unit :=
  push (ScriptNumber.ofBool value)

/-- The item `index` places below the top. -/
def itemBelow (stack : Stack) (index : Nat) : Except Fault Bytes := do
  refuse (stack.depth ≤ index) (.stackIndex index stack.depth)
  itemAt stack.items index

def peek (index : Nat) : StackM Bytes := do
  let stack ← get
  ofExcept (stack.itemBelow index)

def remove (index : Nat) : StackM Bytes := do
  let stack ← get
  let item ← ofExcept (stack.itemBelow index)
  let held ← ofExcept (difference stack.held item.length)
  set { stack with items := stack.items.eraseIdx index, held := held }
  pure item

def pop : StackM Bytes :=
  remove 0

/-- Reads a string as a number of at most `maxLength` bytes. -/
def readNumber (maxLength : Nat) (item : Bytes) : StackM Int := fun stack =>
  match ScriptNumber.decodeWithin { stack.rule with maxLength := maxLength } item with
  | .ok value => .ok value stack
  | .error cause => .error (.number cause) stack

def popNumber : StackM Int := do
  let item ← pop
  let stack ← get
  readNumber stack.rule.maxLength item

/-- Removes the top item and reads it as a truth value. -/
def popBool : StackM Bool := do
  let item ← pop
  pure (ScriptNumber.isTrue item)

/-- Removes items from the top, top first. -/
def popMany : (count : Nat) → StackM (List Bytes)
  | 0 => pure []
  | count + 1 => do
      let item ← pop
      let items ← popMany count
      pure (item :: items)

def repeatOp (op : StackM Unit) : (count : Nat) → StackM Unit
  | 0 => pure ()
  | count + 1 => do
      op
      repeatOp op count

/-- Copies the item `index` places below the top to the top. -/
def pick (index : Nat) : StackM Unit := do
  let item ← peek index
  push item

/-- Moves the item `index` places below the top to the top. -/
def roll (index : Nat) : StackM Unit := do
  let item ← remove index
  push item

def tuck : StackM Unit := do
  let top ← pop
  let below ← pop
  push top
  push below
  push top

/-- Removes the top `count` items, or none if there are fewer. -/
def dropBlock (count : Nat) : StackM Unit := do
  let stack ← get
  if stack.depth < count then
    let last ← ofExcept (difference count 1)
    throw (.stackIndex last stack.depth)
  else
    let _ ← popMany count

def dupBlock (count : Nat) : StackM Unit :=
  repeatOp (do pick (← ofExcept (difference count 1))) count

/-- The place of the deepest item of some blocks of `count` items each. -/
def deepest (blocks count : Nat) : Except Fault Nat := do
  let items ← product blocks count
  difference items 1

/-- Moves the third block of `count` items to the top, for a positive count. -/
def rotBlock (count : Nat) : StackM Unit := do
  let last ← ofExcept (deepest 3 count)
  repeatOp (roll last) count

/-- Exchanges the top two blocks of `count` items, for a positive count. -/
def swapBlock (count : Nat) : StackM Unit := do
  let last ← ofExcept (deepest 2 count)
  repeatOp (roll last) count

/-- Copies the second block of `count` items to the top, for a positive count. -/
def overBlock (count : Nat) : StackM Unit := do
  let last ← ofExcept (deepest 2 count)
  repeatOp (pick last) count

end Stack

end BitcoinSpend.Spend
