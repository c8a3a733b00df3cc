import BitcoinSpend.Hash32
import BitcoinSpend.Spend.Context
import BitcoinSpend.Spend.Flags
import BitcoinSpend.Spend.Stack

/-!
# What an instruction sees and changes

A frame holds what is fixed while an instruction runs: the two scripts, the
rules and the place in them. The state holds what it may change. An instruction
that fails keeps what it has done to the state until then.
-/

set_option autoImplicit false

namespace BitcoinSpend.Spend

/-- The pair of scripts to run and the rules to run them under. -/
structure Setup where
  /-- The identifier of the transaction that made the output, for reports. -/
  sourceTxid : Hash32
  /-- The index of the output in that transaction, for reports. -/
  sourceIndex : UInt32
  unlocking : List Chunk
  locking : List Chunk
  context : Option TxContext
  /-- The index of the input that spends. -/
  inputIndex : Nat
  flags : Flags
  /-- The number of bytes that both stacks may hold together. -/
  memoryLimit : Nat

namespace Setup

def limits (setup : Setup) : Limits :=
  Limits.ofFlags setup.flags

/-- Whether the output being spent was made after the genesis upgrade. -/
def afterGenesis (setup : Setup) : Bool :=
  setup.flags.has Flags.afterGenesis

def numberRule (setup : Setup) : ScriptNumber.Rule :=
  ⟨setup.limits.maxNumberLength, setup.flags.has Flags.minimalData⟩

def script (setup : Setup) : Phase → List Chunk
  | .unlocking => setup.unlocking
  | .locking => setup.locking

end Setup

/-- The place of an instruction. -/
structure Frame where
  setup : Setup
  phase : Phase
  /-- The index of the instruction in the running script. -/
  position : Nat

def Frame.script (frame : Frame) : List Chunk :=
  frame.setup.script frame.phase

/-- What instructions change. -/
structure State where
  stack : Stack
  alt : Stack
  /-- Whether the current branch of each open conditional is taken, innermost first. -/
  branches : List Bool
  /-- Whether each open conditional has switched branches, innermost first. -/
  switched : List Bool
  /-- The index of the last separator that was run in the running script. -/
  separator : Option Nat
  /-- The number of instructions above the pushes, and of keys, that the running script used. -/
  opCount : Nat
  /-- Whether the running script has returned early. -/
  returned : Bool
  /-- The questions asked about signatures, oldest first. -/
  queries : List SignatureQuery
  deriving DecidableEq, Repr

def State.initial (rule : ScriptNumber.Rule) : State :=
  ⟨Stack.empty rule, Stack.empty rule, [], [], none, 0, false, []⟩

/-- Whether every open conditional is in a branch that is taken. -/
def State.branchesTaken (state : State) : Bool :=
  state.branches.all id

/-- Whether an instruction other than a conditional runs now. -/
def State.isExecuting (setup : Setup) (state : State) : Bool :=
  state.branchesTaken && !(setup.afterGenesis && state.returned)

/-- The running of an instruction. -/
abbrev Exec (α : Type) := ReaderT Frame (EStateM Fault State) α

namespace Exec

def onStack {α : Type} (op : StackM α) : Exec α := fun _ state =>
  match op state.stack with
  | .ok value stack => .ok value { state with stack := stack }
  | .error fault stack => .error fault { state with stack := stack }

def onAlt {α : Type} (op : StackM α) : Exec α := fun _ state =>
  match op state.alt with
  | .ok value stack => .ok value { state with alt := stack }
  | .error fault stack => .error fault { state with alt := stack }

def setup : Exec Setup := do
  let frame ← read
  pure frame.setup

def hasFlag (flag : Flags) : Exec Bool := do
  let setup ← setup
  pure (setup.flags.has flag)

/-- The transaction context that an instruction needs. -/
def requireContext (instruction : String) : Exec TxContext := do
  let setup ← setup
  match setup.context with
  | some context => pure context
  | none => throw (.noContext instruction)

end Exec

end BitcoinSpend.Spend
