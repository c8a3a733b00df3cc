import BitcoinSpend.Spend.Arithmetic
import BitcoinSpend.Spend.SignatureCheck
import BitcoinSpend.Spend.Splice

/-!
# Running one chunk

The checks that come before an instruction, also where it is skipped, and the
choice of what runs.
-/

set_option autoImplicit false

namespace BitcoinSpend.Spend.Exec

/-- Puts what a push pushes, in shortest form if a flag asks for it. -/
def pushChunk (chunk : Chunk) : Exec Unit := do
  let minimal ← hasFlag Flags.minimalData
  refuse (minimal && !chunk.isMinimal) (.pushNotMinimal chunk.operand.length chunk.op)
  match chunk.pushValue? with
  | some value => onStack (Stack.push value)
  | none => pure ()

/-- Runs an instruction after which the script goes on at the next one. -/
def runStraight (instruction : Instruction) (chunk : Chunk) : Exec Unit := do
  let op := chunk.op
  match instruction with
  | .push => pushChunk chunk
  | .nop => pure ()
  | .upgradableNop => upgradableNop op
  | .beginIf negated => beginIf negated
  | .switchBranch => switchBranch
  | .endIf => endIf
  | .verify => verify .plain op
  | .returnEarly => pure ()
  | .checkLockTime => checkLockTime
  | .checkSequence => checkSequence
  | .toAlt => toAlt
  | .fromAlt => fromAlt
  | .dropBlock count => onStack (Stack.dropBlock count)
  | .dupBlock count => onStack (Stack.dupBlock count)
  | .overBlock count => onStack (Stack.overBlock count)
  | .rotBlock count => onStack (Stack.rotBlock count)
  | .swapBlock count => onStack (Stack.swapBlock count)
  | .dupIfTrue => dupIfTrue
  | .depth => depth
  | .nip => nip
  | .pick => pick
  | .roll => roll
  | .tuck => onStack Stack.tuck
  | .cat => cat
  | .split => split
  | .numToBin => numToBin
  | .binToNum => binToNum
  | .size => size
  | .invert => invert
  | .bitwise operation => bitwise operation
  | .equal verifies => do
      equal
      if verifies then verify .equal op
  | .unary operation => unary operation
  | .binary operation => binary operation
  | .relation operation => relation operation
  | .numEqualVerify => do
      relation .equal
      verify .numEqual op
  | .within => within
  | .shift direction => shift direction
  | .digest algorithm => digest algorithm
  | .codeSeparator => codeSeparator
  | .checkSig verifies => do
      checkSig
      if verifies then verify .checkSig op
  | .checkMultiSig verifies => do
      checkMultiSig
      if verifies then verify .checkMultiSig op
  | .disabled => throw (.disabledOpcode op)
  | .reservedConditional => throw (.reservedOpcode op)
  | .reserved => throw (.reservedOpcode op)
  | .unassigned => throw (.invalidOpcode op)

def run (instruction : Instruction) (chunk : Chunk) : Exec Flow := do
  if instruction = .returnEarly then returnEarly
  else
    runStraight instruction chunk
    pure .next

/-- The checks that a chunk passes whether or not it is skipped: the size of its data, withdrawn
opcodes, and the number of operations. -/
def precheck (instruction : Instruction) (chunk : Chunk) : Exec Unit := do
  let setup ← setup
  refuse (chunk.op ≤ Opcode.pushData4 && setup.limits.maxElementSize < chunk.operand.length)
    (.pushTooBig chunk.operand.length setup.limits.maxElementSize)
  let executing ← isExecuting
  let refused := !setup.afterGenesis || executing
  refuse (refused && instruction = .disabled) (.disabledOpcode chunk.op)
  refuse (refused && instruction = .reservedConditional) (.reservedOpcode chunk.op)
  if Opcode.sixteen < chunk.op then countOps 1

/-- Runs a chunk, or passes over it where a branch is not taken. -/
def chunk (chunk : Chunk) : Exec Flow := do
  let instruction := Instruction.ofOpcode chunk.op
  precheck instruction chunk
  let executing ← isExecuting
  if executing || instruction.isConditional then run instruction chunk
  else pure .next

end BitcoinSpend.Spend.Exec
