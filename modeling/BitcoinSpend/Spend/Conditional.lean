import BitcoinSpend.Spend.State

/-!
# Conditionals, verification and return

Conditionals nest, switch branches at most once and are tracked also where they
are skipped; a skipped conditional takes no operand.
-/

set_option autoImplicit false

namespace BitcoinSpend.Spend.Exec

def popCondition : Exec Bool := do
  if ← hasFlag Flags.minimalIf then
    let item ← onStack Stack.pop
    match item with
    | [] => pure false
    | [byte] => if byte = 1 then pure true else throw .conditionByte
    | _ => throw (.conditionLength item.length)
  else onStack Stack.popBool

/-- Whether an instruction other than a conditional would run now. -/
def isExecuting : Exec Bool := do
  let setup ← setup
  let state ← get
  pure (state.isExecuting setup)

/-- Whether the first branch of a conditional is taken. -/
def chooseBranch (negated : Bool) : Exec Bool := do
  let executing ← isExecuting
  if executing then
    let condition ← popCondition
    pure (condition != negated)
  else pure false

def beginIf (negated : Bool) : Exec Unit := do
  let taken ← chooseBranch negated
  modify fun state =>
    { state with branches := taken :: state.branches, switched := false :: state.switched }

/-- Switches the innermost conditional to its other branch. -/
def switchBranch : Exec Unit := do
  let state ← get
  match state.branches, state.switched with
  | taken :: outer, switched :: outerSwitched =>
      if switched then throw (.noOpenConditional Opcode.otherwise)
      else set { state with branches := (!taken) :: outer, switched := true :: outerSwitched }
  | _, _ => throw (.noOpenConditional Opcode.otherwise)

def endIf : Exec Unit := do
  let state ← get
  match state.branches with
  | _ :: outer => set { state with branches := outer, switched := state.switched.tail }
  | [] => throw (.noOpenConditional Opcode.endIf)

/-- Takes a truth value and fails unless it is true. -/
def verify (kind : VerifyKind) (op : Opcode) : Exec Unit := do
  let holds ← onStack Stack.popBool
  refuse (!holds) (.notVerified kind op)

/-- Fails if opcodes kept for later upgrades are discouraged. -/
def upgradableNop (op : Opcode) : Exec Unit := do
  let discouraged ← hasFlag Flags.discourageUpgradableNops
  refuse discouraged (.discouragedNop op)

/-- Where a script goes on after an instruction. -/
inductive Flow where
  /-- At the next instruction. -/
  | next
  /-- At the end of the script. -/
  | finish
  deriving DecidableEq, Repr

/-- Ends the script. Before the genesis upgrade that fails; afterwards the rest is skipped, at once
if no conditional is open. -/
def returnEarly : Exec Flow := do
  let setup ← setup
  refuse (!setup.afterGenesis) .returnedEarly
  modify fun state => { state with returned := true }
  let state ← get
  pure (if state.branches.isEmpty then .finish else .next)

end BitcoinSpend.Spend.Exec
