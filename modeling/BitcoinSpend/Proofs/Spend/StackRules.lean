import BitcoinSpend.Proofs.Spend.KeySearch
import BitcoinSpend.Proofs.Spend.Oblivious
import BitcoinSpend.Proofs.Spend.StepOutcomes

/-!
# The rule under which stacks read numbers

Both stacks of a machine read numbers under the rule that goes with its flags, whatever
has run and whatever has failed: no part of any instruction changes the rule of a stack.
-/

set_option autoImplicit false

namespace BitcoinSpend.Spend

open MonadExcept (ofExcept)

/-- The rules of the main and of the alternative stack. -/
def State.rules (state : State) : ScriptNumber.Rule × ScriptNumber.Rule :=
  (state.stack.rule, state.alt.rule)

/-- A part of an instruction leaves the rules of the stacks, also where it fails. -/
def Exec.KeepsRules {α : Type} (op : Exec α) : Prop :=
  ∀ (frame : Frame) (state : State), (Outcome.left (op frame state)).rules = state.rules

namespace Exec

namespace KeepsRules

variable {α β : Type}

theorem pure (value : α) : KeepsRules (Pure.pure value) :=
  fun _ _ => rfl

theorem throw (fault : Fault) : KeepsRules (throw fault : Exec α) :=
  fun _ _ => rfl

theorem get : KeepsRules (get : Exec State) :=
  fun _ _ => rfl

theorem read : KeepsRules (read : Exec Frame) :=
  fun _ _ => rfl

theorem setup : KeepsRules setup :=
  fun _ _ => rfl

theorem bind {op : Exec α} {next : α → Exec β} (first : KeepsRules op)
    (rest : ∀ value, KeepsRules (next value)) : KeepsRules (op >>= next) := by
  intro frame state
  have kept := first frame state
  simp only [Bind.bind, ReaderT.bind, EStateM.bind]
  cases ran : op frame state with
  | ok value middle =>
      rw [ran] at kept
      exact (rest value frame middle).trans kept
  | error fault left =>
      rw [ran] at kept
      exact kept

theorem modify {change : State → State} (keeps : ∀ state, (change state).rules = state.rules) :
    KeepsRules (modify change) :=
  fun _ state => keeps state

theorem refuse (condition : Bool) (fault : Fault) : KeepsRules (refuse condition fault) := by
  intro frame state
  cases condition <;> rfl

theorem ofExcept (result : Except Fault α) : KeepsRules (ofExcept result) := by
  intro frame state
  cases result <;> rfl

theorem requireContext (instruction : String) : KeepsRules (requireContext instruction) := by
  refine setup.bind fun setup => ?_
  cases setup.context with
  | none => exact throw _
  | some context => exact pure context

theorem ite {condition : Prop} [Decidable condition] {op other : Exec α}
    (positive : KeepsRules op) (negative : KeepsRules other) :
    KeepsRules (if condition then op else other) := by
  split
  · exact positive
  · exact negative

theorem onStack {op : StackM α} (keeps : Stack.KeepsRule op) : KeepsRules (onStack op) := by
  intro frame state
  have kept := keeps state.stack.rule state.stack rfl
  simp only [Exec.onStack]
  cases ran : op state.stack with
  | ok value stack =>
      rw [ran] at kept
      exact Prod.ext kept rfl
  | error fault stack =>
      rw [ran] at kept
      exact Prod.ext kept.1 rfl

theorem onAlt {op : StackM α} (keeps : Stack.KeepsRule op) : KeepsRules (onAlt op) := by
  intro frame state
  have kept := keeps state.alt.rule state.alt rfl
  simp only [Exec.onAlt]
  cases ran : op state.alt with
  | ok value stack =>
      rw [ran] at kept
      exact Prod.ext rfl kept
  | error fault stack =>
      rw [ran] at kept
      exact Prod.ext rfl kept.1

end KeepsRules

/-! ## Items and numbers -/

private theorem keepsRules_pop : KeepsRules (onStack Stack.pop) :=
  .onStack Stack.keepsRule_pop

private theorem keepsRules_popNumber : KeepsRules (onStack Stack.popNumber) :=
  .onStack Stack.keepsRule_popNumber

private theorem keepsRules_popBool : KeepsRules (onStack Stack.popBool) :=
  .onStack Stack.keepsRule_popBool

private theorem keepsRules_peek (index : Nat) : KeepsRules (onStack (Stack.peek index)) :=
  .onStack (Stack.keepsRule_peek index)

private theorem keepsRules_push (item : Bytes) : KeepsRules (onStack (Stack.push item)) :=
  .onStack (Stack.keepsRule_push item)

private theorem keepsRules_hasFlag (flag : Flags) : KeepsRules (hasFlag flag) :=
  KeepsRules.setup.bind fun _ => .pure _

/-! ## Conditionals and verification -/

private theorem keepsRules_isExecuting : KeepsRules isExecuting :=
  KeepsRules.setup.bind fun _ => KeepsRules.get.bind fun _ => .pure _

private theorem keepsRules_popCondition : KeepsRules popCondition := by
  refine (keepsRules_hasFlag _).bind fun minimal => .ite ?_ keepsRules_popBool
  refine keepsRules_pop.bind fun item => ?_
  split
  · exact .pure false
  · exact .ite (.pure true) (.throw _)
  · exact .throw _

private theorem keepsRules_beginIf (negated : Bool) : KeepsRules (beginIf negated) := by
  have chosen : KeepsRules (chooseBranch negated) :=
    keepsRules_isExecuting.bind fun _ =>
      .ite (keepsRules_popCondition.bind fun _ => .pure _) (.pure _)
  exact chosen.bind fun taken => .modify fun _ => rfl

private theorem keepsRules_switchBranch : KeepsRules switchBranch := by
  intro frame state
  rcases state with ⟨stack, alt, branches, switches, separator, opCount, returned, asked⟩
  cases branches with
  | nil => rfl
  | cons taken outer =>
      cases switches with
      | nil => rfl
      | cons switched outerSwitched => cases switched <;> rfl

private theorem keepsRules_endIf : KeepsRules endIf := by
  intro frame state
  rcases state with ⟨stack, alt, branches, switches, separator, opCount, returned, asked⟩
  cases branches <;> rfl

private theorem keepsRules_verify (kind : VerifyKind) (op : Opcode) : KeepsRules (verify kind op) :=
  keepsRules_popBool.bind fun _ => .refuse _ _

private theorem keepsRules_then_verify {op : Exec Unit} (keeps : KeepsRules op) (verifies : Bool)
    (kind : VerifyKind) (opcode : Opcode) :
    KeepsRules (do op; if verifies then verify kind opcode) :=
  keeps.bind fun _ => .ite (keepsRules_verify kind opcode) (.pure ())

private theorem keepsRules_upgradableNop (op : Opcode) : KeepsRules (upgradableNop op) :=
  (keepsRules_hasFlag _).bind fun _ => .refuse _ _

private theorem keepsRules_returnEarly : KeepsRules returnEarly := by
  refine KeepsRules.setup.bind fun _ => (KeepsRules.refuse _ _).bind fun _ => ?_
  exact .bind (.modify fun _ => rfl) fun _ => KeepsRules.get.bind fun _ => .pure _

/-! ## Numbers, strings and lock times -/

private theorem keepsRules_binary (op : Binary) : KeepsRules (binary op) := by
  refine keepsRules_popNumber.bind fun right => keepsRules_popNumber.bind fun left => ?_
  exact (KeepsRules.ofExcept _).bind fun value => keepsRules_push _

private theorem keepsRules_relation (op : Relation) : KeepsRules (relation op) :=
  keepsRules_popNumber.bind fun _ => keepsRules_popNumber.bind fun _ => keepsRules_push _

private theorem keepsRules_within : KeepsRules within := by
  refine keepsRules_popNumber.bind fun upper => keepsRules_popNumber.bind fun lower => ?_
  exact keepsRules_popNumber.bind fun value => keepsRules_push _

private theorem keepsRules_shift (direction : Direction) : KeepsRules (shift direction) := by
  refine keepsRules_popNumber.bind fun amount => keepsRules_pop.bind fun bytes => ?_
  refine (KeepsRules.refuse _ _).bind fun _ => .ite (keepsRules_push _) ?_
  exact (KeepsRules.ofExcept _).bind fun shifted => keepsRules_push _

private theorem keepsRules_popIndex : KeepsRules popIndex := by
  refine keepsRules_popNumber.bind fun index => KeepsRules.get.bind fun state => ?_
  exact (KeepsRules.refuse _ _).bind fun _ => .pure _

private theorem keepsRules_cat : KeepsRules cat := by
  refine KeepsRules.setup.bind fun setup => keepsRules_pop.bind fun right => ?_
  refine keepsRules_pop.bind fun left => ?_
  exact (KeepsRules.refuse _ _).bind fun _ => keepsRules_push _

private theorem keepsRules_split : KeepsRules split := by
  refine keepsRules_popNumber.bind fun position => keepsRules_pop.bind fun bytes => ?_
  refine (KeepsRules.refuse _ _).bind fun _ => (KeepsRules.refuse _ _).bind fun _ => ?_
  refine (KeepsRules.ofExcept _).bind fun tail => ?_
  exact (keepsRules_push _).bind fun _ => keepsRules_push tail

private theorem keepsRules_numToBin : KeepsRules numToBin := by
  refine KeepsRules.setup.bind fun setup => keepsRules_popNumber.bind fun size => ?_
  refine keepsRules_pop.bind fun bytes => (KeepsRules.refuse _ _).bind fun _ => ?_
  refine (KeepsRules.refuse _ _).bind fun _ => KeepsRules.get.bind fun state => ?_
  refine (KeepsRules.refuse _ _).bind fun _ => (KeepsRules.refuse _ _).bind fun _ => ?_
  refine .ite (keepsRules_push _) ?_
  exact (KeepsRules.ofExcept _).bind fun widened => keepsRules_push widened

private theorem keepsRules_binToNum : KeepsRules binToNum := by
  refine KeepsRules.setup.bind fun setup => keepsRules_pop.bind fun bytes => ?_
  exact (KeepsRules.refuse _ _).bind fun _ => keepsRules_push _

private theorem keepsRules_bitwise (op : Bitwise) : KeepsRules (bitwise op) := by
  refine keepsRules_pop.bind fun right => keepsRules_pop.bind fun left => ?_
  exact (KeepsRules.refuse _ _).bind fun _ => keepsRules_push _

private theorem keepsRules_equal : KeepsRules equal :=
  keepsRules_pop.bind fun _ => keepsRules_pop.bind fun _ => keepsRules_push _

private theorem keepsRules_peekLockTime (operand : String) : KeepsRules (peekLockTime operand) := by
  refine (keepsRules_peek 0).bind fun item => ?_
  refine .bind (.onStack (Stack.keepsRule_readNumber lockTimeLength item)) fun value => ?_
  exact (KeepsRules.refuse _ _).bind fun _ => .pure _

private theorem keepsRules_whereInForce (flag : Flags) (op : Opcode) {check : Exec Unit}
    (keeps : KeepsRules check) : KeepsRules (whereInForce flag op check) :=
  KeepsRules.setup.bind fun _ => .ite (keepsRules_upgradableNop op) keeps

private theorem keepsRules_checkLockTime : KeepsRules checkLockTime := by
  refine keepsRules_whereInForce _ _ (KeepsRules.setup.bind fun setup => ?_)
  refine (KeepsRules.requireContext _).bind fun context => ?_
  refine (keepsRules_peekLockTime _).bind fun required => ?_
  exact (KeepsRules.ofExcept _).bind fun _ => .refuse _ _

private theorem keepsRules_checkSequence : KeepsRules checkSequence := by
  refine keepsRules_whereInForce _ _ (KeepsRules.setup.bind fun setup => ?_)
  refine (KeepsRules.requireContext _).bind fun context => ?_
  refine (keepsRules_peekLockTime _).bind fun required => ?_
  refine .ite ((KeepsRules.refuse _ _).bind fun _ => ?_) (.pure ())
  exact (KeepsRules.refuse _ _).bind fun _ => .ofExcept _

/-! ## Signatures -/

private theorem keepsRules_countOps (count : Nat) : KeepsRules (countOps count) := by
  refine KeepsRules.setup.bind fun setup => .bind (.modify fun _ => rfl) fun _ => ?_
  exact KeepsRules.get.bind fun state => .refuse _ _

private theorem keepsRules_popKeys : KeepsRules popKeys := by
  refine KeepsRules.setup.bind fun setup => keepsRules_popNumber.bind fun count => ?_
  refine (KeepsRules.refuse _ _).bind fun _ => KeepsRules.get.bind fun state => ?_
  refine (KeepsRules.refuse _ _).bind fun _ => (keepsRules_countOps _).bind fun _ => ?_
  exact .onStack (Stack.keepsRule_popMany _)

private theorem keepsRules_popSignatures (keyCount : Nat) :
    KeepsRules (popSignatures keyCount) := by
  refine keepsRules_popNumber.bind fun count => (KeepsRules.refuse _ _).bind fun _ => ?_
  exact .onStack (Stack.keepsRule_popMany _)

private theorem keepsRules_signingScript (signatures : List Bytes) (isForkId : Bool) :
    KeepsRules (signingScript signatures isForkId) :=
  KeepsRules.read.bind fun _ => KeepsRules.get.bind fun _ => .ofExcept _

/-- A question is recorded beside the stacks, whatever the answer. -/
private theorem keepsRules_ask (context : TxContext) (query : SignatureQuery) :
    KeepsRules (ask context query) :=
  fun _ _ => rfl

private theorem keepsRules_checkOne (context : TxContext) (signature key : Bytes)
    (script : Script) :
    KeepsRules (checkOne context signature key script) := by
  simp only [checkOne]
  split
  · exact .pure false
  · refine KeepsRules.setup.bind fun setup => (KeepsRules.ofExcept _).bind fun _ => ?_
    refine (KeepsRules.ofExcept _).bind fun _ => (KeepsRules.ofExcept _).bind fun _ => ?_
    exact keepsRules_ask context _

private theorem keepsRules_checkSig : KeepsRules checkSig := by
  refine keepsRules_pop.bind fun key => keepsRules_pop.bind fun signature => ?_
  refine .ite (keepsRules_push _) ((KeepsRules.requireContext _).bind fun context => ?_)
  refine KeepsRules.setup.bind fun setup => (KeepsRules.ofExcept _).bind fun last => ?_
  refine (KeepsRules.ofExcept _).bind fun hashType => ?_
  refine (keepsRules_signingScript _ _).bind fun script => ?_
  refine (keepsRules_checkOne context signature key script).bind fun valid => ?_
  exact (KeepsRules.refuse _ _).bind fun _ => keepsRules_push _

private theorem keepsRules_matchSignatures (context : TxContext) (script : Script)
    (keys signatures : List Bytes) :
    KeepsRules (matchSignatures context script keys signatures) :=
  matchSignatures_of_closed KeepsRules .pure (fun signature key _ keeps =>
    (keepsRules_checkOne context signature key script).bind keeps) keys signatures

private theorem keepsRules_checkMultiSig : KeepsRules checkMultiSig := by
  refine KeepsRules.setup.bind fun setup => keepsRules_popKeys.bind fun keys => ?_
  refine (keepsRules_popSignatures _).bind fun signatures => keepsRules_pop.bind fun dummy => ?_
  refine (KeepsRules.refuse _ _).bind fun _ => .ite (keepsRules_push _) ?_
  refine (KeepsRules.requireContext _).bind fun context => ?_
  refine (keepsRules_signingScript _ _).bind fun script => ?_
  refine (keepsRules_matchSignatures context script keys signatures).bind fun valid => ?_
  exact (KeepsRules.refuse _ _).bind fun _ => keepsRules_push _

/-! ## Chunks -/

private theorem keepsRules_pushChunk (chunk : Chunk) : KeepsRules (pushChunk chunk) := by
  refine (keepsRules_hasFlag _).bind fun minimal => (KeepsRules.refuse _ _).bind fun _ => ?_
  split
  · exact keepsRules_push _
  · exact .pure ()

private theorem keepsRules_runStraight (instruction : Instruction) (chunk : Chunk) :
    KeepsRules (runStraight instruction chunk) := by
  cases instruction with
  | push => exact keepsRules_pushChunk chunk
  | nop | returnEarly => exact .pure ()
  | upgradableNop => exact keepsRules_upgradableNop _
  | beginIf negated => exact keepsRules_beginIf negated
  | switchBranch => exact keepsRules_switchBranch
  | endIf => exact keepsRules_endIf
  | verify => exact keepsRules_verify _ _
  | checkLockTime => exact keepsRules_checkLockTime
  | checkSequence => exact keepsRules_checkSequence
  | toAlt => exact keepsRules_pop.bind fun item => .onAlt (Stack.keepsRule_push item)
  | fromAlt => exact .bind (.onAlt Stack.keepsRule_pop) fun item => keepsRules_push item
  | dropBlock count => exact .onStack (Stack.keepsRule_dropBlock count)
  | dupBlock count => exact .onStack (Stack.keepsRule_dupBlock count)
  | overBlock count => exact .onStack (Stack.keepsRule_overBlock count)
  | rotBlock count => exact .onStack (Stack.keepsRule_rotBlock count)
  | swapBlock count => exact .onStack (Stack.keepsRule_swapBlock count)
  | dupIfTrue => exact (keepsRules_peek 0).bind fun item => .ite (keepsRules_push item) (.pure ())
  | depth => exact KeepsRules.get.bind fun _ => keepsRules_push _
  | nip => exact .bind (.onStack (Stack.keepsRule_remove 1)) fun _ => .pure ()
  | pick => exact keepsRules_popIndex.bind fun index => .onStack (Stack.keepsRule_pick index)
  | roll => exact keepsRules_popIndex.bind fun index => .onStack (Stack.keepsRule_roll index)
  | tuck => exact .onStack Stack.keepsRule_tuck
  | cat => exact keepsRules_cat
  | split => exact keepsRules_split
  | numToBin => exact keepsRules_numToBin
  | binToNum => exact keepsRules_binToNum
  | size => exact (keepsRules_peek 0).bind fun _ => keepsRules_push _
  | invert => exact keepsRules_pop.bind fun _ => keepsRules_push _
  | bitwise operation => exact keepsRules_bitwise operation
  | equal verifies => exact keepsRules_then_verify keepsRules_equal verifies _ _
  | unary operation => exact keepsRules_popNumber.bind fun _ => keepsRules_push _
  | binary operation => exact keepsRules_binary operation
  | relation operation => exact keepsRules_relation operation
  | numEqualVerify => exact (keepsRules_relation .equal).bind fun _ => keepsRules_verify _ _
  | within => exact keepsRules_within
  | shift direction => exact keepsRules_shift direction
  | digest algorithm => exact keepsRules_pop.bind fun _ => keepsRules_push _
  | codeSeparator => exact KeepsRules.read.bind fun _ => .modify fun _ => rfl
  | checkSig verifies => exact keepsRules_then_verify keepsRules_checkSig verifies _ _
  | checkMultiSig verifies => exact keepsRules_then_verify keepsRules_checkMultiSig verifies _ _
  | disabled | reservedConditional | reserved | unassigned => exact .throw _

private theorem keepsRules_precheck (instruction : Instruction) (chunk : Chunk) :
    KeepsRules (precheck instruction chunk) := by
  refine KeepsRules.setup.bind fun setup => (KeepsRules.refuse _ _).bind fun _ => ?_
  refine keepsRules_isExecuting.bind fun executing => (KeepsRules.refuse _ _).bind fun _ => ?_
  exact (KeepsRules.refuse _ _).bind fun _ => .ite (keepsRules_countOps 1) (.pure ())

private theorem keepsRules_chunk (chunk : Chunk) : KeepsRules (Exec.chunk chunk) := by
  have ran (instruction : Instruction) : KeepsRules (run instruction chunk) :=
    .ite keepsRules_returnEarly ((keepsRules_runStraight instruction chunk).bind fun _ => .pure _)
  refine (keepsRules_precheck _ chunk).bind fun _ => keepsRules_isExecuting.bind fun _ => ?_
  exact .ite (ran _) (.pure _)

end Exec

/-! ## Machines -/

/-- Both stacks read numbers under the rule that goes with the flags. -/
def Machine.Ruled (machine : Machine) : Prop :=
  machine.state.rules = (machine.setup.numberRule, machine.setup.numberRule)

namespace Machine

variable {machine : Machine}

theorem Ruled.arrived (ruled : machine.Ruled) : machine.arrived.Ruled := by
  obtain ⟨setup, stack, alt, -, -⟩ := machine.arrived_keeps
  rw [Ruled, State.rules, setup, stack, alt]
  exact ruled

private theorem Ruled.of_runs {chunk : Chunk} {outcome : EStateM.Result Fault State Exec.Flow}
    (ruled : machine.Ruled) (runs : machine.Runs chunk outcome) :
    (Outcome.left outcome).rules = (machine.setup.numberRule, machine.setup.numberRule) := by
  rw [← runs.ran]
  exact (Exec.keepsRules_chunk chunk machine.frame machine.state).trans ruled

theorem Ruled.step (ruled : machine.Ruled) : (Outcome.left (step machine)).Ruled := by
  have outcome := step_outcome machine
  generalize Machine.step machine = result at outcome
  cases outcome with
  | leftOpen => exact ruled
  | ended => exact ruled.arrived
  | refused runs => exact ruled.arrived.of_runs runs
  | exceeded runs => exact ruled.arrived.of_runs runs
  | passed runs => exact ruled.arrived.of_runs runs

end Machine

/-- No call changes the rules, whether it succeeds or fails. -/
theorem Request.Reaches.ruled {request : Request} {machine : Machine}
    (reached : request.Reaches machine) : machine.Ruled := by
  refine reached.induction (fun machine started => ?_) fun machine ruled => ruled.step
  obtain ⟨unlocking, locking, -, -, rfl⟩ := Request.eq_initial_of_start started
  rfl

end BitcoinSpend.Spend
