import BitcoinSpend.Proofs.Spend.PlainRun

/-!
# Operands of an opcode

An opcode takes its operands from the top of the main stack and leaves what is below
them, whether it puts a result there or fails.
-/

set_option autoImplicit false

namespace BitcoinSpend.Spend

/-- Runs an opcode without data, where it is not skipped. -/
def Exec.runOpcode (op : Opcode) : Exec Exec.Flow :=
  run (Instruction.ofOpcode op) (Chunk.ofOpcode op)

/-- The outcome is a failure of some class that leaves some state. -/
inductive Fails (code : FaultCode) (left : State) :
    EStateM.Result Fault State Exec.Flow → Prop where
  | fault {fault : Fault} (isOf : fault.code = code) : Fails code left (.error fault left)

/-- The state with other items on the main stack, bottom first. -/
def State.withItems (state : State) (items : List Bytes) : State :=
  { state with stack := Stack.ofItems state.stack.rule items.reverse }

namespace State

variable {state : State} {items : List Bytes}

theorem eq_withItems (holds : state.stack.Holds items) : state = state.withItems items := by
  have same := Stack.eq_ofItems_of_toList holds.counted holds.toList
  rw [withItems, ← same]

theorem holds_withItems : (state.withItems items).stack.Holds items :=
  Stack.holds_ofItems

end State

namespace Exec

variable {frame : Frame} {state : State} {below : List Bytes}

/-! ## Taking and putting an item -/

private theorem onStack_withItems {α : Type} {op : StackM α} {value : α} {items others : List Bytes}
    (ran : op (Stack.ofItems state.stack.rule items.reverse) =
      .ok value (Stack.ofItems state.stack.rule others.reverse)) :
    onStack op frame (state.withItems items) = .ok value (state.withItems others) :=
  onStack_of_ok ran

theorem pop_withItems (item : Bytes) :
    onStack Stack.pop frame (state.withItems (below ++ [item])) =
      .ok item (state.withItems below) := by
  refine onStack_withItems ?_
  rw [List.reverse_concat]
  exact Stack.pop_ofItems item

theorem popNumber_withItems {form : Bytes} {value : Int}
    (reads : ScriptNumber.decodeWithin state.stack.rule form = .ok value) :
    onStack Stack.popNumber frame (state.withItems (below ++ [form])) =
      .ok value (state.withItems below) := by
  refine onStack_withItems ?_
  rw [List.reverse_concat]
  exact Stack.popNumber_ofItems reads

theorem push_withItems (item : Bytes) :
    onStack (Stack.push item) frame (state.withItems below) =
      .ok () (state.withItems (below ++ [item])) := by
  refine onStack_withItems ?_
  rw [List.reverse_concat]
  exact Stack.push_ofItems item

/-! ## Running an instruction -/

theorem bind_get {α : Type} (rest : State → Exec α) (state : State) :
    (get >>= rest) frame state = rest state frame state := rfl

theorem runOpcode_of_ok {op : Opcode} {instruction : Instruction} {next : State}
    (means : Instruction.ofOpcode op = instruction) (other : instruction ≠ .returnEarly)
    (ran : runStraight instruction (Chunk.ofOpcode op) frame state = .ok () next) :
    runOpcode op frame state = .ok .next next := by
  rw [runOpcode, means]
  exact run_of_straight other ran

theorem runOpcode_fails {op : Opcode} {instruction : Instruction} {fault : Fault} {left : State}
    (means : Instruction.ofOpcode op = instruction) (other : instruction ≠ .returnEarly)
    (failed : runStraight instruction (Chunk.ofOpcode op) frame state = .error fault left) :
    Fails fault.code left (runOpcode op frame state) := by
  rw [runOpcode, means, run_of_fault other failed]
  exact .fault rfl

end Exec

/-- The start of a pair of scripts without chunks. -/
def Frame.bare (flags : Flags) (memoryLimit : Nat) : Frame where
  setup :=
    { sourceTxid := Hash32.zero
      sourceIndex := 0
      unlocking := []
      locking := []
      context := none
      inputIndex := 0
      flags := flags
      memoryLimit := memoryLimit }
  phase := .locking
  position := 0

/-- The state with some items on the main stack, bottom first, and nothing else. -/
def State.ofItems (rule : ScriptNumber.Rule) (items : List Bytes) : State :=
  (State.initial rule).withItems items

theorem State.consistent_ofItems (rule : ScriptNumber.Rule) (items : List Bytes) (bound : Nat) :
    (ofItems rule items).Consistent bound :=
  ⟨rfl, rfl, rfl, nofun⟩

end BitcoinSpend.Spend
