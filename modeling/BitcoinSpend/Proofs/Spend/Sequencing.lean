import BitcoinSpend.Spend.Validate

/-!
# Sequences of the interpreter

What comes later in a sequence runs where the part before it has left the state, and
a failure ends the sequence. A chunk is such a sequence: its checks refuse it, or they
let it pass and it is run or passed over. The machine checks its limits after each
chunk, and the result after the last one.
-/

set_option autoImplicit false

namespace BitcoinSpend.Spend

section

variable {ε σ α β : Type} {op : EStateM ε σ α} {rest : α → EStateM ε σ β} {state next : σ}

/-- A sequence goes on where its first part has left the state. -/
theorem bind_of_ok {value : α} (ran : op state = .ok value next) :
    (op >>= rest) state = rest value next := by
  simp only [bind, EStateM.bind, ran]

/-- A sequence fails as its first part does. -/
theorem bind_of_error {cause : ε} (failed : op state = .error cause next) :
    (op >>= rest) state = .error cause next := by
  simp only [bind, EStateM.bind, failed]

end

namespace Exec

variable {α β : Type} {frame : Frame} {state next : State}

/-! ## Operations of an instruction -/

theorem bind_of_ok {op : Exec α} {rest : α → Exec β} {value : α}
    (ran : op frame state = .ok value next) :
    (op >>= rest) frame state = rest value frame next :=
  Spend.bind_of_ok ran

theorem bind_of_error {op : Exec α} {rest : α → Exec β} {fault : Fault}
    (failed : op frame state = .error fault next) :
    (op >>= rest) frame state = .error fault next :=
  Spend.bind_of_error failed

theorem bind_setup (rest : Setup → Exec α) (state : State) :
    (setup >>= rest) frame state = rest frame.setup frame state := rfl

theorem refuse_bind_run (condition : Bool) (fault : Fault) (rest : Unit → Exec α)
    (state : State) : (refuse condition fault >>= rest) frame state =
      if condition then .error fault state else rest () frame state := by
  cases condition <;> rfl

theorem refuse_of_false {condition : Bool} {fault : Fault} (passed : condition = false) :
    (refuse condition fault : Exec Unit) frame state = .ok () state := by
  rw [passed]
  rfl

theorem ofExcept_of_ok {result : Except Fault α} {value : α} (found : result = .ok value) :
    (MonadExcept.ofExcept result : Exec α) frame state = .ok value state := by
  rw [found]
  rfl

theorem onStack_of_ok {op : StackM α} {value : α} {stack : Stack}
    (ran : op state.stack = .ok value stack) :
    onStack op frame state = .ok value { state with stack := stack } := by
  simp only [onStack, ran]

theorem isExecuting_run (frame : Frame) (state : State) :
    isExecuting frame state = .ok (state.isExecuting frame.setup) state := rfl

/-! ## One chunk -/

variable {chunk : Chunk}

theorem chunk_of_refused {fault : Fault}
    (refused : precheck (Instruction.ofOpcode chunk.op) chunk frame state = .error fault next) :
    Exec.chunk chunk frame state = .error fault next :=
  bind_of_error refused

theorem chunk_of_passed
    (passed : precheck (Instruction.ofOpcode chunk.op) chunk frame state = .ok () next) :
    Exec.chunk chunk frame state =
      (if next.isExecuting frame.setup || (Instruction.ofOpcode chunk.op).isConditional then
        run (Instruction.ofOpcode chunk.op) chunk
      else pure .next) frame next := by
  rw [Exec.chunk, bind_of_ok passed, bind_of_ok (isExecuting_run frame next)]

end Exec

/-! ## Moves of the machine -/

namespace Machine

variable {machine last : Machine}

theorem runCurrent_of_here {chunk : Chunk}
    (here : machine.script[machine.position]? = some chunk) :
    runCurrent machine = (do runChunk chunk; checkLimits : Move Unit) machine := by
  have unfinished := isFinished_eq_false (List.getElem?_eq_some_iff.mp here).1
  rw [runCurrent, if_neg (Bool.eq_false_iff.mp unfinished), here]

theorem validate_of_ended (ended : runToEnd machine = .ok () last) :
    validate machine = reporting requireResult last :=
  bind_of_ok ended

theorem validate_of_failed {failure : Failure} (failed : runToEnd machine = .error failure last) :
    validate machine = .error failure last :=
  bind_of_error failed

end Machine

end BitcoinSpend.Spend
