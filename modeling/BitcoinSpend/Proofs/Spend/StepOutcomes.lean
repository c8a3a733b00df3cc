import BitcoinSpend.Proofs.Spend.FailedCalls
import BitcoinSpend.Proofs.Spend.PlainRun

/-!
# What a step comes to

A step goes to the place of the next chunk, in the locking script if the unlocking
script is at its end, runs the chunk there and checks the limits. So it has five kinds
of outcome, and each tells what was run where and what that left.
-/

set_option autoImplicit false

namespace BitcoinSpend.Spend

/-! ## What a chunk comes to -/

namespace Exec

variable {frame : Frame} {state : State} {chunk : Chunk}

theorem precheck_run (instruction : Instruction) (chunk : Chunk) (frame : Frame) (state : State) :
    precheck instruction chunk frame state =
      if chunk.op ≤ Opcode.pushData4 ∧
          frame.setup.limits.maxElementSize < chunk.operand.length then
        .error (.pushTooBig chunk.operand.length frame.setup.limits.maxElementSize) state
      else if (frame.setup.afterGenesis = false ∨ state.isExecuting frame.setup = true) ∧
          instruction = .disabled then .error (.disabledOpcode chunk.op) state
      else if (frame.setup.afterGenesis = false ∨ state.isExecuting frame.setup = true) ∧
          instruction = .reservedConditional then .error (.reservedOpcode chunk.op) state
      else if Opcode.sixteen < chunk.op then countOps 1 frame state
      else .ok () state := by
  rw [precheck, bind_setup, refuse_bind_run, bind_of_ok (isExecuting_run frame state),
    refuse_bind_run, refuse_bind_run]
  simp only [Bool.and_eq_true, Bool.or_eq_true, Bool.not_eq_true', decide_eq_true_eq]
  by_cases counted : Opcode.sixteen < chunk.op
  · simp only [if_pos counted]
  · simp only [if_neg counted]
    rfl

/-- The checks before an instruction refuse the chunk or let it pass, and only count. -/
theorem precheck_cases (chunk : Chunk) (frame : Frame) (state : State) :
    (∃ fault count, precheck (Instruction.ofOpcode chunk.op) chunk frame state =
      .error fault (state.withCount count)) ∨
    precheck (Instruction.ofOpcode chunk.op) chunk frame state =
      .ok () (state.withCount (countAfter chunk state.opCount)) := by
  rw [precheck_run, countOps_run, countAfter]
  split_ifs
  · exact Or.inl ⟨_, state.opCount, rfl⟩
  · exact Or.inl ⟨_, state.opCount, rfl⟩
  · exact Or.inl ⟨_, state.opCount, rfl⟩
  · exact Or.inl ⟨_, _, rfl⟩
  · exact Or.inr rfl
  · exact Or.inr rfl

/-- A chunk is refused before it runs, or it is counted and then run or passed over. -/
theorem chunk_cases (chunk : Chunk) (frame : Frame) (state : State) :
    (runs chunk frame state = false ∧ ∃ fault count,
      Exec.chunk chunk frame state = .error fault (state.withCount count)) ∨
    Exec.chunk chunk frame state =
        (if runs chunk frame state then run (Instruction.ofOpcode chunk.op) chunk
        else pure .next) frame (state.withCount (countAfter chunk state.opCount)) ∧
      runs chunk frame state =
        (state.isExecuting frame.setup || (Instruction.ofOpcode chunk.op).isConditional) := by
  rcases precheck_cases chunk frame state with ⟨fault, count, failed⟩ | passed
  · exact Or.inl ⟨by simp only [runs, failed], fault, count, chunk_of_refused failed⟩
  · have running : runs chunk frame state =
        (state.isExecuting frame.setup || (Instruction.ofOpcode chunk.op).isConditional) := by
      simp only [runs, passed]
      rfl
    refine Or.inr ⟨?_, running⟩
    rw [running]
    exact chunk_of_passed passed

theorem chunk_of_runs (running : runs chunk frame state = true) :
    Exec.chunk chunk frame state = run (Instruction.ofOpcode chunk.op) chunk frame
      (state.withCount (countAfter chunk state.opCount)) := by
  rcases chunk_cases chunk frame state with ⟨refused, -⟩ | ⟨ran, -⟩
  · rw [refused] at running
    cases running
  · rw [ran, running, if_pos rfl]

theorem run_returnEarly (chunk : Chunk) (frame : Frame) (state : State) :
    run .returnEarly chunk frame state =
      if frame.setup.afterGenesis then
        .ok (if state.branches.isEmpty then .finish else .next) { state with returned := true }
      else .error .returnedEarly state := by
  rw [run, if_pos rfl, returnEarly, bind_setup, refuse_bind_run]
  cases frame.setup.afterGenesis <;> rfl

theorem chooseBranch_run (negated : Bool) (frame : Frame) (state : State) :
    chooseBranch negated frame state =
      (if state.isExecuting frame.setup then (do
        let condition ← popCondition
        pure (condition != negated))
      else pure false) frame state := rfl

theorem beginIf_eq_ok_iff {negated : Bool} {next : State} :
    beginIf negated frame state = .ok () next ↔
      ∃ taken chosen, chooseBranch negated frame state = .ok taken chosen ∧
        next = { chosen with
          branches := taken :: chosen.branches
          switched := false :: chosen.switched } := by
  rw [beginIf]
  simp only [bind, ReaderT.bind, EStateM.bind]
  constructor
  · intro began
    cases ran : chooseBranch negated frame state with
    | error fault left =>
        rw [ran] at began
        cases began
    | ok taken chosen =>
        rw [ran] at began
        cases began
        exact ⟨taken, chosen, rfl, rfl⟩
  · rintro ⟨taken, chosen, ran, rfl⟩
    rw [ran]
    rfl

theorem switchBranch_eq_ok_iff {next : State} :
    switchBranch frame state = .ok () next ↔
      ∃ taken outer outerSwitched, state.branches = taken :: outer ∧
        state.switched = false :: outerSwitched ∧
        next = { state with branches := (!taken) :: outer, switched := true :: outerSwitched } := by
  rcases state with ⟨stack, alt, branches, switches, separator, opCount, returned, queries⟩
  constructor
  · intro switched
    match branches, switches, switched with
    | taken :: outer, false :: outerSwitched, rfl =>
        exact ⟨taken, outer, outerSwitched, rfl, rfl, rfl⟩
  · rintro ⟨taken, outer, outerSwitched, rfl, rfl, rfl⟩
    rfl

theorem endIf_eq_ok_iff {next : State} :
    endIf frame state = .ok () next ↔
      ∃ taken outer, state.branches = taken :: outer ∧
        next = { state with branches := outer, switched := state.switched.tail } := by
  rcases state with ⟨stack, alt, branches, switches, separator, opCount, returned, queries⟩
  constructor
  · intro ended
    match branches, ended with
    | taken :: outer, rfl => exact ⟨taken, outer, rfl, rfl⟩
  · rintro ⟨taken, outer, rfl, rfl⟩
    rfl

theorem run_eq_ok {instruction : Instruction} {flow : Flow} {next : State}
    (straight : instruction ≠ .returnEarly)
    (ran : run instruction chunk frame state = .ok flow next) :
    flow = .next ∧ runStraight instruction chunk frame state = .ok () next := by
  rw [run, if_neg straight] at ran
  simp only [bind, ReaderT.bind, EStateM.bind] at ran
  cases opened : runStraight instruction chunk frame state with
  | error fault left =>
      rw [opened] at ran
      cases ran
  | ok _ middle =>
      rw [opened] at ran
      cases ran
      exact ⟨rfl, rfl⟩

end Exec

namespace Machine

/-- The machine after a chunk that was run, before the limits are checked. -/
def passed (machine : Machine) (flow : Exec.Flow) (state : State) : Machine :=
  { machine with
    state := state
    position :=
      match flow with
      | .next => machine.position + 1
      | .finish => machine.script.length }

/-- The stacks are beyond a limit, for which a fault is reported. -/
inductive Exceeds (machine : Machine) : Fault → Prop where
  | depth (deep : machine.setup.limits.maxStackSize <
        machine.state.stack.depth + machine.state.alt.depth) :
      Exceeds machine (.stackOverflow (machine.state.stack.depth + machine.state.alt.depth)
        machine.setup.limits.maxStackSize)
  | held (heavy : machine.setup.memoryLimit <
        machine.state.stack.held + machine.state.alt.held) :
      Exceeds machine (.memoryExceeded (machine.state.stack.held + machine.state.alt.held)
        machine.setup.memoryLimit)

/-- Both stacks together are within the limits. -/
structure InLimits (machine : Machine) : Prop where
  depth : machine.state.stack.depth + machine.state.alt.depth ≤ machine.setup.limits.maxStackSize
  held : machine.state.stack.held + machine.state.alt.held ≤ machine.setup.memoryLimit

/-- A chunk stands at the machine's place and is run there with an outcome. -/
structure Runs (place : Machine) (chunk : Chunk) (outcome : EStateM.Result Fault State Exec.Flow) :
    Prop where
  here : place.script[place.position]? = some chunk
  ran : Exec.chunk chunk place.frame place.state = outcome

/-- All that a step of a machine can come to. -/
inductive StepsAs (machine : Machine) : EStateM.Result Failure Machine Unit → Prop where
  /-- The unlocking script ends inside a conditional. -/
  | leftOpen (between : machine.isBetween = true) (isOpen : machine.state.branches ≠ []) :
      StepsAs machine (.error (machine.failure .openAtUnlockingEnd) machine)
  /-- No chunk is left. -/
  | ended (finished : machine.arrived.isFinished = true) :
      StepsAs machine (.ok () machine.arrived)
  /-- The chunk itself fails. -/
  | refused {chunk : Chunk} {fault : Fault} {state : State}
      (runs : machine.arrived.Runs chunk (.error fault state)) :
      StepsAs machine (.error ({ machine.arrived with state := state }.failure fault)
        { machine.arrived with state := state })
  /-- The chunk is run and leaves the stacks beyond a limit. -/
  | exceeded {chunk : Chunk} {flow : Exec.Flow} {state : State} {fault : Fault}
      (runs : machine.arrived.Runs chunk (.ok flow state))
      (exceeds : (machine.arrived.passed flow state).Exceeds fault) :
      StepsAs machine (.error ((machine.arrived.passed flow state).failure fault)
        (machine.arrived.passed flow state))
  | passed {chunk : Chunk} {flow : Exec.Flow} {state : State}
      (runs : machine.arrived.Runs chunk (.ok flow state))
      (inLimits : (machine.arrived.passed flow state).InLimits) :
      StepsAs machine (.ok () (machine.arrived.passed flow state))

variable {machine next left : Machine} {failure : Failure} {chunk : Chunk}

/-! ## Where a step goes -/

theorem arrived_of_begun (begun : machine.isBetween = false) : machine.arrived = machine := by
  rw [arrived, begun, if_neg Bool.false_ne_true]

private theorem arrived_of_between (between : machine.isBetween = true)
    (closed : machine.state.branches = []) : machine.arrived = machine.entered := by
  rw [arrived, if_pos between, enterLocking_of_closed closed]
  rfl

theorem arrived_of_open (between : machine.isBetween = true)
    (isOpen : machine.state.branches ≠ []) : machine.arrived = machine := by
  rw [arrived, if_pos between, enterLocking_of_open isOpen]
  rfl

theorem arrived_cases (machine : Machine) : machine.arrived = machine ∨
    machine.isBetween = true ∧ machine.state.branches = [] ∧
      machine.arrived = machine.entered := by
  cases between : machine.isBetween with
  | false => exact Or.inl (arrived_of_begun between)
  | true =>
      by_cases closed : machine.state.branches = []
      · exact Or.inr ⟨rfl, closed, arrived_of_between between closed⟩
      · exact Or.inl (arrived_of_open between closed)

/-- Where a step goes does not depend on what only goes along. -/
theorem arrived_change (change : Machine → Machine)
    (between : (change machine).isBetween = machine.isBetween)
    (branches : (change machine).state.branches = machine.state.branches)
    (enters : (change machine).entered = change machine.entered) :
    (change machine).arrived = change machine.arrived := by
  cases here : machine.isBetween with
  | false => rw [arrived_of_begun here, arrived_of_begun (between.trans here)]
  | true =>
      have there := between.trans here
      by_cases closed : machine.state.branches = []
      · rw [arrived_of_between here closed, arrived_of_between there (branches.trans closed),
          enters]
      · have isOpen : (change machine).state.branches ≠ [] := by rwa [branches]
        rw [arrived_of_open here closed, arrived_of_open there isOpen]

/-- Going to the locking script changes neither stacks nor conditionals. -/
theorem arrived_keeps (machine : Machine) :
    machine.arrived.setup = machine.setup ∧
      machine.arrived.state.stack = machine.state.stack ∧
      machine.arrived.state.alt = machine.state.alt ∧
      machine.arrived.state.branches = machine.state.branches ∧
      machine.arrived.state.queries = machine.state.queries := by
  rcases machine.arrived_cases with same | ⟨-, -, entered⟩
  · rw [same]
    exact ⟨rfl, rfl, rfl, rfl, rfl⟩
  · rw [entered]
    exact ⟨rfl, rfl, rfl, rfl, rfl⟩

/-- A step that comes to a place runs what stands there. -/
private theorem advance_of_arrived (begun : machine.arrived.isBetween = false) :
    advance machine = runCurrent machine.arrived := by
  cases between : machine.isBetween with
  | false => rw [arrived_of_begun between, advance_of_begun between]
  | true =>
      by_cases closed : machine.state.branches = []
      · rw [arrived_of_between between closed, advance_of_between between closed]
      · rw [arrived_of_open between closed, between] at begun
        cases begun

/-! ## What it does there -/

private theorem checkLimits_of_inLimits (inLimits : machine.InLimits) :
    checkLimits machine = .ok () machine := by
  simp only [checkLimits]
  rw [if_neg (Nat.not_lt.mpr inLimits.depth), if_neg (Nat.not_lt.mpr inLimits.held)]

private theorem checkLimits_cases (machine : Machine) :
    (∃ fault, machine.Exceeds fault ∧ checkLimits machine = .error fault machine) ∨
      machine.InLimits := by
  by_cases deep : machine.setup.limits.maxStackSize <
      machine.state.stack.depth + machine.state.alt.depth
  · exact Or.inl ⟨_, .depth deep, by simp only [checkLimits, if_pos deep]⟩
  · by_cases heavy : machine.setup.memoryLimit <
        machine.state.stack.held + machine.state.alt.held
    · exact Or.inl ⟨_, .held heavy, by simp only [checkLimits, if_neg deep, if_pos heavy]⟩
    · exact Or.inr ⟨Nat.le_of_not_lt deep, Nat.le_of_not_lt heavy⟩

theorem Exceeds.not_inLimits {fault : Fault} (exceeds : machine.Exceeds fault) :
    ¬machine.InLimits := by
  intro inLimits
  cases exceeds with
  | depth deep => exact absurd inLimits.depth (Nat.not_le.mpr deep)
  | held heavy => exact absurd inLimits.held (Nat.not_le.mpr heavy)

private theorem runCurrent_of_ran {place : Machine} {flow : Exec.Flow} {state : State}
    (runs : place.Runs chunk (.ok flow state)) :
    runCurrent place = checkLimits (place.passed flow state) := by
  have ran : Exec.chunk chunk ⟨place.setup, place.phase, place.position⟩ place.state =
      .ok flow state := runs.ran
  have moved : runChunk chunk place = .ok () (place.passed flow state) := by
    simp only [runChunk, ran]
    cases flow <;> rfl
  rw [runCurrent_of_here runs.here, bind_of_ok moved]

private theorem step_of_advanced (advanced : advance machine = .ok () next) :
    step machine = .ok () next := by
  simp only [step, reporting, advanced]

theorem step_of_passed {flow : Exec.Flow} {state : State}
    (runs : machine.arrived.Runs chunk (.ok flow state))
    (inLimits : (machine.arrived.passed flow state).InLimits) :
    step machine = .ok () (machine.arrived.passed flow state) := by
  have begun := isBetween_eq_false (position_lt_of_here runs.here)
  refine step_of_advanced ((advance_of_arrived begun).trans ?_)
  rw [runCurrent_of_ran runs, checkLimits_of_inLimits inLimits]

theorem step_of_ended (finished : machine.arrived.isFinished = true) :
    step machine = .ok () machine.arrived := by
  have locking : machine.arrived.phase = .locking := by
    simp only [isFinished, Bool.and_eq_true, decide_eq_true_eq] at finished
    exact finished.1
  have begun : machine.arrived.isBetween = false := by simp [isBetween, locking]
  refine step_of_advanced ((advance_of_arrived begun).trans ?_)
  rw [runCurrent, if_pos finished]

theorem step_of_fault {fault : Fault} {state : State}
    (runs : machine.arrived.Runs chunk (.error fault state)) :
    step machine = .error ({ machine.arrived with state := state }.failure fault)
      { machine.arrived with state := state } := by
  have begun := isBetween_eq_false (position_lt_of_here runs.here)
  refine step_of_failed_advance ((advance_of_arrived begun).trans ?_)
  exact runCurrent_of_refused runs.here runs.ran

theorem step_of_open (between : machine.isBetween = true) (isOpen : machine.state.branches ≠ []) :
    step machine = .error (machine.failure .openAtUnlockingEnd) machine := by
  refine step_of_failed_advance ?_
  rw [advance_eq, if_pos between, bind_of_error (enterLocking_of_open isOpen)]

theorem step_outcome (machine : Machine) : machine.StepsAs (step machine) := by
  cases between : machine.arrived.isBetween with
  | true =>
      -- The machine has not come out of the unlocking script, so that a conditional is open.
      rcases machine.arrived_cases with same | ⟨-, -, entered⟩
      · rw [same] at between
        have isOpen : machine.state.branches ≠ [] := by
          intro closed
          have entered := arrived_of_between between closed
          rw [← same, entered, isBetween_entered] at between
          cases between
        rw [step_of_open between isOpen]
        exact .leftOpen between isOpen
      · rw [entered, isBetween_entered] at between
        cases between
  | false =>
      cases finished : machine.arrived.isFinished with
      | true =>
          rw [step_of_ended finished]
          exact .ended finished
      | false =>
          have inside := position_lt_of_begun between finished
          have here := List.getElem?_eq_getElem inside
          have advanced := advance_of_arrived between
          cases ran : Exec.chunk machine.arrived.script[machine.arrived.position]
              machine.arrived.frame machine.arrived.state with
          | error fault state =>
              have runs : machine.arrived.Runs _ (.error fault state) := ⟨here, ran⟩
              rw [step_of_fault runs]
              exact .refused runs
          | ok flow state =>
              have runs : machine.arrived.Runs _ (.ok flow state) := ⟨here, ran⟩
              rw [runCurrent_of_ran runs] at advanced
              rcases checkLimits_cases (machine.arrived.passed flow state) with
                ⟨fault, exceeds, failed⟩ | inLimits
              · rw [step_of_failed_advance (advanced.trans failed)]
                exact .exceeded runs exceeds
              · rw [step_of_passed runs inLimits]
                exact .passed runs inLimits

/-- A step stays in the script where it arrives, and changes nothing that is fixed. -/
theorem left_step (machine : Machine) : (Outcome.left (step machine)).setup = machine.setup ∧
    (Outcome.left (step machine)).phase = machine.arrived.phase := by
  have setup := machine.arrived_keeps.1
  have outcome := step_outcome machine
  generalize step machine = result at outcome
  cases outcome with
  | leftOpen between isOpen => exact ⟨rfl, congrArg phase (arrived_of_open between isOpen).symm⟩
  | ended | refused | exceeded | passed => exact ⟨setup, rfl⟩

/-- A step visits a chunk where it arrives, unless it does not come out of the unlocking script. -/
theorem visit_eq (machine : Machine) : machine.visit? =
    if machine.arrived.isBetween then none else machine.arrived.visitHere? := by
  cases between : machine.isBetween with
  | false =>
      rw [visit?, arrived_of_begun between, between, if_neg Bool.false_ne_true,
        if_neg Bool.false_ne_true]
  | true =>
      rw [visit?, if_pos between]
      by_cases closed : machine.state.branches = []
      · rw [enterLocking_of_closed closed, arrived_of_between between closed,
          isBetween_entered, if_neg Bool.false_ne_true]
      · rw [enterLocking_of_open closed, arrived_of_open between closed, if_pos between]

theorem place_of_visit {visit : Visit} (visits : machine.visit? = some visit) :
    visit.phase = machine.arrived.phase ∧ visit.position = machine.arrived.position ∧
      machine.arrived.script[machine.arrived.position]? = some visit.chunk ∧
      visit.executed = Exec.runs visit.chunk machine.arrived.frame machine.arrived.state := by
  have arrives : machine.arrived.visitHere? = some visit := by
    rw [visit_eq] at visits
    split at visits
    · cases visits
    · exact visits
  simp only [visitHere?] at arrives
  split at arrives
  · cases arrives
  · rw [Option.map_eq_some_iff] at arrives
    obtain ⟨chunk, here, rfl⟩ := arrives
    exact ⟨rfl, rfl, here, rfl⟩

theorem visit_of_here (here : machine.arrived.script[machine.arrived.position]? = some chunk) :
    ∃ visit, machine.visit? = some visit ∧ visit.chunk = chunk ∧
      visit.executed = Exec.runs chunk machine.arrived.frame machine.arrived.state := by
  have inside := position_lt_of_here here
  rw [visit_eq, isBetween_eq_false inside, if_neg Bool.false_ne_true, visitHere?,
    isFinished_eq_false inside, here]
  exact ⟨_, rfl, rfl, rfl⟩

/-- What a return comes to that is run where a step arrives. -/
theorem runs_of_return {visit : Visit} (visits : machine.visit? = some visit)
    (executed : visit.executed = true) (returns : visit.chunk.op = Opcode.returnEarly) :
    ∃ count, machine.arrived.Runs visit.chunk
      (if machine.setup.afterGenesis then
        .ok (if machine.state.branches.isEmpty then .finish else .next)
          { machine.arrived.state.withCount count with returned := true }
      else .error .returnedEarly (machine.arrived.state.withCount count)) := by
  obtain ⟨setup, -, -, branches, -⟩ := machine.arrived_keeps
  obtain ⟨-, -, here, running⟩ := place_of_visit visits
  rw [executed] at running
  have instruction : Instruction.ofOpcode visit.chunk.op = .returnEarly := by
    rw [returns]
    rfl
  have ran := Exec.chunk_of_runs running.symm
  rw [instruction, Exec.run_returnEarly] at ran
  refine ⟨Exec.countAfter visit.chunk machine.arrived.state.opCount, here, ran.trans ?_⟩
  rw [← setup, ← branches]
  rfl

end Machine

end BitcoinSpend.Spend
