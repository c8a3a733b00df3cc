import BitcoinSpend.Proofs.Chunk.OpenConditionals
import BitcoinSpend.Proofs.Spend.CheckedRuns
import BitcoinSpend.Proofs.Spend.ItemsBeneath

/-!
# Conditionals open in a run

A run never has more conditionals open than were counted when the script was split. So
a return to which the rest of the script was given as data is never come to inside a
conditional, and nothing of that rest is run.
-/

set_option autoImplicit false

namespace BitcoinSpend.Spend

open Chunk (depthAfter openBefore)

/-! ## One chunk -/

namespace Instruction

private theorem opens_of_beginIf {op : Opcode} {negated : Bool}
    (begins : ofOpcode op = .beginIf negated) (depth : Nat) : depthAfter op depth = depth + 1 := by
  have same : op = Opcode.ifTrue ∨ op = Opcode.ifFalse := by
    unfold ofOpcode at begins
    split at begins
    · cases begins
    · split at begins
      · cases begins
      · split at begins <;> first | exact Or.inl rfl | exact Or.inr rfl | cases begins
  rcases same with rfl | rfl <;> rfl

private theorem closes_of_endIf {op : Opcode} (ends : ofOpcode op = .endIf) (depth : Nat) :
    depthAfter op depth = depth - 1 := by
  have same : op = Opcode.endIf := by
    unfold ofOpcode at ends
    split at ends
    · cases ends
    · split at ends
      · cases ends
      · split at ends <;> first | rfl | cases ends
  subst same
  rfl

private theorem le_depthAfter_of_plain {op : Opcode} (plain : (ofOpcode op).isConditional = false)
    (depth : Nat) : depth ≤ depthAfter op depth := by
  refine Chunk.le_depthAfter ?_ depth
  rintro rfl
  cases plain

end Instruction

namespace Exec

variable {frame : Frame} {state next : State} {chunk : Chunk}

private theorem branches_of_straight {instruction : Instruction}
    (straight : instruction.isConditional = false)
    (ran : runStraight instruction chunk frame state = .ok () next) :
    next.branches = state.branches := by
  by_cases other : instruction = .depth
  · subst other
    cases ran
    rfl
  · exact (nesting_of_blind (fun _ => blind_runStraight straight other chunk) ran).1

/-- Conditionals open and close in a run as they are counted. -/
private theorem branches_of_conditional {instruction : Instruction}
    (conditional : instruction.isConditional = true)
    (asks : Instruction.ofOpcode chunk.op = instruction)
    (ran : runStraight instruction chunk frame state = .ok () next) :
    next.branches.length ≤ depthAfter chunk.op state.branches.length := by
  cases instruction with
  | beginIf negated =>
      obtain ⟨taken, chosen, chose, rfl⟩ := beginIf_eq_ok_iff.mp ran
      rw [chooseBranch_run] at chose
      have same := (nesting_of_blind (fun _ => blind_choice _ negated) chose).1
      rw [Instruction.opens_of_beginIf asks, ← same]
      exact Nat.le_refl _
  | switchBranch =>
      obtain ⟨taken, outer, outerSwitched, branches, -, rfl⟩ := switchBranch_eq_ok_iff.mp ran
      have other : chunk.op ≠ Opcode.endIf := by
        intro ends
        rw [ends] at asks
        cases asks
      have kept := Chunk.le_depthAfter other state.branches.length
      rw [branches] at kept ⊢
      exact kept
  | endIf =>
      obtain ⟨taken, outer, branches, rfl⟩ := endIf_eq_ok_iff.mp ran
      rw [Instruction.closes_of_endIf asks, branches]
      exact Nat.le_refl _
  | _ => cases conditional

private theorem branches_of_run {flow : Flow}
    (ran : run (Instruction.ofOpcode chunk.op) chunk frame state = .ok flow next) :
    next.branches.length ≤ depthAfter chunk.op state.branches.length ∧
      (flow = .finish → next.branches = []) := by
  by_cases returns : Instruction.ofOpcode chunk.op = .returnEarly
  · have plain : (Instruction.ofOpcode chunk.op).isConditional = false := by
      rw [returns]
      rfl
    rw [returns, run_returnEarly] at ran
    split at ran
    · cases ran
      refine ⟨Instruction.le_depthAfter_of_plain plain _, fun finishes => ?_⟩
      split at finishes
      · next closed => exact List.isEmpty_iff.mp closed
      · cases finishes
    · cases ran
  · obtain ⟨rfl, straight⟩ := run_eq_ok returns ran
    refine ⟨?_, fun finishes => ?_⟩
    · cases conditional : (Instruction.ofOpcode chunk.op).isConditional with
      | true => exact branches_of_conditional conditional rfl straight
      | false =>
          rw [branches_of_straight conditional straight]
          exact Instruction.le_depthAfter_of_plain conditional _
    · cases finishes

/-- A chunk that is come past opens at most what is counted, and ends the script outside
conditionals only. -/
private theorem branches_of_chunk {flow : Flow}
    (ran : Exec.chunk chunk frame state = .ok flow next) :
    next.branches.length ≤ depthAfter chunk.op state.branches.length ∧
      (flow = .finish → next.branches = []) := by
  rcases chunk_cases chunk frame state with ⟨-, fault, count, failed⟩ | ⟨passed, running⟩
  · rw [failed] at ran
    cases ran
  · rw [passed] at ran
    cases executed : runs chunk frame state with
    | true =>
        rw [executed, if_pos rfl] at ran
        exact (branches_of_run ran :)
    | false =>
        rw [executed] at running
        have plain := (Bool.or_eq_false_iff.mp running.symm).2
        rw [executed, if_neg Bool.false_ne_true] at ran
        cases ran
        refine ⟨Instruction.le_depthAfter_of_plain plain _, fun finishes => ?_⟩
        cases finishes

end Exec

/-! ## Runs -/

namespace Machine

/-- No more conditionals are open than were counted before the machine's place. -/
def Counted (machine : Machine) : Prop :=
  machine.state.branches.length ≤ openBefore machine.script machine.position

variable {start machine next : Machine}

theorem Counted.arrived (counted : machine.Counted) : machine.arrived.Counted := by
  rcases machine.arrived_cases with same | ⟨-, closed, entered⟩
  · rwa [same]
  · have none : machine.entered.state.branches = [] := closed
    rw [entered, Counted, none]
    exact Nat.zero_le _

theorem Counted.passed (counted : machine.Counted) {chunk : Chunk} {flow : Exec.Flow}
    {state : State} (runs : machine.Runs chunk (.ok flow state)) :
    (machine.passed flow state).Counted := by
  obtain ⟨opened, finished⟩ := Exec.branches_of_chunk runs.ran
  cases flow with
  | next =>
      refine Nat.le_trans opened ?_
      have counts := Chunk.openBefore_succ runs.here
      refine Nat.le_trans (Chunk.depthAfter_mono counted) ?_
      exact Nat.le_of_eq counts.symm
  | finish =>
      have none : (machine.passed .finish state).state.branches = [] := finished rfl
      rw [Counted, none]
      exact Nat.zero_le _

theorem Counted.step (counted : machine.Counted) (stepped : machine.StepsTo next) :
    next.Counted := by
  have outcome := step_outcome machine
  rw [stepped] at outcome
  cases outcome with
  | ended => exact counted.arrived
  | passed runs => exact counted.arrived.passed runs

private theorem counted_of_steps (counted : start.Counted)
    (steps : Relation.ReflTransGen StepsTo start machine) : machine.Counted := by
  induction steps with
  | refl => exact counted
  | tail _ last still => exact still.step last

/-- A step comes to a chunk of the machine's script. -/
theorem Counted.visited (counted : machine.Counted) {visit : Visit}
    (visits : machine.visit? = some visit) :
    (machine.setup.script visit.phase)[visit.position]? = some visit.chunk ∧
      machine.state.branches.length ≤
        openBefore (machine.setup.script visit.phase) visit.position := by
  obtain ⟨setup, -, -, branches, -⟩ := machine.arrived_keeps
  obtain ⟨phase, position, here, -⟩ := place_of_visit visits
  rw [phase, position, ← setup, ← branches]
  exact ⟨here, counted.arrived⟩

/-- A step past the last chunk of a script comes to its end. -/
private theorem position_of_last {visit : Visit} (visits : machine.visit? = some visit)
    (last : visit.position + 1 = (machine.setup.script visit.phase).length)
    (stepped : machine.StepsTo next) :
    next.phase = visit.phase ∧ next.position = (machine.setup.script visit.phase).length := by
  obtain ⟨setup, -, -, -, -⟩ := machine.arrived_keeps
  obtain ⟨phase, position, here, -⟩ := place_of_visit visits
  rw [position] at last
  rw [phase, ← setup] at last ⊢
  have outcome := step_outcome machine
  rw [stepped] at outcome
  cases outcome with
  | ended finished =>
      rw [isFinished_eq_false (position_lt_of_here here)] at finished
      cases finished
  | @passed chunk flow state runs =>
      refine ⟨rfl, ?_⟩
      cases flow with
      | next => exact last
      | finish => rfl

end Machine

namespace Request

variable {request : Request} {start machine : Machine}

private theorem chunks_of_steps (started : request.start = .ok start)
    (steps : Relation.ReflTransGen Machine.StepsTo start machine) (phase : Phase) :
    (request.script phase).chunks = .ok (machine.setup.script phase) := by
  obtain ⟨unlocking, locking, readUnlocking, readLocking, setup⟩ := setup_of_steps started steps
  rw [setup]
  cases phase with
  | unlocking => exact chunks_of_readScript readUnlocking
  | locking => exact chunks_of_readScript readLocking

/-- A run has no more conditionals open before a chunk than were counted before it, so that a
return with data ends its script wherever it is come to. -/
theorem open_le_counted (started : request.start = .ok start)
    (steps : Relation.ReflTransGen Machine.StepsTo start machine) :
    machine.state.branches.length ≤ openBefore machine.script machine.position ∧
    ∀ visit, machine.visit? = some visit →
      Chunk.ReadsTo 0 0 (request.script visit.phase).bytes visit.position
          (openBefore (machine.setup.script visit.phase) visit.position) ∧
        machine.state.branches.length ≤
          openBefore (machine.setup.script visit.phase) visit.position ∧
        (visit.chunk.op = Opcode.returnEarly → visit.chunk.data ≠ none →
          machine.state.branches = [] ∧
          (∀ next, machine.StepsTo next → next.phase = visit.phase ∧
            next.position = (machine.setup.script visit.phase).length) ∧
          (visit.executed = true → machine.setup.afterGenesis = true →
            ∃ next, machine.StepsTo next) ∧
          (visit.executed = true → machine.setup.afterGenesis = false →
            ∃ failure left, machine.step = .error failure left ∧
              failure.fault.code = .earlyReturn)) := by
  have counted : machine.Counted := by
    refine Machine.counted_of_steps ?_ steps
    obtain ⟨unlocking, locking, -, -, rfl⟩ := eq_initial_of_start started
    exact Nat.zero_le _
  refine ⟨counted, fun visit visits => ?_⟩
  have decoded := chunks_of_steps started steps visit.phase
  obtain ⟨here, countedHere⟩ := counted.visited visits
  have inside := (List.getElem?_eq_some_iff.mp here).1
  refine ⟨Chunk.readsTo_of_decodeFrom decoded inside, countedHere, fun returns hasData => ?_⟩
  obtain ⟨inOrder, -⟩ := Script.chunks_eq_ok_iff.mp decoded
  obtain ⟨none, last⟩ := inOrder.of_returnData here returns hasData
  refine ⟨?_, ?_, ?_, ?_⟩
  · rw [openBefore, none] at countedHere
    exact List.length_eq_zero_iff.mp (Nat.le_zero.mp countedHere)
  · exact fun next stepped => Machine.position_of_last visits last stepped
  · intro executed genesis
    obtain ⟨next, stepped, -⟩ := Machine.step_of_return visits executed returns genesis
      (inLimits_of_steps started steps)
    exact ⟨next, stepped⟩
  · intro executed before
    obtain ⟨count, runs⟩ := Machine.runs_of_return visits executed returns
    rw [before, if_neg Bool.false_ne_true] at runs
    exact ⟨_, _, Machine.step_of_fault runs, rfl⟩

/-- A conditional without instructions, and a return before the bytes of half a conditional. -/
def returnsWithData : Request where
  sourceTxid := Hash32.zero
  sourceIndex := 0
  unlocking := ⟨[0x51]⟩
  locking := ⟨[0x63, 0x68, 0x6a, 0x63, 0x69]⟩
  context := none
  inputIndex := 0
  flags := Flags.afterGenesis
  memoryLimit := 1

private def dataStart : Machine :=
  Machine.initial (returnsWithData.setup [⟨0x51, none⟩]
    [⟨0x63, none⟩, ⟨0x68, none⟩, ⟨0x6a, some [0x63, 0x69]⟩])

/-- The conditional has been closed. -/
private def dataNext : Machine :=
  { dataStart with
    phase := .locking
    position := 2
    state := { dataStart.state with opCount := 2 } }

theorem returnsWithData_ends : ∃ start machine visit next,
    returnsWithData.start = .ok start ∧ Relation.ReflTransGen Machine.StepsTo start machine ∧
    machine.visit? = some visit ∧ visit.executed = true ∧ visit.chunk.data = some [0x63, 0x69] ∧
    machine.state.branches = [] ∧ machine.StepsTo next ∧ next.position = 3 := by
  have started : returnsWithData.start = .ok dataStart := by cbv
  have ran : Machine.stepMany 3 dataStart = .ok () dataNext := rfl
  have steps := Machine.steps_of_stepMany ran
  have visits : ∃ visit, dataNext.visit? = some visit ∧ visit.executed = true ∧
      visit.chunk = ⟨0x6a, some [0x63, 0x69]⟩ ∧ visit.phase = .locking := ⟨_, rfl, rfl, rfl, rfl⟩
  obtain ⟨visit, visits, executed, chunk, phase⟩ := visits
  have returns : visit.chunk.op = Opcode.returnEarly := by
    rw [chunk]
    rfl
  have hasData : visit.chunk.data ≠ none := by
    rw [chunk]
    intro none
    cases none
  have genesis : dataNext.setup.afterGenesis = true := by decide
  obtain ⟨-, -, ends⟩ := (open_le_counted started steps).2 visit visits
  obtain ⟨closed, ending, succeeds, -⟩ := ends returns hasData
  obtain ⟨next, stepped⟩ := succeeds executed genesis
  obtain ⟨-, position⟩ := ending next stepped
  refine ⟨_, _, visit, next, started, steps, visits, executed, congrArg Chunk.data chunk, closed,
    stepped, ?_⟩
  rw [position, phase]
  rfl

end Request

end BitcoinSpend.Spend
