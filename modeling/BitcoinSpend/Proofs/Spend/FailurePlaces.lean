import BitcoinSpend.Proofs.Spend.StepOutcomes

/-!
# The place that a report names

A report of a failing step names the script of the chunk that the step came to, and
shows the machine as it was left. It names the chunk's index as well if the chunk itself
failed. The limits are checked once the chunk has been passed, so that a report of an
exceeded limit names the place behind the chunk.
-/

set_option autoImplicit false

namespace BitcoinSpend.Spend

/-- The report shows what the machine holds. -/
structure Failure.Shows (failure : Failure) (machine : Machine) : Prop where
  stack : failure.stack = machine.stack
  alt : failure.alt = machine.alt
  branches : failure.branches = machine.branches
  stackHeld : failure.stackHeld = machine.state.stack.held
  altHeld : failure.altHeld = machine.state.alt.held

private theorem Machine.shows_failure (machine : Machine) (fault : Fault) :
    (machine.failure fault).Shows machine :=
  ⟨rfl, rfl, rfl, rfl, rfl⟩

/-- How the place in a report relates to the chunk that the failing step came to. -/
inductive Machine.Places (machine : Machine) (visit : Visit) (failure : Failure) : Prop where
  /-- The chunk itself failed. -/
  | atChunk {state : State}
      (runs : machine.arrived.Runs visit.chunk (.error failure.fault state))
      (position : failure.position = visit.position)
  /-- The chunk was run and left the stacks beyond a limit. -/
  | behindChunk {state : State} (runs : machine.arrived.Runs visit.chunk (.ok .next state))
      (exceeds : (machine.arrived.passed .next state).Exceeds failure.fault)
      (position : failure.position = visit.position + 1)
  /-- The chunk ended the script with the stacks beyond a limit. -/
  | atEnd {state : State} (runs : machine.arrived.Runs visit.chunk (.ok .finish state))
      (exceeds : (machine.arrived.passed .finish state).Exceeds failure.fault)
      (position : failure.position = (machine.setup.script visit.phase).length)

namespace Machine

variable {machine left : Machine} {failure : Failure} {visit : Visit}

theorem Runs.visited {chunk : Chunk} {outcome : EStateM.Result Fault State Exec.Flow}
    (runs : machine.arrived.Runs chunk outcome) (visits : machine.visit? = some visit) :
    chunk = visit.chunk := by
  have visited := (place_of_visit visits).2.2.1
  rw [runs.here] at visited
  exact Option.some.inj visited

theorem reports_visited (visits : machine.visit? = some visit)
    (failed : machine.step = .error failure left) :
    failure.phase = visit.phase ∧
      visit.position < (machine.setup.script visit.phase).length ∧
      failure.Shows left ∧ machine.Places visit failure := by
  obtain ⟨phase, position, here, -⟩ := place_of_visit visits
  have setup := machine.arrived_keeps.1
  have inside : visit.position < (machine.setup.script visit.phase).length := by
    rw [phase, position, ← setup]
    exact position_lt_of_here here
  have outcome := step_outcome machine
  rw [failed] at outcome
  cases outcome with
  | leftOpen between isOpen =>
      -- The step has not come to a chunk.
      rw [arrived_of_open between isOpen] at here
      have begun := isBetween_eq_false (position_lt_of_here here)
      rw [between] at begun
      cases begun
  | refused runs =>
      cases runs.visited visits
      exact ⟨phase.symm, inside, shows_failure _ _, .atChunk runs position.symm⟩
  | @exceeded chunk flow state fault runs exceeds =>
      cases runs.visited visits
      refine ⟨phase.symm, inside, shows_failure _ _, ?_⟩
      cases flow with
      | next => exact .behindChunk runs exceeds (congrArg (· + 1) position.symm)
      | finish =>
          refine .atEnd runs exceeds ?_
          rw [phase, ← setup]
          rfl

end Machine

/-- A verification of a false item, as the first chunk of the locking script. -/
def verifiesFalse : Request where
  sourceTxid := Hash32.zero
  sourceIndex := 0
  unlocking := ⟨[0x51, 0x00]⟩
  locking := ⟨[0x69]⟩
  context := none
  inputIndex := 0
  flags := Flags.empty
  memoryLimit := 1

/-- The unlocking script has run. -/
def verifiesFalseReady : Machine :=
  { Machine.initial (verifiesFalse.setup [⟨0x51, none⟩, ⟨0x00, none⟩] [⟨0x69, none⟩]) with
    position := 2
    state := { State.initial ⟨4, false⟩ with stack := ⟨[[], [0x01]], 1, ⟨4, false⟩⟩ } }

/-- The step that leaves the unlocking script fails at the start of the locking script, with the
false item gone. -/
theorem verifiesFalse_reported : ∃ visit failure left,
    verifiesFalseReady.visit? = some visit ∧ verifiesFalseReady.step = .error failure left ∧
      visit.phase = .locking ∧ visit.position = 0 ∧ failure.stack = [[0x01]] ∧
      failure.phase = visit.phase ∧
      visit.position < (verifiesFalseReady.setup.script visit.phase).length ∧
      failure.Shows left ∧ verifiesFalseReady.Places visit failure := by
  have visits : ∃ visit, verifiesFalseReady.visit? = some visit ∧
      visit.phase = .locking ∧ visit.position = 0 := ⟨_, rfl, rfl, rfl⟩
  have fails : ∃ failure left, verifiesFalseReady.step = .error failure left ∧
      failure.stack = [[0x01]] := ⟨_, _, rfl, rfl⟩
  obtain ⟨visit, visits, phase, position⟩ := visits
  obtain ⟨failure, left, failed, stack⟩ := fails
  exact ⟨visit, failure, left, visits, failed, phase, position, stack,
    Machine.reports_visited visits failed⟩

/-- A push of one byte where none may be held. -/
def pushesBeyondMemory : Request where
  sourceTxid := Hash32.zero
  sourceIndex := 0
  unlocking := ⟨[0x51]⟩
  locking := ⟨[]⟩
  context := none
  inputIndex := 0
  flags := Flags.empty
  memoryLimit := 0

/-- The report of the exceeded limit names the end of the script and not the push before it. -/
theorem pushesBeyondMemory_misplaced : ∃ start visit failure left,
    pushesBeyondMemory.start = .ok start ∧ start.visit? = some visit ∧
      start.step = .error failure left ∧ visit.phase = .unlocking ∧ visit.position = 0 ∧
      failure.phase = .unlocking ∧ failure.position = 1 ∧
      ¬failure.position < (start.setup.script failure.phase).length := by
  have started : pushesBeyondMemory.start =
      .ok (Machine.initial (pushesBeyondMemory.setup [⟨0x51, none⟩] [])) := by cbv
  exact ⟨_, _, _, _, started, rfl, rfl, rfl, rfl, rfl, rfl, by decide⟩

end BitcoinSpend.Spend
