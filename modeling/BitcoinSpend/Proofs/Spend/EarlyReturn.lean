import BitcoinSpend.Proofs.Spend.SkippedCode
import BitcoinSpend.Proofs.Spend.StepOutcomes

/-!
# After an early return

After the genesis upgrade a script that returns inside conditionals is not left at
once. The rest of it is passed over: conditionals are tracked and operations counted,
but nothing else changes until the script ends, also where a later switch or end of a
conditional leaves every branch taken. The locking script starts as if there had been
no return.
-/

set_option autoImplicit false

namespace BitcoinSpend.Spend

/-- The classes of failure that are left to a script that has returned. -/
inductive FaultCode.AfterReturn : FaultCode → Prop where
  | elementTooBig : AfterReturn .elementTooBig
  | tooManyOperations : AfterReturn .tooManyOperations
  | unbalancedConditional : AfterReturn .unbalancedConditional

/-- A state in which the script has returned, with all but the conditionals and the count of
operations as it was in an earlier state. -/
structure State.Returned (origin state : State) : Prop where
  returned : state.returned = true
  stack : state.stack = origin.stack
  alt : state.alt = origin.alt
  separator : state.separator = origin.separator
  queries : state.queries = origin.queries

/-- What a conditional that is passed over comes to. -/
inductive State.Tracks (state : State) : EStateM.Result Fault State Exec.Flow → Prop where
  | changed (branches switched : List Bool) :
      Tracks state (.ok .next { state with branches := branches, switched := switched })
  | refused (op : Opcode) : Tracks state (.error (.noOpenConditional op) state)

def Frame.withContext (frame : Frame) (context : Option TxContext) : Frame :=
  { frame with setup := { frame.setup with context := context } }

/-- An outcome with a change made to what it leaves. -/
def Outcome.onLeft {ε σ τ α : Type} (change : σ → τ) :
    EStateM.Result ε σ α → EStateM.Result ε τ α
  | .ok value next => .ok value (change next)
  | .error cause next => .error cause (change next)

/-! ## One chunk -/

theorem State.Returned.skips {origin state : State} (since : origin.Returned state)
    {setup : Setup} (genesis : setup.afterGenesis = true) : state.isExecuting setup = false := by
  simp [State.isExecuting, genesis, since.returned]

private theorem Setup.Refuses.afterReturn {setup : Setup} {opCount : Nat} {chunk : Chunk}
    {fault : Fault}
    (refuses : setup.Refuses opCount chunk fault) (genesis : setup.afterGenesis = true) :
    fault.code.AfterReturn := by
  rcases refuses.code with same | same | ⟨before, -⟩
  · rw [same]
    exact .elementTooBig
  · rw [same]
    exact .tooManyOperations
  · rw [genesis] at before
    cases before

namespace Exec

variable {frame : Frame} {origin state : State} {instruction : Instruction}

/-- What a conditional does that is passed over is the same in every place. -/
private theorem run_tracks (conditional : instruction.isConditional = true) (chunk : Chunk)
    (state : State) : ∃ outcome, state.Tracks outcome ∧
      ∀ frame : Frame, state.isExecuting frame.setup = false →
        run instruction chunk frame state = outcome := by
  cases instruction with
  | beginIf negated =>
      refine ⟨_, .changed (false :: state.branches) (false :: state.switched), ?_⟩
      intro frame skips
      have chosen : chooseBranch negated frame state = .ok false state :=
        bind_of_ok (isExecuting_of_skips skips)
      exact run_of_straight nofun (bind_of_ok chosen)
  | switchBranch =>
      rcases state with ⟨stack, alt, branches, switches, separator, opCount, returned, queries⟩
      cases branches with
      | nil => exact ⟨_, .refused Opcode.otherwise, fun _ _ => rfl⟩
      | cons taken outer =>
          cases switches with
          | nil => exact ⟨_, .refused Opcode.otherwise, fun _ _ => rfl⟩
          | cons switched outerSwitched =>
              cases switched with
              | true => exact ⟨_, .refused Opcode.otherwise, fun _ _ => rfl⟩
              | false =>
                  exact ⟨_, .changed ((!taken) :: outer) (true :: outerSwitched), fun _ _ => rfl⟩
  | endIf =>
      rcases state with ⟨stack, alt, branches, switches, separator, opCount, returned, queries⟩
      cases branches with
      | nil => exact ⟨_, .refused Opcode.endIf, fun _ _ => rfl⟩
      | cons taken outer => exact ⟨_, .changed outer switches.tail, fun _ _ => rfl⟩
  | _ => cases conditional

private theorem chunk_of_returned (genesis : frame.setup.afterGenesis = true)
    (since : origin.Returned state) (chunk : Chunk) :
    Outcome.Keeps origin.Returned (fun fault => fault.code.AfterReturn)
      (Exec.chunk chunk frame state) := by
  rcases precheck_of_skips (since.skips genesis) chunk with
    ⟨fault, count, refuses, failed⟩ | passed
  · rw [chunk_of_refused failed]
    exact ⟨{ since with }, refuses.afterReturn genesis⟩
  · have counted : origin.Returned (state.withCount (countAfter chunk state.opCount)) :=
      { since with }
    rw [chunk_of_passed passed, counted.skips genesis, Bool.false_or]
    split
    · next conditional =>
        obtain ⟨outcome, tracks, ran⟩ := run_tracks conditional chunk
          (state.withCount (countAfter chunk state.opCount))
        rw [ran frame (counted.skips genesis)]
        cases tracks with
        | changed branches switched => exact { counted with }
        | refused op => exact ⟨counted, .unbalancedConditional⟩
    · exact counted

/-- A chunk that is passed over does not ask the transaction. -/
private theorem chunk_withContext (skips : state.isExecuting frame.setup = false) (chunk : Chunk)
    (context : Option TxContext) :
    Exec.chunk chunk (frame.withContext context) state = Exec.chunk chunk frame state := by
  have checked : precheck (Instruction.ofOpcode chunk.op) chunk (frame.withContext context) state =
      precheck (Instruction.ofOpcode chunk.op) chunk frame state := by
    rw [precheck_run, precheck_run, countOps_run, countOps_run]
    rfl
  rcases precheck_of_skips skips chunk with ⟨fault, count, -, failed⟩ | passed
  · rw [chunk_of_refused failed, chunk_of_refused (checked.trans failed)]
  · have counted : (state.withCount (countAfter chunk state.opCount)).isExecuting frame.setup =
        false := skips
    have counted' : (state.withCount (countAfter chunk state.opCount)).isExecuting
        (frame.withContext context).setup = false := skips
    rw [chunk_of_passed passed, chunk_of_passed (checked.trans passed), counted, counted',
      Bool.false_or]
    split
    · next conditional =>
        obtain ⟨outcome, -, ran⟩ := run_tracks conditional chunk
          (state.withCount (countAfter chunk state.opCount))
        rw [ran frame counted, ran (frame.withContext context) counted']
    · rfl

end Exec

/-! ## Steps in the same script -/

namespace Machine

def withContext (machine : Machine) (context : Option TxContext) : Machine :=
  { machine with setup := { machine.setup with context := context } }

/-- A machine in a script that has returned at a place. -/
structure Frozen (place machine : Machine) : Prop where
  setup : machine.setup = place.setup
  phase : machine.phase = place.phase
  state : place.state.Returned machine.state

/-- A step leaves the next machine, whether it succeeds or fails. -/
def LeadsTo (machine next : Machine) : Prop :=
  Outcome.left (step machine) = next

/-- The start of the locking script with the stacks of a place. -/
def lockingStart (place : Machine) : Machine :=
  { place with
    phase := .locking
    position := 0
    state := { place.state with
      branches := []
      switched := []
      separator := none
      opCount := 0
      returned := false } }

/-- How a validation ends in a script that has returned: a chunk of the rest is refused, or the
final checks are made on what the return left. -/
inductive JudgedAsFrozen (place : Machine) : EStateM.Result Failure Machine Unit → Prop where
  | refused {failure : Failure} {left : Machine} (frozen : place.Frozen left)
      (code : failure.fault.code.AfterReturn) : JudgedAsFrozen place (.error failure left)
  | judged {last : Machine} (frozen : place.Frozen last) (finished : last.isFinished = true) :
      JudgedAsFrozen place (reporting requireResult last)

variable {place machine next after : Machine}

private theorem phase_of_isBetween (between : machine.isBetween = true) :
    machine.phase = .unlocking := by
  simp only [isBetween, Bool.and_eq_true, decide_eq_true_eq] at between
  exact between.1

/-- A step that stays in its script comes to a chunk where the machine is, if it comes to one. -/
private theorem arrived_of_phase (stays : machine.arrived.phase = machine.phase) :
    machine.arrived = machine := by
  rcases machine.arrived_cases with same | ⟨between, -, entered⟩
  · exact same
  · rw [entered, phase_of_isBetween between] at stays
    cases stays

private theorem arrived_phase_of_locking (locking : machine.phase = .locking) :
    machine.arrived.phase = .locking := by
  have begun : machine.isBetween = false := by simp [isBetween, locking]
  rw [arrived_of_begun begun, locking]

private theorem arrived_withContext (machine : Machine) (context : Option TxContext) :
    (machine.withContext context).arrived = machine.arrived.withContext context :=
  arrived_change (withContext · context) rfl rfl rfl

private theorem Runs.withContext {chunk : Chunk} {outcome : EStateM.Result Fault State Exec.Flow}
    (runs : machine.Runs chunk outcome)
    (skips : machine.state.isExecuting machine.setup = false) (context : Option TxContext) :
    (machine.withContext context).Runs chunk outcome where
  here := runs.here
  ran := by
    have skipsHere : machine.state.isExecuting machine.frame.setup = false := skips
    exact (Exec.chunk_withContext skipsHere chunk context).trans runs.ran

namespace Frozen

theorem inLimits (frozen : place.Frozen machine) (room : place.InLimits) : machine.InLimits where
  depth := by
    rw [frozen.state.stack, frozen.state.alt, frozen.setup]
    exact room.depth
  held := by
    rw [frozen.state.stack, frozen.state.alt, frozen.setup]
    exact room.held

variable (genesis : place.setup.afterGenesis = true) (room : place.InLimits)
include genesis room

omit room in
theorem passed (frozen : place.Frozen machine) {chunk : Chunk} {flow : Exec.Flow} {state : State}
    (runs : machine.Runs chunk (.ok flow state)) : place.Frozen (machine.passed flow state) := by
  have here : machine.frame.setup.afterGenesis = true := by
    rw [← frozen.setup] at genesis
    exact genesis
  have kept := Exec.chunk_of_returned here frozen.state chunk
  rw [runs.ran] at kept
  exact ⟨frozen.setup, frozen.phase, kept⟩

/-- A step in the same script changes neither stack, so that no limit is exceeded. -/
theorem keeps_step (frozen : place.Frozen machine) (arrives : machine.arrived = machine) :
    Outcome.Keeps place.Frozen (fun failure => failure.fault.code.AfterReturn)
      (step machine) := by
  have here : place.Frozen machine.arrived := by rwa [arrives]
  have outcome := step_outcome machine
  generalize step machine = result at outcome ⊢
  cases outcome with
  | leftOpen => exact ⟨frozen, .unbalancedConditional⟩
  | ended => exact here
  | @refused chunk fault state runs =>
      have after : machine.arrived.frame.setup.afterGenesis = true := by
        rw [← here.setup] at genesis
        exact genesis
      have kept := Exec.chunk_of_returned after here.state chunk
      rw [runs.ran] at kept
      exact ⟨⟨here.setup, here.phase, kept.1⟩, kept.2⟩
  | exceeded runs exceeds =>
      exact absurd ((here.passed genesis runs).inLimits room) exceeds.not_inLimits
  | passed runs => exact here.passed genesis runs

/-- A step in the same script comes to the same in every transaction. -/
private theorem step_withContext (frozen : place.Frozen machine)
    (arrives : machine.arrived = machine)
    (context : Option TxContext) : step (machine.withContext context) =
      Outcome.onLeft (withContext · context) (step machine) := by
  have here : place.Frozen machine.arrived := by rwa [arrives]
  have skips : machine.arrived.state.isExecuting machine.arrived.setup = false := by
    rw [← here.setup] at genesis
    exact here.state.skips genesis
  have moved : ∀ {chunk outcome}, machine.arrived.Runs chunk outcome →
      (machine.withContext context).arrived.Runs chunk outcome := by
    intro chunk outcome runs
    rw [arrived_withContext]
    exact runs.withContext skips context
  have outcome := step_outcome machine
  generalize step machine = result at outcome ⊢
  cases outcome with
  | leftOpen between isOpen =>
      have between' : (machine.withContext context).isBetween = true := between
      exact step_of_open between' isOpen
  | ended finished =>
      rw [Outcome.onLeft, ← arrived_withContext]
      refine step_of_ended ?_
      rw [arrived_withContext]
      exact finished
  | refused runs =>
      rw [step_of_fault (moved runs), arrived_withContext]
      rfl
  | exceeded runs exceeds =>
      exact absurd ((here.passed genesis runs).inLimits room) exceeds.not_inLimits
  | @passed chunk flow state runs within =>
      have within' : ((machine.withContext context).arrived.passed flow state).InLimits := by
        rw [arrived_withContext]
        exact ⟨within.depth, within.held⟩
      rw [step_of_passed (moved runs) within', arrived_withContext]
      rfl

theorem left_step (frozen : place.Frozen machine) :
    place.Frozen (Outcome.left (step machine)) ∨
      place.phase = .unlocking ∧ (Outcome.left (step machine)).phase = .locking := by
  rcases machine.arrived_cases with arrives | ⟨between, -, entered⟩
  · exact Or.inl (Outcome.left_of_keeps (frozen.keeps_step genesis room arrives))
  · right
    have unlocking := frozen.phase
    rw [phase_of_isBetween between] at unlocking
    refine ⟨unlocking.symm, (Machine.left_step machine).2.trans ?_⟩
    rw [entered]
    rfl

/-- The script stays as the return left it until the locking script begins. -/
private theorem of_leadsTo (frozen : place.Frozen after)
    (later : Relation.ReflTransGen LeadsTo after machine) :
    place.Frozen machine ∨ place.phase = .unlocking ∧ machine.phase = .locking := by
  induction later with
  | refl => exact Or.inl frozen
  | tail _ last still =>
      cases last
      rcases still with frozen | ⟨unlocking, locking⟩
      · exact frozen.left_step genesis room
      · exact Or.inr ⟨unlocking, (Machine.left_step _).2.trans (arrived_phase_of_locking locking)⟩

/-- Validation from inside the locking script judges what the return left. -/
private theorem judges_validate (locking : place.phase = .locking) (frozen : place.Frozen machine) :
    place.JudgedAsFrozen (validate machine) := by
  induction machine using runToEnd.induct with
  | case1 machine finished =>
      rw [validate_of_ended (runToEnd_of_finished finished)]
      exact .judged frozen finished
  | case2 machine unfinished next stepped _ ih =>
      have begun : machine.isBetween = false := by
        simp [isBetween, frozen.phase.trans locking]
      have kept := frozen.keeps_step genesis room (arrived_of_begun begun)
      rw [stepped] at kept
      rw [validate_of_runToEnd (runToEnd_of_step unfinished stepped)]
      exact ih kept
  | case3 machine unfinished failure next stepped =>
      have begun : machine.isBetween = false := by
        simp [isBetween, frozen.phase.trans locking]
      have kept := frozen.keeps_step genesis room (arrived_of_begun begun)
      rw [stepped] at kept
      rw [validate_of_failed (runToEnd_of_failed_step unfinished stepped)]
      exact .refused kept.1 kept.2

omit genesis room in
/-- The locking script starts as if the unlocking script had ended at the return. -/
theorem entered_eq (frozen : place.Frozen machine) (consistent : machine.Consistent)
    (closed : machine.state.branches = []) : machine.entered = place.lockingStart := by
  have switched : machine.state.switched = [] := by
    have paired := consistent.state.paired
    rw [closed, List.length_nil] at paired
    exact List.length_eq_zero_iff.mp paired.symm
  have setup := frozen.setup
  obtain ⟨-, stack, alt, -, queries⟩ := frozen.state
  rcases machine with ⟨_, _, _, state⟩
  rcases state with ⟨_, _, _, _, _, _, _, _⟩
  cases setup
  cases stack
  cases alt
  cases queries
  cases closed
  cases switched
  rfl

end Frozen

theorem InLimits.arrived (inLimits : machine.InLimits) : machine.arrived.InLimits := by
  obtain ⟨setup, stack, alt, -, -⟩ := machine.arrived_keeps
  refine ⟨?_, ?_⟩
  · rw [setup, stack, alt]
    exact inLimits.depth
  · rw [setup, stack, alt]
    exact inLimits.held

/-- The step that runs a return succeeds. -/
theorem step_of_return {visit : Visit} (visits : machine.visit? = some visit)
    (executed : visit.executed = true) (returns : visit.chunk.op = Opcode.returnEarly)
    (genesis : machine.setup.afterGenesis = true) (inLimits : machine.InLimits) :
    ∃ next, machine.StepsTo next ∧ machine.arrived.Frozen next := by
  obtain ⟨count, runs⟩ := runs_of_return visits executed returns
  rw [if_pos genesis] at runs
  exact ⟨_, step_of_passed runs ⟨inLimits.arrived.depth, inLimits.arrived.held⟩,
    rfl, rfl, rfl, rfl, rfl, rfl, rfl⟩

private theorem consistent_of_leadsTo (consistent : after.Consistent)
    (later : Relation.ReflTransGen LeadsTo after machine) : machine.Consistent := by
  induction later with
  | refl => exact consistent
  | tail _ last still =>
      cases last
      exact Outcome.left_of_keeps (keeps_step _ still)

end Machine

namespace Request

private theorem afterGenesis_effectiveFlags (request : Request) :
    request.effectiveFlags.has Flags.afterGenesis = request.flags.has Flags.afterGenesis := by
  simp only [effectiveFlags]
  split
  · have disjoint : Flags.afterGenesis.inter Flags.strictEncoding = Flags.empty := by decide
    exact Flags.has_union_of_disjoint disjoint _
  · rfl

theorem inLimits_of_steps {request : Request} {start machine : Machine}
    (started : request.start = .ok start)
    (steps : Relation.ReflTransGen Machine.StepsTo start machine) : machine.InLimits := by
  obtain ⟨unlocking, locking, -, -, rfl⟩ := eq_initial_of_start started
  have limited := Machine.limited_of_steps (Machine.limited_initial _) steps
  rw [← limited.fixed] at limited
  exact ⟨limited.depth, limited.held⟩

theorem setup_of_steps {request : Request} {start machine : Machine}
    (started : request.start = .ok start)
    (steps : Relation.ReflTransGen Machine.StepsTo start machine) :
    ∃ unlocking locking, request.readScript .unlocking request.unlocking = .ok unlocking ∧
      request.readScript .locking request.locking = .ok locking ∧
      machine.setup = request.setup unlocking locking := by
  obtain ⟨unlocking, locking, readUnlocking, readLocking, rfl⟩ := eq_initial_of_start started
  have limited := Machine.limited_of_steps (Machine.limited_initial _) steps
  exact ⟨unlocking, locking, readUnlocking, readLocking, limited.fixed⟩

/-- After a return that was run in a script, the steps that stay in the script keep it as the return
left it, and the locking script starts anew. -/
theorem frozen_of_return {request : Request} {start before : Machine} {visit : Visit}
    (started : request.start = .ok start)
    (genesis : request.flags.has Flags.afterGenesis = true)
    (steps : Relation.ReflTransGen Machine.StepsTo start before)
    (visits : before.visit? = some visit) (executed : visit.executed = true)
    (returns : visit.chunk.op = Opcode.returnEarly) :
    ∃ after, before.StepsTo after ∧
      (visit.phase = .locking → before.arrived.JudgedAsFrozen start.validate) ∧
      ∀ machine, Relation.ReflTransGen Machine.LeadsTo after machine →
        machine.phase = visit.phase →
        before.arrived.Frozen machine ∧
        (machine.arrived.phase = visit.phase →
          Outcome.Keeps before.arrived.Frozen (fun failure => failure.fault.code.AfterReturn)
              machine.step ∧
            ∀ context, (machine.withContext context).step =
              Outcome.onLeft (Machine.withContext · context) machine.step) ∧
        (machine.arrived.phase ≠ visit.phase →
          machine.step = before.arrived.lockingStart.step ∧
            before.arrived.lockingStart.state.isExecuting before.setup = true) := by
  have consistent := Machine.consistent_of_steps steps (consistent_of_start started)
  have inLimits := inLimits_of_steps started steps
  have genesisBefore : before.setup.afterGenesis = true := by
    obtain ⟨unlocking, locking, -, -, setup⟩ := setup_of_steps started steps
    rw [setup]
    exact request.afterGenesis_effectiveFlags.trans genesis
  have genesisHere : before.arrived.setup.afterGenesis = true := by
    rwa [before.arrived_keeps.1]
  have room := inLimits.arrived
  have phase := (Machine.place_of_visit visits).1
  obtain ⟨after, stepped, frozen⟩ :=
    Machine.step_of_return visits executed returns genesisBefore inLimits
  refine ⟨after, stepped, ?_, ?_⟩
  · intro inLocking
    rw [Machine.validate_of_runToEnd (Machine.runToEnd_of_steps (steps.tail stepped))]
    exact frozen.judges_validate genesisHere room (phase.symm.trans inLocking)
  · intro machine later samePhase
    have still : before.arrived.Frozen machine := by
      rcases frozen.of_leadsTo genesisHere room later with still | ⟨unlocking, locking⟩
      · exact still
      · rw [locking, phase, unlocking] at samePhase
        cases samePhase
    refine ⟨still, ?_, ?_⟩
    · intro stays
      have arrives := Machine.arrived_of_phase (stays.trans samePhase.symm)
      exact ⟨still.keeps_step genesisHere room arrives,
        still.step_withContext genesisHere room arrives⟩
    · intro leaves
      obtain ⟨between, closed, -⟩ := machine.arrived_cases.resolve_left fun same =>
        leaves ((congrArg Machine.phase same).trans samePhase)
      have consistentNow := Machine.consistent_of_leadsTo
        (Machine.consistent_of_steps (.single stepped) consistent) later
      rw [Machine.step_of_between between closed, still.entered_eq consistentNow closed]
      refine ⟨rfl, ?_⟩
      simp [State.isExecuting, State.branchesTaken, Machine.lockingStart]

/-- A return inside a conditional, before a switch to the other branch and a verification that
would fail. -/
def returnsInBranch : Request where
  sourceTxid := Hash32.zero
  sourceIndex := 0
  unlocking := ⟨[0x51, 0x51]⟩
  locking := ⟨[0x63, 0x6a, 0x67, 0x00, 0x69, 0x68, 0x69]⟩
  context := none
  inputIndex := 0
  flags := Flags.afterGenesis
  memoryLimit := 100

private def branchStart : Machine :=
  Machine.initial (returnsInBranch.setup [⟨0x51, none⟩, ⟨0x51, none⟩]
    [⟨0x63, none⟩, ⟨0x6a, none⟩, ⟨0x67, none⟩, ⟨0x00, none⟩, ⟨0x69, none⟩, ⟨0x68, none⟩,
      ⟨0x69, none⟩])

/-- The branch is taken, and the return comes next. -/
private def branchTaken : Machine :=
  { branchStart with
    phase := .locking
    position := 1
    state := { branchStart.state with
      stack := ⟨[[0x01]], 1, branchStart.setup.numberRule⟩
      branches := [true]
      switched := [false]
      opCount := 1 } }

/-- The true item below the condition stays on the stack. -/
theorem returnsInBranch_frozen : ∃ start before visit after,
    returnsInBranch.start = .ok start ∧
    Relation.ReflTransGen Machine.StepsTo start before ∧ before.branches = [true] ∧
    before.visit? = some visit ∧ visit.executed = true ∧ visit.chunk.op = Opcode.returnEarly ∧
    before.StepsTo after ∧ before.arrived.JudgedAsFrozen start.validate ∧
    ∀ machine, Relation.ReflTransGen Machine.LeadsTo after machine → machine.phase = .locking →
      machine.stack = [[0x01]] := by
  have started : returnsInBranch.start = .ok branchStart := by cbv
  have ran : Machine.stepMany 3 branchStart = .ok () branchTaken := rfl
  have steps := Machine.steps_of_stepMany ran
  have genesis : returnsInBranch.flags.has Flags.afterGenesis = true := by decide
  have visits : ∃ visit, branchTaken.visit? = some visit ∧ visit.executed = true ∧
      visit.chunk.op = Opcode.returnEarly ∧ visit.phase = .locking := ⟨_, rfl, rfl, rfl, rfl⟩
  obtain ⟨visit, visits, executed, returns, phase⟩ := visits
  obtain ⟨after, stepped, judged, later⟩ :=
    frozen_of_return started genesis steps visits executed returns
  refine ⟨_, _, visit, after, started, steps, rfl, visits, executed, returns, stepped,
    judged phase, ?_⟩
  intro machine reached locking
  have frozen := (later machine reached (locking.trans phase.symm)).1
  rw [Machine.stack, frozen.state.stack]
  rfl

end Request

end BitcoinSpend.Spend
