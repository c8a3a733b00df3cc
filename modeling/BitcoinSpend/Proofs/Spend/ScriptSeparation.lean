import Mathlib.Logic.Relation
import BitcoinSpend.Proofs.Spend.Boundary
import BitcoinSpend.Proofs.Spend.ObliviousInstructions
import BitcoinSpend.Proofs.Spend.RelaxedRun
import BitcoinSpend.Proofs.Spend.Visits

/-!
# The locking script sees the stacks alone

Once the unlocking script has run, it matters only through the items that it left
on the two stacks. Two unlocking scripts that leave the same items give the same
result, and the same report if the locking script fails.
-/

set_option autoImplicit false

namespace BitcoinSpend.Spend

private theorem Stack.eq_of_toList {stack stack' : Stack} (same : stack'.toList = stack.toList)
    (counted : stack.Counted) (counted' : stack'.Counted) (rule : stack'.rule = stack.rule) :
    stack' = stack := by
  have items : stack'.items = stack.items := List.reverse_inj.mp same
  have held : stack'.held = stack.held := by
    rw [show stack'.held = totalLength stack'.items from counted',
      show stack.held = totalLength stack.items from counted, items]
  rcases stack with ⟨_, _, _⟩
  rcases stack' with ⟨_, _, _⟩
  cases items
  cases held
  cases rule
  rfl

/-- Machines that differ at most in an unlocking script that has run and in the questions asked so
far, with stacks that read numbers under the rule in force. -/
structure Machine.SameView (machine machine' : Machine) : Prop where
  differs : ∃ unlocking queries, machine' = { machine with
    setup := { machine.setup with unlocking := unlocking }
    state := { machine.state with queries := queries } }
  script : machine'.script = machine.script
  memoryless : ∀ context, machine.setup.context = some context → context.IsMemoryless
  stack : machine.state.stack.rule = machine.setup.numberRule
  alt : machine.state.alt.rule = machine.setup.numberRule

namespace Machine

variable {machine machine' : Machine}

theorem SameView.frame (view : machine.SameView machine') :
    machine.frame.SameView machine'.frame := by
  have script : machine'.frame.script = machine.frame.script := view.script
  obtain ⟨unlocking, queries, rfl⟩ := view.differs
  exact ⟨⟨unlocking, rfl⟩, script, view.memoryless⟩

theorem SameView.state (view : machine.SameView machine') :
    State.SameView machine.setup.numberRule machine.state machine'.state := by
  obtain ⟨unlocking, queries, rfl⟩ := view.differs
  exact ⟨⟨queries, rfl⟩, view.stack, view.alt⟩

theorem SameView.isFinished (view : machine.SameView machine') :
    machine'.isFinished = machine.isFinished := by
  obtain ⟨unlocking, queries, rfl⟩ := view.differs
  rfl

theorem SameView.phase (view : machine.SameView machine') : machine'.phase = machine.phase := by
  obtain ⟨unlocking, queries, rfl⟩ := view.differs
  rfl

theorem SameView.position (view : machine.SameView machine') :
    machine'.position = machine.position := by
  obtain ⟨unlocking, queries, rfl⟩ := view.differs
  rfl

/-- An unlocking script that is running is the same in both machines. -/
theorem SameView.isBetween (view : machine.SameView machine') :
    machine'.isBetween = machine.isBetween := by
  have script := view.script
  simp only [Machine.isBetween, Machine.script, view.phase, view.position] at script ⊢
  cases place : machine.phase with
  | unlocking =>
      rw [place] at script
      rw [show machine'.setup.unlocking = machine.setup.unlocking from script]
  | locking => rfl

theorem SameView.failure (view : machine.SameView machine') (fault : Fault) :
    machine'.failure fault = machine.failure fault := by
  obtain ⟨unlocking, queries, rfl⟩ := view.differs
  rfl

/-- The views stay the same when both machines get states with one view and one place. -/
theorem SameView.move (view : machine.SameView machine') {state state' : State}
    (same : State.SameView machine.setup.numberRule state state') (position : Nat) :
    SameView { machine with state := state, position := position }
      { machine' with state := state', position := position } := by
  have script := view.script
  obtain ⟨unlocking, queries, rfl⟩ := view.differs
  obtain ⟨asked, rfl⟩ := same.asked
  exact ⟨⟨unlocking, asked, rfl⟩, script, view.memoryless, same.stack, same.alt⟩

private theorem inStep_runChunk (chunk : Chunk) :
    InStep SameView (runChunk chunk) (runChunk chunk) := by
  intro machine machine' view
  have outcomes := Exec.oblivious_chunk chunk view.frame _ view.state
  simp only [frame] at outcomes
  simp only [runChunk]
  generalize Exec.chunk chunk ⟨machine.setup, machine.phase, machine.position⟩ machine.state =
    outcome at outcomes ⊢
  generalize Exec.chunk chunk ⟨machine'.setup, machine'.phase, machine'.position⟩ machine'.state =
    outcome' at outcomes ⊢
  cases outcomes with
  | ok flow same =>
      cases flow with
      | next =>
          rw [view.position]
          exact .ok () (view.move same _)
      | finish =>
          rw [view.script]
          exact .ok () (view.move same _)
  | error fault same =>
      rw [view.position]
      exact .error fault (view.move same _)

private theorem inStep_checkLimits : InStep SameView checkLimits checkLimits := by
  intro machine machine' view
  have limits : machine'.setup.limits = machine.setup.limits ∧
      machine'.setup.memoryLimit = machine.setup.memoryLimit ∧
      machine'.state.stack = machine.state.stack ∧ machine'.state.alt = machine.state.alt := by
    obtain ⟨unlocking, queries, rfl⟩ := view.differs
    exact ⟨rfl, rfl, rfl, rfl⟩
  simp only [checkLimits, limits]
  split
  · exact .error _ view
  · split
    · exact .error _ view
    · exact .ok () view

private theorem inStep_runCurrent : InStep SameView runCurrent runCurrent := by
  intro machine machine' view
  simp only [runCurrent, view.isFinished, view.script, view.position]
  split
  · exact .ok () view
  · cases machine.script[machine.position]? with
    | none => exact .error _ view
    | some chunk => exact (inStep_runChunk chunk).bind (fun _ => inStep_checkLimits) view

private theorem inStep_enterLocking : InStep SameView enterLocking enterLocking := by
  intro machine machine' view
  have branches : machine'.state.branches = machine.state.branches := by
    obtain ⟨unlocking, queries, rfl⟩ := view.differs
    rfl
  simp only [enterLocking, branches]
  split
  · obtain ⟨unlocking, queries, rfl⟩ := view.differs
    exact .ok () ⟨⟨unlocking, queries, rfl⟩, rfl, view.memoryless, view.stack, view.alt⟩
  · exact .error _ view

private theorem inStep_advance : InStep SameView advance advance := by
  intro machine machine' view
  rw [advance_eq, advance_eq, view.isBetween]
  split
  · exact inStep_enterLocking.bind (fun _ => inStep_runCurrent) view
  · exact inStep_runCurrent view

private theorem inStep_reporting {move : Move Unit} (inStep : InStep SameView move move) :
    InStep SameView (reporting move) (reporting move) := by
  intro machine machine' view
  have outcomes := inStep view
  simp only [reporting]
  generalize move machine = outcome at outcomes
  generalize move machine' = outcome' at outcomes
  cases outcomes with
  | ok value same => exact .ok () same
  | error fault same =>
      simp only [same.failure]
      exact .error _ same

private theorem inStep_step : InStep SameView step step :=
  inStep_reporting inStep_advance

private theorem inStep_runToEnd : InStep SameView runToEnd runToEnd := by
  intro machine
  -- The induction is on the first run, and the second takes the same steps.
  induction machine using runToEnd.induct with
  | case1 machine finished =>
      intro machine' view
      rw [runToEnd_of_finished finished, runToEnd_of_finished (view.isFinished.trans finished)]
      exact .ok () view
  | case2 machine unfinished next stepped _ ih =>
      intro machine' view
      have outcomes := inStep_step view
      rw [stepped] at outcomes
      obtain ⟨next', stepped', same⟩ := outcomes.of_ok
      rw [runToEnd_of_step unfinished stepped,
        runToEnd_of_step (by rwa [view.isFinished]) stepped']
      exact ih same
  | case3 machine unfinished failure next stepped =>
      intro machine' view
      have outcomes := inStep_step view
      rw [stepped] at outcomes
      obtain ⟨next', stepped', same⟩ := outcomes.of_error
      rw [runToEnd_of_failed_step unfinished stepped,
        runToEnd_of_failed_step (by rwa [view.isFinished]) stepped']
      exact .error failure same

private theorem inStep_requireResult : InStep SameView requireResult requireResult := by
  intro machine machine' view
  have result : checkResult machine'.state machine'.setup.flags =
      checkResult machine.state machine.setup.flags := by
    obtain ⟨unlocking, queries, rfl⟩ := view.differs
    rfl
  simp only [requireResult, result]
  split
  · exact .ok () view
  · exact .error _ view

private theorem inStep_validate : InStep SameView validate validate :=
  inStep_runToEnd.bind fun _ => inStep_reporting inStep_requireResult

/-! ## Runs of steps -/

/-- A step that succeeds leads from the first machine to the second. -/
def StepsTo (machine next : Machine) : Prop :=
  step machine = .ok () next

section Runs

variable {start : Machine} (steps : Relation.ReflTransGen StepsTo start machine)

include steps

theorem setup_of_steps : machine.setup = start.setup := by
  induction steps with
  | refl => rfl
  | tail earlier last ih => exact (setup_of_step last).trans ih

theorem consistent_of_steps (consistent : start.Consistent) : machine.Consistent := by
  induction steps with
  | refl => exact consistent
  | tail earlier last ih =>
      have outcome := keeps_step _ ih
      rw [last] at outcome
      exact outcome

private theorem sameView_of_steps (view : start.SameView start) : machine.SameView machine := by
  induction steps with
  | refl => exact view
  | tail earlier last ih =>
      have outcomes := inStep_step ih
      rw [last] at outcomes
      obtain ⟨_, again, same⟩ := outcomes.of_ok
      cases again
      exact same

theorem runToEnd_of_steps : runToEnd start = runToEnd machine := by
  induction steps with
  | refl => rfl
  | tail earlier last ih => exact ih.trans (runToEnd_eq_of_step last)

end Runs

private theorem sameView_initial {setup : Setup}
    (memoryless : ∀ context, setup.context = some context → context.IsMemoryless) :
    (initial setup).SameView (initial setup) :=
  ⟨⟨setup.unlocking, [], rfl⟩, rfl, memoryless, rfl, rfl⟩

/-- Two machines after unlocking scripts that left the same items start the locking script with one
view. The counts of the stacks and the record of the conditionals need not be asked for. -/
private theorem sameView_entered (view : machine.SameView machine)
    (view' : machine'.SameView machine')
    (consistent : machine.Consistent) (consistent' : machine'.Consistent)
    (closed : machine.state.branches = []) (closed' : machine'.state.branches = [])
    (setup : ∃ unlocking, machine'.setup = { machine.setup with unlocking := unlocking })
    (sameStack : machine'.stack = machine.stack) (sameAlt : machine'.alt = machine.alt) :
    machine.entered.SameView machine'.entered := by
  obtain ⟨unlocking, setup⟩ := setup
  have rule : machine'.setup.numberRule = machine.setup.numberRule := by
    rw [setup]
    rfl
  have stack : machine'.state.stack = machine.state.stack :=
    Stack.eq_of_toList sameStack consistent.state.stack consistent'.state.stack
      (view'.stack.trans (rule.trans view.stack.symm))
  have alt : machine'.state.alt = machine.state.alt :=
    Stack.eq_of_toList sameAlt consistent.state.alt consistent'.state.alt
      (view'.alt.trans (rule.trans view.alt.symm))
  have switched : machine.state.switched = [] :=
    List.length_eq_zero_iff.mp (consistent.state.paired.symm.trans (by rw [closed]; rfl))
  have switched' : machine'.state.switched = [] :=
    List.length_eq_zero_iff.mp (consistent'.state.paired.symm.trans (by rw [closed']; rfl))
  refine ⟨⟨unlocking, machine'.state.queries, ?_⟩, ?_, view.memoryless, view.stack, view.alt⟩
  · simp only [entered, setup, stack, alt, closed, closed', switched, switched']
  · simp only [Machine.script, entered, setup]
    rfl

end Machine

namespace Request

/-- The request with another unlocking script. -/
def unlockedBy (request : Request) (unlocking : Script) : Request :=
  { request with unlocking := unlocking }

/-- The unlocking script of the request runs to its end without a failure, leaves the machine
there, and has closed every conditional. -/
structure EndsUnlocking (request : Request) (machine : Machine) : Prop where
  ran : ∃ start, request.start = .ok start ∧ Relation.ReflTransGen Machine.StepsTo start machine
  ended : machine.isBetween = true
  closed : machine.state.branches = []

variable {request : Request} {unlocking : Script} {machine machine' : Machine}

/-- Validation goes on from the start of the locking script. -/
private theorem EndsUnlocking.validate_start (ends : request.EndsUnlocking machine) :
    ∃ start, request.start = .ok start ∧ start.validate = machine.entered.validate := by
  obtain ⟨start, started, steps⟩ := ends.ran
  refine ⟨start, started, Machine.validate_of_runToEnd ?_⟩
  rw [Machine.runToEnd_of_steps steps, Machine.runToEnd_of_between ends.ended ends.closed]

theorem EndsUnlocking.consistent (ends : request.EndsUnlocking machine) : machine.Consistent := by
  obtain ⟨start, started, steps⟩ := ends.ran
  exact Machine.consistent_of_steps steps (consistent_of_start started)

theorem EndsUnlocking.setup (ends : request.EndsUnlocking machine) :
    ∃ unlocking locking, request.readScript .locking request.locking = .ok locking ∧
      machine.setup = request.setup unlocking locking := by
  obtain ⟨start, started, steps⟩ := ends.ran
  obtain ⟨unlocking, locking, -, readLocking, rfl⟩ := eq_initial_of_start started
  exact ⟨unlocking, locking, readLocking, Machine.setup_of_steps steps⟩

private theorem EndsUnlocking.sameView (ends : request.EndsUnlocking machine)
    (memoryless : ∀ context, request.context = some context → context.IsMemoryless) :
    machine.SameView machine := by
  obtain ⟨start, started, steps⟩ := ends.ran
  obtain ⟨unlocking, locking, -, readLocking, rfl⟩ := eq_initial_of_start started
  exact Machine.sameView_of_steps steps (Machine.sameView_initial memoryless)

private theorem sameView_entered_of_endsUnlocking
    (memoryless : ∀ context, request.context = some context → context.IsMemoryless)
    (ends : request.EndsUnlocking machine)
    (ends' : (request.unlockedBy unlocking).EndsUnlocking machine')
    (sameStack : machine'.stack = machine.stack) (sameAlt : machine'.alt = machine.alt) :
    machine.entered.SameView machine'.entered := by
  refine Machine.sameView_entered (ends.sameView memoryless) (ends'.sameView memoryless)
    ends.consistent ends'.consistent ends.closed ends'.closed ?_ sameStack sameAlt
  obtain ⟨chunks, locking, readLocking, setup⟩ := ends.setup
  obtain ⟨chunks', locking', readLocking', setup'⟩ := ends'.setup
  have same : request.readScript .locking request.locking = .ok locking' := readLocking'
  rw [readLocking] at same
  cases same
  exact ⟨chunks', by rw [setup, setup']; rfl⟩

theorem validate_eq_of_endsUnlocking
    (memoryless : ∀ context, request.context = some context → context.IsMemoryless)
    (ends : request.EndsUnlocking machine)
    (ends' : (request.unlockedBy unlocking).EndsUnlocking machine')
    (sameStack : machine'.stack = machine.stack) (sameAlt : machine'.alt = machine.alt) :
    (request.unlockedBy unlocking).validate = request.validate ∧
    ∀ final, request.Accepts final → ∃ final', (request.unlockedBy unlocking).Accepts final' ∧
      final'.stack = final.stack ∧ final'.alt = final.alt := by
  have view := sameView_entered_of_endsUnlocking memoryless ends ends' sameStack sameAlt
  obtain ⟨start, started, goesOn⟩ := ends.validate_start
  obtain ⟨start', started', goesOn'⟩ := ends'.validate_start
  have outcomes := Machine.inStep_validate view
  rw [← goesOn, ← goesOn'] at outcomes
  constructor
  · simp only [validate, started, started']
    generalize start.validate = outcome at outcomes
    generalize start'.validate = outcome' at outcomes
    cases outcomes with
    | ok | error => rfl
  · rintro final ⟨machine, again, validated⟩
    rw [started] at again
    cases again
    rw [validated] at outcomes
    obtain ⟨final', validated', same⟩ := outcomes.of_ok
    obtain ⟨unlocking, queries, rfl⟩ := same.differs
    exact ⟨_, ⟨start', started', validated'⟩, rfl, rfl⟩

/-- A signature check that holds if the whole locking script is signed. -/
def signedWhole : Request where
  sourceTxid := Hash32.zero
  sourceIndex := 0
  unlocking := ⟨[0x01, 0x30]⟩
  locking := ⟨[0x51, 0xac]⟩
  context := some ⟨fun _ query => .ok (query.subScript.bytes == [0x51, 0xac]), 0, 1, fun _ => 0⟩
  inputIndex := 0
  flags := Flags.empty
  memoryLimit := 100

private def signedStart (unlocking : List Chunk) : Machine :=
  Machine.initial (signedWhole.setup unlocking [⟨0x51, none⟩, ⟨0xac, none⟩])

/-- The push of a signature alone, after it has run. -/
private def signedBetween : Machine :=
  { signedStart [⟨0x01, some [0x30]⟩] with
    position := 1
    state := { (signedStart []).state with stack := ⟨[[0x30]], 1, ⟨4, false⟩⟩ } }

/-- A separator and the push of a signature, after the separator has run. -/
private def signedSeparated : Machine :=
  { signedStart [⟨0xab, none⟩, ⟨0x01, some [0x30]⟩] with
    position := 1
    state := { (signedStart []).state with separator := some 0, opCount := 1 } }

private def signedBetween' : Machine :=
  { signedSeparated with
    position := 2
    state := { signedSeparated.state with stack := ⟨[[0x30]], 1, ⟨4, false⟩⟩ } }

theorem signedWhole_validate_eq : ∃ machine machine' : Machine,
    signedWhole.EndsUnlocking machine ∧
    (signedWhole.unlockedBy ⟨[0xab, 0x01, 0x30]⟩).EndsUnlocking machine' ∧
    machine.state.separator = none ∧ machine'.state.separator = some 0 ∧
    signedWhole.validate = .ok () ∧
    (signedWhole.unlockedBy ⟨[0xab, 0x01, 0x30]⟩).validate = .ok () := by
  have memoryless : ∀ context, signedWhole.context = some context → context.IsMemoryless := by
    intro context found
    cases found
    exact fun _ _ _ => rfl
  have started : signedWhole.start = .ok (signedStart [⟨0x01, some [0x30]⟩]) := by cbv
  have started' : (signedWhole.unlockedBy ⟨[0xab, 0x01, 0x30]⟩).start =
      .ok (signedStart [⟨0xab, none⟩, ⟨0x01, some [0x30]⟩]) := by cbv
  have pushed : Machine.StepsTo (signedStart [⟨0x01, some [0x30]⟩]) signedBetween := rfl
  have separated : Machine.StepsTo (signedStart [⟨0xab, none⟩, ⟨0x01, some [0x30]⟩])
      signedSeparated := rfl
  have pushed' : Machine.StepsTo signedSeparated signedBetween' := rfl
  have ends : signedWhole.EndsUnlocking signedBetween :=
    ⟨⟨_, started, .single pushed⟩, rfl, rfl⟩
  have ends' : (signedWhole.unlockedBy ⟨[0xab, 0x01, 0x30]⟩).EndsUnlocking signedBetween' :=
    ⟨⟨_, started', .tail (.single separated) pushed'⟩, rfl, rfl⟩
  have validated : signedWhole.validate = .ok () := by cbv
  obtain ⟨same, -⟩ := validate_eq_of_endsUnlocking memoryless ends ends' rfl rfl
  exact ⟨_, _, ends, ends', rfl, rfl, validated, same.trans validated⟩

end Request

end BitcoinSpend.Spend
