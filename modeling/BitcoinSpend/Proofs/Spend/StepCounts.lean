import Mathlib.Data.Nat.Init
import BitcoinSpend.Proofs.Spend.ScriptSeparation

/-!
# The length of a run

Validation steps until the machine is at its end or a step fails. The lengths of the
two scripts bound how often it steps, and steps that are made one by one before it
leave its result and its final state as they would have been.
-/

set_option autoImplicit false

namespace BitcoinSpend.Spend

namespace Machine

/-- Steps one after another, up to the first failure. -/
def stepMany : (count : Nat) → Run Unit
  | 0 => pure ()
  | count + 1 => do
      step
      stepMany count

/-- A run of the machine steps this often: as long as it goes on, the steps before have succeeded
and the machine is not at its end, and after the last one it is at its end if that has succeeded. -/
structure RunsFor (machine : Machine) (count : Nat) : Prop where
  goesOn : ∀ made < count, ∃ next, stepMany made machine = .ok () next ∧ next.isFinished = false
  ends : ∀ last, stepMany count machine = .ok () last → last.isFinished = true

/-- A bound on the steps that are left. The step that leaves the unlocking script runs the first
chunk of the locking script, if there is one. -/
def stepsLeft (machine : Machine) : Nat :=
  match machine.phase with
  | .unlocking =>
      (machine.setup.unlocking.length - machine.position) + max machine.setup.locking.length 1
  | .locking => machine.setup.locking.length - machine.position

variable {machine next : Machine}

/-! ## Every step counts -/

private theorem stepsLeft_lt_of_runCurrent (ran : runCurrent machine = .ok () next)
    (inside : machine.position < machine.script.length) : next.stepsLeft < machine.stepsLeft := by
  obtain ⟨setup, phase, moved⟩ := runCurrent_ok ran inside
  cases place : machine.phase <;>
    simp only [stepsLeft, setup, phase, place, script, Setup.script] at * <;> omega

private theorem stepsLeft_pos (unfinished : machine.isFinished = false) :
    0 < machine.stepsLeft := by
  cases place : machine.phase <;>
    simp only [isFinished, stepsLeft, place, decide_true, Bool.true_and, decide_eq_false_iff_not]
      at * <;> omega

private theorem stepsLeft_lt_of_step (unfinished : machine.isFinished = false)
    (stepped : step machine = .ok () next) : next.stepsLeft < machine.stepsLeft := by
  have advanced : advance machine = .ok () next := by
    simp only [step, reporting] at stepped
    split at stepped
    · next advanced =>
        cases stepped
        exact advanced
    · cases stepped
  cases between : machine.isBetween with
  | false =>
      rw [advance_of_begun between] at advanced
      exact stepsLeft_lt_of_runCurrent advanced (position_lt_of_begun between unfinished)
  | true =>
      rw [advance_eq, if_pos between] at advanced
      simp only [bind, EStateM.bind] at advanced
      split at advanced
      · next _ middle entered =>
          obtain ⟨setup, phase, start⟩ := enterLocking_ok entered
          have whole : middle.stepsLeft = machine.setup.locking.length := by
            simp only [stepsLeft, setup, phase, start, Nat.sub_zero]
          have more : max machine.setup.locking.length 1 ≤ machine.stepsLeft := by
            simp only [isBetween, Bool.and_eq_true, decide_eq_true_eq] at between
            simp only [stepsLeft, between.1]
            omega
          rcases Nat.lt_or_ge middle.position middle.script.length with inside | outside
          · have fewer := stepsLeft_lt_of_runCurrent advanced inside
            omega
          · -- An empty locking script is at its end at once: the step has run nothing.
            have empty : machine.setup.locking.length = 0 := by
              simpa only [script, Setup.script, setup, phase, start, Nat.le_zero] using outside
            rw [runCurrent_end advanced outside]
            omega
      · cases advanced

/-! ## Counted runs -/

theorem stepMany_succ_of_ok (stepped : step machine = .ok () next) (count : Nat) :
    stepMany (count + 1) machine = stepMany count next := by
  simp only [stepMany, bind, EStateM.bind, stepped]

private theorem stepMany_succ_of_error {failure : Failure}
    (failed : step machine = .error failure next)
    (count : Nat) : stepMany (count + 1) machine = .error failure next := by
  simp only [stepMany, bind, EStateM.bind, failed]

private theorem runsFor_of_finished (finished : machine.isFinished = true) : machine.RunsFor 0 where
  goesOn := nofun
  ends := by
    intro last same
    cases same
    exact finished

private theorem runsFor_of_failed_step (unfinished : machine.isFinished = false) {failure : Failure}
    (failed : step machine = .error failure next) : machine.RunsFor 1 where
  goesOn := by
    intro made fewer
    cases Nat.lt_one_iff.mp fewer
    exact ⟨machine, rfl, unfinished⟩
  ends := by
    intro last ran
    rw [stepMany_succ_of_error failed] at ran
    cases ran

private theorem RunsFor.of_step (unfinished : machine.isFinished = false)
    (stepped : step machine = .ok () next) {count : Nat} (later : next.RunsFor count) :
    machine.RunsFor (count + 1) where
  goesOn := by
    intro made fewer
    cases made with
    | zero => exact ⟨machine, rfl, unfinished⟩
    | succ made =>
        rw [stepMany_succ_of_ok stepped]
        exact later.goesOn made (Nat.lt_of_succ_lt_succ fewer)
  ends := by
    intro last ran
    rw [stepMany_succ_of_ok stepped] at ran
    exact later.ends last ran

/-- The steps of a run are its result. -/
theorem RunsFor.runToEnd_eq {count : Nat} (runs : machine.RunsFor count) :
    runToEnd machine = stepMany count machine := by
  induction count generalizing machine with
  | zero => exact runToEnd_of_finished (runs.ends machine rfl)
  | succ count ih =>
      obtain ⟨_, same, unfinished⟩ := runs.goesOn 0 (Nat.zero_lt_succ count)
      cases same
      have goesOn : ¬machine.isFinished = true := Bool.eq_false_iff.mp unfinished
      cases stepped : step machine with
      | error failure left =>
          rw [runToEnd_of_failed_step goesOn stepped, stepMany_succ_of_error stepped]
      | ok _ next =>
          have later : next.RunsFor count := by
            refine ⟨fun made fewer => ?_, fun last ran => ?_⟩
            · have after := runs.goesOn (made + 1) (Nat.succ_lt_succ fewer)
              rwa [stepMany_succ_of_ok stepped] at after
            · refine runs.ends last ?_
              rwa [stepMany_succ_of_ok stepped]
          rw [runToEnd_of_step goesOn stepped, stepMany_succ_of_ok stepped, ih later]

/-- Each step leaves fewer to make, so that a run ends within the bound. -/
private theorem exists_runsFor (machine : Machine) :
    ∃ count ≤ machine.stepsLeft, machine.RunsFor count := by
  generalize bound : machine.stepsLeft = limit
  induction limit using Nat.strong_induction_on generalizing machine with
  | _ limit ih =>
      subst bound
      cases finished : machine.isFinished with
      | true => exact ⟨0, Nat.zero_le _, runsFor_of_finished finished⟩
      | false =>
          cases stepped : step machine with
          | error failure left =>
              refine ⟨1, ?_, runsFor_of_failed_step finished stepped⟩
              exact stepsLeft_pos finished
          | ok _ next =>
              have fewer := stepsLeft_lt_of_step finished stepped
              obtain ⟨count, within, later⟩ := ih _ fewer next rfl
              exact ⟨count + 1, by omega, later.of_step finished stepped⟩

theorem steps_of_stepMany {count : Nat} (ran : stepMany count machine = .ok () next) :
    Relation.ReflTransGen StepsTo machine next := by
  induction count generalizing machine with
  | zero =>
      cases ran
      exact .refl
  | succ count ih =>
      cases stepped : step machine with
      | error failure left =>
          rw [stepMany_succ_of_error stepped] at ran
          cases ran
      | ok _ middle =>
          rw [stepMany_succ_of_ok stepped] at ran
          exact .head stepped (ih ran)

theorem validate_of_stepMany {count : Nat} (ran : stepMany count machine = .ok () next) :
    next.validate = machine.validate :=
  validate_of_runToEnd (runToEnd_of_steps (steps_of_stepMany ran)).symm

end Machine

namespace Request

/-- Validation makes no more steps than there are chunks, with one step for a locking script that
has none, and steps that have succeeded before it change nothing about it. -/
theorem steps_bounded_resumable {request : Request} {machine : Machine}
    {unlocking locking : List Chunk} (started : request.start = .ok machine)
    (splitsUnlocking : request.unlocking.chunks = .ok unlocking)
    (splitsLocking : request.locking.chunks = .ok locking) :
    (∃ count ≤ unlocking.length + max locking.length 1, machine.RunsFor count ∧
      machine.validate =
        (do Machine.stepMany count; Machine.reporting Machine.requireResult : Run Unit) machine) ∧
    ∀ (count : Nat) (next : Machine), Machine.stepMany count machine = .ok () next →
      next.validate = machine.validate := by
  obtain ⟨unlocking', locking', readUnlocking, readLocking, rfl⟩ := eq_initial_of_start started
  cases splitsUnlocking.symm.trans (chunks_of_readScript readUnlocking)
  cases splitsLocking.symm.trans (chunks_of_readScript readLocking)
  refine ⟨?_, fun count next ran => Machine.validate_of_stepMany ran⟩
  obtain ⟨count, within, runs⟩ :=
    Machine.exists_runsFor (Machine.initial (request.setup unlocking locking))
  refine ⟨count, within, runs, ?_⟩
  simp only [Machine.validate, bind, EStateM.bind, runs.runToEnd_eq]

/-- The locking script swaps the two numbers of the unlocking script and drops the one on top. -/
def swapAndDrop : Request where
  sourceTxid := Hash32.zero
  sourceIndex := 0
  unlocking := ⟨[0x51, 0x52]⟩
  locking := ⟨[0x7c, 0x75]⟩
  context := none
  inputIndex := 0
  flags := Flags.standard
  memoryLimit := 100

def swapAndDropSetup : Setup :=
  swapAndDrop.setup [⟨0x51, none⟩, ⟨0x52, none⟩] [⟨0x7c, none⟩, ⟨0x75, none⟩]

/-- The machine of `swapAndDrop` after three steps: in the locking script, with the numbers
swapped. -/
def swapped : Machine :=
  let before := Machine.initial swapAndDropSetup
  { before with
    phase := .locking
    position := 1
    state := { before.state with
      stack := ⟨[[1], [2]], 2, swapAndDropSetup.numberRule⟩
      opCount := 1 } }

theorem swapAndDrop_bounded_resumable :
    swapAndDrop.start = .ok (Machine.initial swapAndDropSetup) ∧
    (∃ count ≤ 4, (Machine.initial swapAndDropSetup).RunsFor count ∧
      (Machine.initial swapAndDropSetup).validate =
        (do Machine.stepMany count; Machine.reporting Machine.requireResult : Run Unit)
          (Machine.initial swapAndDropSetup)) ∧
    Machine.stepMany 3 (Machine.initial swapAndDropSetup) = .ok () swapped ∧
    swapped.validate = (Machine.initial swapAndDropSetup).validate := by
  have started : swapAndDrop.start = .ok (Machine.initial swapAndDropSetup) := by cbv
  have splitsUnlocking : swapAndDrop.unlocking.chunks = .ok [⟨0x51, none⟩, ⟨0x52, none⟩] := by cbv
  have splitsLocking : swapAndDrop.locking.chunks = .ok [⟨0x7c, none⟩, ⟨0x75, none⟩] := by cbv
  have ran : Machine.stepMany 3 (Machine.initial swapAndDropSetup) = .ok () swapped := rfl
  obtain ⟨bounded, resumed⟩ := steps_bounded_resumable started splitsUnlocking splitsLocking
  exact ⟨started, bounded, ran, resumed 3 swapped ran⟩

end Request

end BitcoinSpend.Spend
