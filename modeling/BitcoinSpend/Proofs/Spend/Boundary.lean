import BitcoinSpend.Spend.Validate

/-!
# From one script to the next

A step at the end of the unlocking script goes to the locking script and runs its
first chunk. So a run goes on from there as if it had started there.
-/

set_option autoImplicit false

namespace BitcoinSpend.Spend.Machine

/-- The machine at the start of the locking script. -/
def entered (machine : Machine) : Machine :=
  { machine with
    phase := .locking
    position := 0
    state := { machine.state with separator := none, opCount := 0, returned := false } }

variable {machine next : Machine}

theorem enterLocking_of_closed (closed : machine.state.branches = []) :
    enterLocking machine = .ok () machine.entered := by
  have isClosed : machine.state.branches.isEmpty = true := by rw [closed, List.isEmpty_nil]
  rw [enterLocking, if_pos isClosed]
  rfl

theorem advance_of_begun (begun : machine.isBetween = false) :
    advance machine = runCurrent machine := by
  rw [advance_eq, begun]
  rfl

theorem advance_of_between (between : machine.isBetween = true)
    (closed : machine.state.branches = []) : advance machine = runCurrent machine.entered := by
  rw [advance_eq, if_pos between]
  simp only [bind, EStateM.bind, enterLocking_of_closed closed]

/-- The locking script has begun, whatever the machine was before. -/
theorem isBetween_entered (machine : Machine) : machine.entered.isBetween = false := rfl

theorem step_of_between (between : machine.isBetween = true)
    (closed : machine.state.branches = []) : step machine = step machine.entered := by
  have begun := advance_of_begun machine.isBetween_entered
  simp only [step, reporting, advance_of_between between closed, begun]

theorem step_of_finished (finished : machine.isFinished = true) :
    step machine = .ok () machine := by
  have locking : machine.phase = .locking := by
    simp only [isFinished, Bool.and_eq_true, decide_eq_true_eq] at finished
    exact finished.1
  have begun : machine.isBetween = false := by simp [isBetween, locking]
  have stays : runCurrent machine = .ok () machine := by rw [runCurrent, if_pos finished]
  simp only [step, reporting, advance_of_begun begun, stays]

/-- A machine at its end steps to itself, so that it need not be told apart. -/
theorem runToEnd_eq_of_step (stepped : step machine = .ok () next) :
    runToEnd machine = runToEnd next := by
  by_cases finished : machine.isFinished = true
  · rw [step_of_finished finished] at stepped
    cases stepped
    rfl
  · exact runToEnd_of_step finished stepped

theorem runToEnd_of_between (between : machine.isBetween = true)
    (closed : machine.state.branches = []) : runToEnd machine = runToEnd machine.entered := by
  have same := step_of_between between closed
  cases stepped : step machine.entered with
  | ok _ next =>
      rw [runToEnd_eq_of_step stepped]
      exact runToEnd_eq_of_step (same.trans stepped)
  | error failure next =>
      have unfinished : ∀ {place : Machine}, step place = .error failure next →
          ¬place.isFinished = true := by
        intro place failed finished
        rw [step_of_finished finished] at failed
        cases failed
      rw [runToEnd_of_failed_step (unfinished stepped) stepped]
      exact runToEnd_of_failed_step (unfinished (same.trans stepped)) (same.trans stepped)

theorem validate_of_runToEnd {other : Machine} (same : runToEnd machine = runToEnd other) :
    machine.validate = other.validate := by
  simp only [validate, bind, EStateM.bind, same]

/-! ## What a step keeps -/

private theorem setup_of_runCurrent (ran : runCurrent machine = .ok () next) :
    next.setup = machine.setup := by
  rcases Nat.lt_or_ge machine.position machine.script.length with inside | outside
  · exact (runCurrent_ok ran inside).1
  · rw [runCurrent_end ran outside]

private theorem setup_of_advance (advanced : advance machine = .ok () next) :
    next.setup = machine.setup := by
  cases between : machine.isBetween with
  | false =>
      rw [advance_of_begun between] at advanced
      exact setup_of_runCurrent advanced
  | true =>
      rw [advance_eq, if_pos between] at advanced
      simp only [bind, EStateM.bind] at advanced
      cases enters : enterLocking machine with
      | ok _ entered =>
          rw [enters] at advanced
          exact (setup_of_runCurrent advanced).trans (enterLocking_ok enters).1
      | error fault left =>
          rw [enters] at advanced
          cases advanced

theorem setup_of_step (stepped : step machine = .ok () next) : next.setup = machine.setup := by
  simp only [step, reporting] at stepped
  split at stepped
  · next advanced =>
      cases stepped
      exact setup_of_advance advanced
  · cases stepped

end BitcoinSpend.Spend.Machine
