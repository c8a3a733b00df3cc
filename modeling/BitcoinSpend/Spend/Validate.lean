import BitcoinSpend.Spend.Machine

/-!
# Validation

A pair of scripts is valid when it runs to the end of the locking script without
a failure, with every conditional closed and a true item on top. The run ends
because every step that succeeds leaves fewer moves to make.
-/

set_option autoImplicit false

namespace BitcoinSpend.Spend.Machine

/-- Running a chunk moves past it or to the end of its script, and keeps what is fixed. -/
theorem runChunk_ok {chunk : Chunk} {machine next : Machine}
    (ran : runChunk chunk machine = .ok () next) :
    next.setup = machine.setup ∧ next.phase = machine.phase ∧
      (next.position = machine.position + 1 ∨ next.position = machine.script.length) := by
  unfold runChunk at ran
  split at ran
  · cases ran
    exact ⟨rfl, rfl, Or.inl rfl⟩
  · cases ran
    exact ⟨rfl, rfl, Or.inr rfl⟩
  · cases ran

private theorem checkLimits_ok {machine next : Machine}
    (checked : checkLimits machine = .ok () next) :
    next = machine := by
  unfold checkLimits at checked
  dsimp only at checked
  split at checked
  · cases checked
  · split at checked
    · cases checked
    · cases checked
      rfl

theorem isFinished_eq_false {machine : Machine}
    (inside : machine.position < machine.script.length) : machine.isFinished = false := by
  cases place : machine.phase <;>
    simp_all [isFinished, script, Setup.script]

theorem isBetween_eq_false {machine : Machine}
    (inside : machine.position < machine.script.length) : machine.isBetween = false := by
  cases place : machine.phase <;>
    simp_all [isBetween, script, Setup.script]

/-- A machine that is neither between the scripts nor at its end has a chunk to run. -/
theorem position_lt_of_begun {machine : Machine} (begun : machine.isBetween = false)
    (unfinished : machine.isFinished = false) : machine.position < machine.script.length := by
  cases place : machine.phase <;>
    simp_all [isBetween, isFinished, script, Setup.script]

/-- Within a script, running the current chunk comes closer to the script's end. -/
theorem runCurrent_ok {machine next : Machine} (ran : runCurrent machine = .ok () next)
    (inside : machine.position < machine.script.length) :
    next.setup = machine.setup ∧ next.phase = machine.phase ∧
      machine.position < next.position := by
  have unfinished : machine.isFinished = false := isFinished_eq_false inside
  unfold runCurrent at ran
  rw [unfinished, List.getElem?_eq_getElem inside] at ran
  simp only [Bool.false_eq_true, if_false, bind, EStateM.bind] at ran
  split at ran
  · rename_i middle ranChunk
    have same := checkLimits_ok ran
    have moved := runChunk_ok ranChunk
    subst same
    refine ⟨moved.1, moved.2.1, ?_⟩
    rcases moved.2.2 with past | ended <;> omega
  · cases ran

theorem runCurrent_end {machine next : Machine} (ran : runCurrent machine = .ok () next)
    (outside : machine.script.length ≤ machine.position) : next = machine := by
  unfold runCurrent at ran
  split at ran
  · cases ran
    rfl
  · rw [List.getElem?_eq_none outside] at ran
    cases ran

theorem enterLocking_ok {machine next : Machine} (entered : enterLocking machine = .ok () next) :
    next.setup = machine.setup ∧ next.phase = .locking ∧ next.position = 0 := by
  unfold enterLocking at entered
  split at entered
  · cases entered
    exact ⟨rfl, rfl, rfl⟩
  · cases entered

/-- In the locking script, running the current chunk leaves no more moves than before. -/
private theorem remaining_le_of_runCurrent {machine next : Machine}
    (ran : runCurrent machine = .ok () next) (locking : machine.phase = .locking) :
    next.remaining ≤ machine.remaining := by
  rcases Nat.lt_or_ge machine.position machine.script.length with inside | outside
  · have moved := runCurrent_ok ran inside
    simp only [remaining, moved.1, moved.2.1, locking]
    omega
  · have same := runCurrent_end ran outside
    subst same
    exact Nat.le_refl _

theorem advance_eq (machine : Machine) : advance machine =
    (if machine.isBetween then (do enterLocking; runCurrent : Move Unit) else runCurrent)
      machine := rfl

private theorem remaining_lt_of_advance {machine next : Machine}
    (unfinished : machine.isFinished = false)
    (advanced : advance machine = .ok () next) : next.remaining < machine.remaining := by
  rw [advance_eq] at advanced
  cases between : machine.isBetween with
  | true =>
      simp only [between, if_true, bind, EStateM.bind] at advanced
      simp only [isBetween, Bool.and_eq_true, decide_eq_true_eq] at between
      split at advanced
      · rename_i middle entered
        have start := enterLocking_ok entered
        have bound := remaining_le_of_runCurrent advanced start.2.1
        simp only [remaining, start.1, start.2.1, start.2.2] at bound
        simp only [remaining, between.1] at *
        omega
      · cases advanced
  | false =>
      simp only [between, Bool.false_eq_true, if_false] at advanced
      have inside := position_lt_of_begun between unfinished
      have moved := runCurrent_ok advanced inside
      cases place : machine.phase <;>
        simp only [remaining, moved.1, moved.2.1, place, script, Setup.script] at * <;> omega

theorem remaining_lt_of_step {machine next : Machine} (unfinished : machine.isFinished = false)
    (stepped : step machine = .ok () next) : next.remaining < machine.remaining := by
  unfold step reporting at stepped
  split at stepped
  · rename_i advanced
    cases stepped
    exact remaining_lt_of_advance unfinished advanced
  · cases stepped

/-- Steps until the locking script is at its end or a step fails. -/
def runToEnd (machine : Machine) : EStateM.Result Failure Machine Unit :=
  if finished : machine.isFinished then .ok () machine
  else
    match stepped : step machine with
    | .ok () next =>
        have := remaining_lt_of_step (Bool.eq_false_iff.mpr finished) stepped
        runToEnd next
    | .error failure next => .error failure next
termination_by machine.remaining

theorem runToEnd_of_finished {machine : Machine} (finished : machine.isFinished = true) :
    runToEnd machine = .ok () machine := by
  rw [runToEnd, dif_pos finished]

theorem runToEnd_of_step {machine next : Machine} (unfinished : ¬machine.isFinished = true)
    (stepped : step machine = .ok () next) : runToEnd machine = runToEnd next := by
  rw [runToEnd, dif_neg unfinished]
  split
  · next again =>
      rw [stepped] at again
      cases again
      rfl
  · next again =>
      rw [stepped] at again
      cases again

theorem runToEnd_of_failed_step {machine next : Machine} {failure : Failure}
    (unfinished : ¬machine.isFinished = true) (stepped : step machine = .error failure next) :
    runToEnd machine = .error failure next := by
  rw [runToEnd, dif_neg unfinished]
  split
  · next again =>
      rw [stepped] at again
      cases again
  · next again =>
      rw [stepped] at again
      cases again
      rfl

def checkResult (state : State) (flags : Flags) : Except Fault Unit :=
  if !state.branches.isEmpty then .error .openAtEnd
  else
    match state.stack.items with
    | [] => .error .emptyStack
    | top :: below =>
        if flags.has Flags.cleanStack && !below.isEmpty then .error (.uncleanStack below.length)
        else if ScriptNumber.isTrue top then .ok ()
        else .error .falseResult

/-- Requires the machine to be as the end of a run must be. -/
def requireResult : Move Unit := fun machine =>
  match checkResult machine.state machine.setup.flags with
  | .ok () => .ok () machine
  | .error fault => .error fault machine

/-- Runs to the end and requires a true result. After a failure it goes on from the place where the
machine was left. -/
def validate : Run Unit := do
  runToEnd
  reporting requireResult

end BitcoinSpend.Spend.Machine

namespace BitcoinSpend.Spend

/-- Whether a pair of scripts is valid: nothing, or the report of the first failure. -/
def Request.validate (request : Request) : Except Failure Unit :=
  match request.start with
  | .error failure => .error failure
  | .ok machine =>
      match machine.validate with
      | .ok () _ => .ok ()
      | .error failure _ => .error failure

end BitcoinSpend.Spend
