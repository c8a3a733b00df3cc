import BitcoinSpend.Proofs.Spend.ReachableConsistency

/-!
# The chunks that a run comes to

A run is recorded as its visits: the chunks that its steps came to, in order, each
with whether it was run and what it asked. The record is kept over all calls of a
machine, also those that fail.
-/

set_option autoImplicit false

namespace BitcoinSpend.Spend

/-- A chunk that a step came to. -/
structure Visit where
  phase : Phase
  position : Nat
  chunk : Chunk
  /-- Whether the chunk was run, neither refused before that nor passed over. -/
  executed : Bool
  /-- The questions about signatures that the step asked. -/
  asked : List SignatureQuery

/-- Whether a chunk that is come to in a state is run. -/
def Exec.runs (chunk : Chunk) (frame : Frame) (state : State) : Bool :=
  let instruction := Instruction.ofOpcode chunk.op
  match precheck instruction chunk frame state with
  | .ok () checked => checked.isExecuting frame.setup || instruction.isConditional
  | .error _ _ => false

namespace Machine

def frame (machine : Machine) : Frame :=
  ⟨machine.setup, machine.phase, machine.position⟩

/-- What running the chunk at the machine's place comes to, unless the run is at its end. -/
def visitHere? (machine : Machine) : Option Visit :=
  if machine.isFinished then none
  else
    machine.script[machine.position]?.map fun chunk =>
      { phase := machine.phase
        position := machine.position
        chunk := chunk
        executed := Exec.runs chunk machine.frame machine.state
        asked := (Outcome.left (runCurrent machine)).state.queries.drop
          machine.state.queries.length }

/-- The chunk that a step comes to, in the locking script if the unlocking script is at its end. -/
def visit? (machine : Machine) : Option Visit :=
  if machine.isBetween then
    match enterLocking machine with
    | .ok () entered => entered.visitHere?
    | .error _ _ => none
  else machine.visitHere?

/-- The visits of a run to the end or to the first step that fails. -/
def visits (machine : Machine) : List Visit :=
  if finished : machine.isFinished then []
  else
    match stepped : step machine with
    | .ok () next =>
        have := remaining_lt_of_step (Bool.eq_false_iff.mpr finished) stepped
        machine.visit?.toList ++ visits next
    | .error _ _ => machine.visit?.toList
termination_by machine.remaining

private theorem visits_of_finished {machine : Machine} (finished : machine.isFinished = true) :
    machine.visits = [] := by
  rw [visits, dif_pos finished]

private theorem visits_of_step {machine next : Machine} (unfinished : ¬machine.isFinished = true)
    (stepped : step machine = .ok () next) :
    machine.visits = machine.visit?.toList ++ next.visits := by
  rw [visits, dif_neg unfinished]
  split
  · next again =>
      rw [stepped] at again
      cases again
      rfl
  · next again =>
      rw [stepped] at again
      cases again

private theorem visits_of_failed_step {machine next : Machine} {failure : Failure}
    (unfinished : ¬machine.isFinished = true) (stepped : step machine = .error failure next) :
    machine.visits = machine.visit?.toList := by
  rw [visits, dif_neg unfinished]
  split
  · next again =>
      rw [stepped] at again
      cases again
  · rfl

end Machine

def Call.visits : Call → Machine → List Visit
  | step, machine => machine.visit?.toList
  | validate, machine => machine.visits

/-- The machines that calls lead to, also after calls that failed, with the visits on the way. -/
inductive Request.ReachesBy (request : Request) : List Visit → Machine → Prop where
  | start {machine : Machine} (started : request.start = .ok machine) :
      request.ReachesBy [] machine
  | call {log : List Visit} {machine : Machine} (reached : request.ReachesBy log machine)
      (call : Call) :
      request.ReachesBy (log ++ call.visits machine) (Outcome.left (call.run machine))

/-! ## What a call leaves -/

namespace Machine

theorem left_reporting (move : Move Unit) (machine : Machine) :
    Outcome.left (reporting move machine) = Outcome.left (move machine) := by
  simp only [reporting]
  cases move machine with
  | ok _ next => rfl
  | error fault next => rfl

private theorem left_requireResult (machine : Machine) :
    Outcome.left (requireResult machine) = machine := by
  simp only [requireResult]
  split <;> rfl

private theorem left_validate (machine : Machine) :
    Outcome.left (validate machine) = Outcome.left (runToEnd machine) := by
  cases ran : runToEnd machine with
  | ok _ next =>
      rw [validate_of_ended ran]
      exact (left_reporting requireResult next).trans (left_requireResult next)
  | error failure next => rw [validate_of_failed ran]

theorem left_checkLimits (machine : Machine) : Outcome.left (checkLimits machine) = machine := by
  simp only [checkLimits]
  split
  · rfl
  · split <;> rfl

/-- Running a chunk leaves the state that its instruction leaves, whatever the limits say of it. -/
theorem left_runCurrent {machine : Machine} {chunk : Chunk}
    (here : machine.script[machine.position]? = some chunk) :
    let left := Outcome.left (runCurrent machine)
    left.setup = machine.setup ∧ left.phase = machine.phase ∧
      left.state = Outcome.left (Exec.chunk chunk machine.frame machine.state) := by
  rw [runCurrent_of_here here]
  simp only [runChunk, frame, bind, EStateM.bind]
  cases Exec.chunk chunk ⟨machine.setup, machine.phase, machine.position⟩ machine.state with
  | ok flow state =>
      cases flow with
      | next | finish =>
          rw [left_checkLimits]
          exact ⟨rfl, rfl, rfl⟩
  | error fault state => exact ⟨rfl, rfl, rfl⟩

end Machine

/-- A property of the record and the machine that every step keeps holds after every call. -/
theorem Request.ReachesBy.induction {request : Request} {property : List Visit → Machine → Prop}
    (starts : ∀ machine, request.start = .ok machine → property [] machine)
    (steps : ∀ log machine, property log machine →
      property (log ++ machine.visit?.toList) (Outcome.left (Machine.step machine)))
    {log : List Visit} {machine : Machine} (reached : request.ReachesBy log machine) :
    property log machine := by
  have runs : ∀ machine log, property log machine →
      property (log ++ machine.visits) (Outcome.left (Machine.runToEnd machine)) := by
    intro machine
    induction machine using Machine.runToEnd.induct with
    | case1 machine finished =>
        intro log holds
        rw [Machine.visits_of_finished finished, Machine.runToEnd_of_finished finished,
          List.append_nil]
        exact holds
    | case2 machine unfinished next stepped _ ih =>
        intro log holds
        have after := steps log machine holds
        rw [stepped] at after
        rw [Machine.visits_of_step unfinished stepped, Machine.runToEnd_of_step unfinished stepped,
          ← List.append_assoc]
        exact ih _ after
    | case3 machine unfinished failure next stepped =>
        intro log holds
        have after := steps log machine holds
        rw [stepped] at after
        rw [Machine.visits_of_failed_step unfinished stepped,
          Machine.runToEnd_of_failed_step unfinished stepped]
        exact after
  induction reached with
  | start started => exact starts _ started
  | @call log machine reached call holds =>
      cases call with
      | step => exact steps log machine holds
      | validate =>
          rw [Call.run, Machine.left_validate]
          exact runs machine log holds

private theorem Request.Reaches.exists_log {request : Request} {machine : Machine}
    (reached : request.Reaches machine) : ∃ log, request.ReachesBy log machine := by
  induction reached with
  | start started => exact ⟨[], .start started⟩
  | call reached call ih =>
      obtain ⟨log, logged⟩ := ih
      exact ⟨_, logged.call call⟩

/-- A property of the machine that every step keeps holds after every call. -/
theorem Request.Reaches.induction {request : Request} {property : Machine → Prop}
    (starts : ∀ machine, request.start = .ok machine → property machine)
    (steps : ∀ machine, property machine → property (Outcome.left (Machine.step machine)))
    {machine : Machine} (reached : request.Reaches machine) : property machine := by
  obtain ⟨log, logged⟩ := reached.exists_log
  exact @ReachesBy.induction request (fun _ => property) starts (fun _ => steps) log machine logged

end BitcoinSpend.Spend
