import Mathlib.Logic.Relation
import BitcoinSpend.Proofs.Spend.Boundary
import BitcoinSpend.Proofs.Spend.CountedOperations
import BitcoinSpend.Proofs.Spend.Visits

/-!
# Calls after a call that failed

A failure does not mark the machine, so that a later call goes on from the place and
the state that the failure left. It fails again if the failure took nothing: the
chunk that was refused meets the state that it was refused in, and only operations
have been counted since.
-/

set_option autoImplicit false

namespace BitcoinSpend.Spend

namespace Machine

def withCount (machine : Machine) (count : Nat) : Machine :=
  { machine with state := machine.state.withCount count }

/-- A failure at a place left the machine there, with no more done than counting operations. -/
def Unmoved (place left : Machine) : Prop :=
  ∃ count, place.state.opCount ≤ count ∧ left = place.withCount count

/-- The place of the chunk that a step comes to, in the locking script if the unlocking script is at
its end. -/
def arrived (machine : Machine) : Machine :=
  if machine.isBetween then Outcome.left (enterLocking machine) else machine

/-- The place where a run comes to its end or to a step that fails. -/
def halt (machine : Machine) : Machine :=
  if finished : machine.isFinished then machine
  else
    match stepped : step machine with
    | .ok () next =>
        have := remaining_lt_of_step (Bool.eq_false_iff.mpr finished) stepped
        halt next
    | .error _ _ => machine.arrived
termination_by machine.remaining

private theorem halt_of_step {machine next : Machine} (unfinished : ¬machine.isFinished = true)
    (stepped : step machine = .ok () next) : machine.halt = next.halt := by
  rw [halt, dif_neg unfinished]
  split
  · next again =>
      rw [stepped] at again
      cases again
      rfl
  · next again =>
      rw [stepped] at again
      cases again

private theorem halt_of_failed_step {machine next : Machine} {failure : Failure}
    (unfinished : ¬machine.isFinished = true) (stepped : step machine = .error failure next) :
    machine.halt = machine.arrived := by
  rw [halt, dif_neg unfinished]
  split
  · next again =>
      rw [stepped] at again
      cases again
  · rfl

end Machine

/-- The place at which a call that fails does so. -/
def Call.halt : Call → Machine → Machine
  | step, machine => machine.arrived
  | validate, machine => machine.halt

/-- A call on the one machine, succeeding or failing, leaves the other. -/
def Machine.CallsTo (machine next : Machine) : Prop :=
  ∃ call : Call, Outcome.left (call.run machine) = next

/-- No call brings the machine to a true result. -/
inductive Machine.Stuck (machine : Machine) : Prop where
  | openEnd (between : machine.isBetween = true) (isOpen : machine.state.branches ≠ [])
  | refusedResult (finished : machine.isFinished = true) {fault : Fault}
      (refused : checkResult machine.state machine.setup.flags = .error fault)
  | refusedChunk {chunk : Chunk} (here : machine.script[machine.position]? = some chunk)
      {origin : State} {spent count : Nat} {fault : Fault}
      (refused : Exec.chunk chunk machine.frame origin = .error fault (origin.withCount spent))
      (grown : origin.opCount ≤ spent) (more : origin.opCount ≤ count)
      (now : machine.state = origin.withCount count)
  | overspent {chunk : Chunk} (here : machine.script[machine.position]? = some chunk)
      (counted : Opcode.sixteen < chunk.op)
      (beyond : machine.setup.limits.maxOps < machine.state.opCount)

namespace Machine

variable {machine next left : Machine} {chunk : Chunk} {fault : Fault} {state : State}
  {failure : Failure}

/-! ## Failing steps -/

theorem position_lt_of_here (here : machine.script[machine.position]? = some chunk) :
    machine.position < machine.script.length :=
  (List.getElem?_eq_some_iff.mp here).1

theorem step_of_failed_advance (failed : advance machine = .error fault left) :
    step machine = .error (left.failure fault) left := by
  simp only [step, reporting, failed]

private theorem advance_of_failed_step (failed : step machine = .error failure left) :
    advance machine = .error failure.fault left := by
  simp only [step, reporting] at failed
  split at failed
  · cases failed
  · next advanced =>
      cases failed
      exact advanced

theorem enterLocking_of_open (isOpen : machine.state.branches ≠ []) :
    enterLocking machine = .error .openAtUnlockingEnd machine := by
  have notClosed : machine.state.branches.isEmpty = false := List.isEmpty_eq_false_iff.mpr isOpen
  simp only [enterLocking, notClosed, Bool.false_eq_true, if_false]

theorem runCurrent_of_refused (here : machine.script[machine.position]? = some chunk)
    (refused : Exec.chunk chunk machine.frame machine.state = .error fault state) :
    runCurrent machine = .error fault { machine with state := state } := by
  have stays : runChunk chunk machine = .error fault { machine with state := state } := by
    simp only [runChunk]
    rw [show Exec.chunk chunk ⟨machine.setup, machine.phase, machine.position⟩ machine.state =
      .error fault state from refused]
  rw [runCurrent_of_here here, bind_of_error stays]

theorem step_of_refused (here : machine.script[machine.position]? = some chunk)
    (refused : Exec.chunk chunk machine.frame machine.state = .error fault state) :
    step machine = .error ({ machine with state := state }.failure fault)
      { machine with state := state } := by
  have begun := isBetween_eq_false (position_lt_of_here here)
  exact step_of_failed_advance
    ((advance_of_begun begun).trans (runCurrent_of_refused here refused))

/-- A chunk that was run is behind the machine when a limit turns out to be exceeded. -/
private theorem refused_or_passed (here : machine.script[machine.position]? = some chunk)
    (failed : runCurrent machine = .error fault left) :
    (∃ state, Exec.chunk chunk machine.frame machine.state = .error fault state ∧
      left = { machine with state := state }) ∨ machine.position < left.position := by
  have inside := position_lt_of_here here
  rw [runCurrent_of_here here] at failed
  simp only [bind, EStateM.bind] at failed
  split at failed
  · next next ran =>
      right
      have stays : left = next := by
        have stays := left_checkLimits next
        rwa [failed] at stays
      subst stays
      obtain ⟨-, -, past | ended⟩ := runChunk_ok ran <;> omega
  · next ran =>
      left
      cases failed
      unfold runChunk at ran
      split at ran
      · cases ran
      · cases ran
      · next state refused =>
          cases ran
          exact ⟨state, refused, rfl⟩

/-! ## Machines that stay stuck -/

/-- A step of a stuck machine fails and leaves it stuck, except at its end. -/
private theorem Stuck.step_fails (stuck : machine.Stuck) (unfinished : machine.isFinished = false) :
    ∃ failure left, step machine = .error failure left ∧ left.Stuck := by
  cases stuck with
  | openEnd between isOpen =>
      have fails : advance machine = .error .openAtUnlockingEnd machine := by
        rw [advance_eq, if_pos between, bind_of_error (enterLocking_of_open isOpen)]
      exact ⟨_, machine, step_of_failed_advance fails, .openEnd between isOpen⟩
  | refusedResult finished refused =>
      rw [finished] at unfinished
      cases unfinished
  | @refusedChunk chunk here origin spent count fault refused grown more now =>
      have outcomes := Exec.recounts_chunk chunk machine.frame origin count more
      rw [refused, ← now] at outcomes
      generalize again : Exec.chunk chunk machine.frame machine.state = outcome at outcomes
      cases outcomes with
      | @error _ _ count' spentMore =>
          refine ⟨_, _, step_of_refused here again, ?_⟩
          exact .refusedChunk here refused grown (Nat.le_trans grown spentMore) rfl
      | exhausted counted beyond =>
          exact ⟨_, _, step_of_refused here again, .overspent here counted beyond⟩
  | overspent here counted beyond =>
      obtain ⟨fault, state, refused, still⟩ :=
        Exec.chunk_of_overspent machine.frame counted beyond
      exact ⟨_, _, step_of_refused here refused, .overspent here counted still⟩

private theorem Stuck.refused_of_finished (stuck : machine.Stuck)
    (finished : machine.isFinished = true) :
    ∃ fault, checkResult machine.state machine.setup.flags = .error fault := by
  cases stuck with
  | openEnd between isOpen =>
      simp only [isFinished, isBetween, Bool.and_eq_true, decide_eq_true_eq] at finished between
      rw [finished.1] at between
      cases between.1
  | refusedResult _ refused => exact ⟨_, refused⟩
  | refusedChunk here _ _ _ _ | overspent here _ _ =>
      rw [isFinished_eq_false (position_lt_of_here here)] at finished
      cases finished

private theorem Stuck.validate_fails (stuck : machine.Stuck) :
    ∃ failure last, validate machine = .error failure last ∧ last.Stuck := by
  cases finished : machine.isFinished with
  | false =>
      obtain ⟨failure, last, stepped, after⟩ := stuck.step_fails finished
      have ran := runToEnd_of_failed_step (Bool.eq_false_iff.mp finished) stepped
      exact ⟨failure, last, validate_of_failed ran, after⟩
  | true =>
      obtain ⟨fault, refused⟩ := stuck.refused_of_finished finished
      refine ⟨machine.failure fault, machine, ?_, stuck⟩
      rw [validate_of_ended (runToEnd_of_finished finished)]
      simp only [reporting, requireResult, refused]

private theorem Stuck.left_call (stuck : machine.Stuck) (call : Call) :
    (Outcome.left (call.run machine)).Stuck := by
  cases call with
  | step =>
      cases finished : machine.isFinished with
      | true =>
          rw [Call.run, step_of_finished finished]
          exact stuck
      | false =>
          obtain ⟨failure, last, stepped, after⟩ := stuck.step_fails finished
          rw [Call.run, stepped]
          exact after
  | validate =>
      obtain ⟨failure, last, validated, after⟩ := stuck.validate_fails
      rw [Call.run, validated]
      exact after

private theorem Stuck.of_calls (stuck : machine.Stuck)
    (later : Relation.ReflTransGen CallsTo machine next) : next.Stuck := by
  induction later with
  | refl => exact stuck
  | tail _ called still =>
      obtain ⟨call, rfl⟩ := called
      exact still.left_call call

/-! ## Failures that stick -/

private theorem stuck_of_runCurrent (begun : machine.isBetween = false) {count : Nat}
    (grown : machine.state.opCount ≤ count)
    (failed : runCurrent machine = .error fault (machine.withCount count)) :
    (machine.withCount count).Stuck := by
  cases finished : machine.isFinished with
  | true =>
      rw [runCurrent, if_pos finished] at failed
      cases failed
  | false =>
      have here := List.getElem?_eq_getElem (position_lt_of_begun begun finished)
      obtain ⟨state, refused, left⟩ | passed := refused_or_passed here failed
      · have same : machine.state.withCount count = state := congrArg Machine.state left
        subst same
        exact .refusedChunk here refused grown grown rfl
      · exact absurd passed (Nat.lt_irrefl _)

private theorem stuck_of_step (failed : step machine = .error failure left)
    (unmoved : machine.arrived.Unmoved left) : left.Stuck := by
  have advanced := advance_of_failed_step failed
  obtain ⟨count, grown, rfl⟩ := unmoved
  unfold arrived at grown advanced ⊢
  cases between : machine.isBetween with
  | false =>
      rw [between, if_neg Bool.false_ne_true] at grown advanced
      rw [if_neg Bool.false_ne_true]
      rw [advance_of_begun between] at advanced
      exact stuck_of_runCurrent between grown advanced
  | true =>
      rw [between, if_pos rfl] at grown advanced
      rw [if_pos rfl]
      by_cases closed : machine.state.branches = []
      · rw [enterLocking_of_closed closed] at grown advanced ⊢
        rw [advance_of_between between closed] at advanced
        exact stuck_of_runCurrent machine.isBetween_entered grown advanced
      · rw [enterLocking_of_open closed]
        exact .openEnd between closed

private theorem stuck_of_runToEnd (failed : runToEnd machine = .error failure left)
    (unmoved : machine.halt.Unmoved left) : left.Stuck := by
  induction machine using runToEnd.induct with
  | case1 machine finished =>
      rw [runToEnd_of_finished finished] at failed
      cases failed
  | case2 machine unfinished next stepped _ ih =>
      rw [runToEnd_of_step unfinished stepped] at failed
      rw [halt_of_step unfinished stepped] at unmoved
      exact ih failed unmoved
  | case3 machine unfinished failure' next stepped =>
      rw [runToEnd_of_failed_step unfinished stepped] at failed
      rw [halt_of_failed_step unfinished stepped] at unmoved
      cases failed
      exact stuck_of_step stepped unmoved

private theorem isFinished_of_runToEnd (ran : runToEnd machine = .ok () next) :
    next.isFinished = true := by
  induction machine using runToEnd.induct with
  | case1 machine finished =>
      rw [runToEnd_of_finished finished] at ran
      cases ran
      exact finished
  | case2 machine unfinished middle stepped _ ih =>
      rw [runToEnd_of_step unfinished stepped] at ran
      exact ih ran
  | case3 machine unfinished failure' last stepped =>
      rw [runToEnd_of_failed_step unfinished stepped] at ran
      cases ran

/-- What the end of a run refuses has taken nothing, so that it is refused for good. -/
private theorem stuck_of_requireResult (finished : machine.isFinished = true)
    (failed : reporting requireResult machine = .error failure left) : left.Stuck := by
  simp only [reporting, requireResult] at failed
  cases refused : checkResult machine.state machine.setup.flags with
  | ok _ =>
      rw [refused] at failed
      cases failed
  | error fault =>
      rw [refused] at failed
      cases failed
      exact .refusedResult finished refused

private theorem stuck_of_call {call : Call} (failed : call.run machine = .error failure left)
    (unmoved : (call.halt machine).Unmoved left) : left.Stuck := by
  cases call with
  | step => exact stuck_of_step failed unmoved
  | validate =>
      rw [Call.run] at failed
      cases ran : runToEnd machine with
      | ok _ ended =>
          rw [validate_of_ended ran] at failed
          exact stuck_of_requireResult (isFinished_of_runToEnd ran) failed
      | error _ _ =>
          rw [validate_of_failed ran] at failed
          cases failed
          exact stuck_of_runToEnd ran unmoved

end Machine

/-- Once a call has failed without taking anything, no validation succeeds, whatever is called
before it. -/
theorem validate_fails_of_unmoved {machine left after : Machine} {call : Call} {failure : Failure}
    (failed : call.run machine = .error failure left)
    (unmoved : (call.halt machine).Unmoved left)
    (later : Relation.ReflTransGen Machine.CallsTo left after) :
    ∃ failure' last, after.validate = .error failure' last := by
  have stuck : after.Stuck := (Machine.stuck_of_call failed unmoved).of_calls later
  obtain ⟨failure', last, validated, -⟩ := stuck.validate_fails
  exact ⟨failure', last, validated⟩

/-- No unlocking script, and a locking script that returns. -/
def returnsAtOnce : Request where
  sourceTxid := Hash32.zero
  sourceIndex := 0
  unlocking := ⟨[]⟩
  locking := ⟨[0x6a]⟩
  context := none
  inputIndex := 0
  flags := Flags.empty
  memoryLimit := 100

def returnsAtOnceStart : Machine :=
  Machine.initial (returnsAtOnce.setup [] [⟨0x6a, none⟩])

/-- The machine that ran into the return, with the operations counted so far. -/
def returnedAfter (count : Nat) : Machine :=
  returnsAtOnceStart.entered.withCount count

theorem returnsAtOnce_fails_for_good : ∃ failure,
    returnsAtOnce.start = .ok returnsAtOnceStart ∧
      returnsAtOnceStart.validate = .error failure (returnedAfter 1) ∧
      returnsAtOnceStart.halt.Unmoved (returnedAfter 1) ∧
      (returnedAfter 1).CallsTo (returnedAfter 2) ∧
      ∃ failure' last, (returnedAfter 2).validate = .error failure' last := by
  have started : returnsAtOnce.start = .ok returnsAtOnceStart := by cbv
  have failed : Call.validate.run returnsAtOnceStart =
      .error ((returnedAfter 1).failure .returnedEarly) (returnedAfter 1) := by cbv
  have unmoved : (Call.validate.halt returnsAtOnceStart).Unmoved (returnedAfter 1) :=
    ⟨1, by cbv, by cbv⟩
  have again : Call.step.run (returnedAfter 1) =
      .error ((returnedAfter 2).failure .returnedEarly) (returnedAfter 2) := rfl
  have called : (returnedAfter 1).CallsTo (returnedAfter 2) := ⟨.step, by rw [again]; rfl⟩
  exact ⟨_, started, failed, unmoved, called,
    validate_fails_of_unmoved failed unmoved (.single called)⟩

/-- A false item above two true ones, and a verification. -/
def verifiesTwice : Request where
  sourceTxid := Hash32.zero
  sourceIndex := 0
  unlocking := ⟨[0x51, 0x51, 0x00]⟩
  locking := ⟨[0x69]⟩
  context := none
  inputIndex := 0
  flags := Flags.empty
  memoryLimit := 100

def verifiesTwiceStart : Machine :=
  Machine.initial (verifiesTwice.setup [⟨0x51, none⟩, ⟨0x51, none⟩, ⟨0x00, none⟩] [⟨0x69, none⟩])

/-- The failing verification takes the false item, so that the next one passes. -/
theorem verifiesTwice_validates_after_failure :
    verifiesTwice.start = .ok verifiesTwiceStart ∧
      ∃ failure left last, verifiesTwiceStart.validate = .error failure left ∧
        left.validate = .ok () last := by
  have started : verifiesTwice.start = .ok verifiesTwiceStart := by cbv
  exact ⟨started, _, _, _, by cbv, by cbv⟩

end BitcoinSpend.Spend
