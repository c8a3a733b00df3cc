import BitcoinSpend.Proofs.Spend.BlindInstructions
import BitcoinSpend.Proofs.Spend.EarlyReturn

/-!
# Items beneath the main stack

A step that succeeds, succeeds as well with any items beneath the main stack, if their
bytes may be held and the limit on the depth allows them. It leaves them where they
are and does all else as before. Only an instruction that counts the items on the stack
tells the difference.
-/

set_option autoImplicit false

namespace BitcoinSpend.Spend

/-- The state with items beneath the main stack, top first. -/
def State.above (state : State) (beneath : List Bytes) : State :=
  { state with stack := state.stack.atop beneath }

/-- The nesting of a state, with items beneath its main stack. -/
def State.background (state : State) (beneath : List Bytes) : Background :=
  ⟨beneath, state.branches, state.switched, state.returned⟩

private theorem State.atop_background (state : State) :
    state.atop (state.background []) = state := by
  rw [State.atop]
  simp only [State.background, Stack.atop_nil]

/-! ## One chunk -/

namespace Exec

variable {frame : Frame} {state next : State} {beneath : List Bytes} {chunk : Chunk}
  {instruction : Instruction}

/-- What works in any nesting does not change the nesting that it works in. -/
theorem nesting_of_blind {α : Type} {op : Exec α} {value : α}
    (blind : ∀ background, Blind background op op) (ran : op frame state = .ok value next) :
    next.branches = state.branches ∧ next.switched = state.switched ∧
      next.returned = state.returned := by
  obtain ⟨next', ran', same⟩ := blind (state.background []) frame state.atop_background.symm ran
  have again : op frame state = .ok value next' := ran'
  rw [ran] at again
  cases again
  rw [same]
  exact ⟨rfl, rfl, rfl⟩

private theorem above_of_blind {α : Type} {op : Exec α} {value : α}
    (blind : ∀ background, Blind background op op) (ran : op frame state = .ok value next) :
    op (frame.withRoom (totalLength beneath)) (state.above beneath) =
      .ok value (next.above beneath) := by
  obtain ⟨_, ran', rfl⟩ := blind (state.background beneath) frame rfl ran
  obtain ⟨branches, switched, returned⟩ := nesting_of_blind blind ran
  refine ran'.trans ?_
  rw [State.above, State.atop]
  simp only [State.background, ← branches, ← switched, ← returned]

theorem blind_choice {background : Background} (executing negated : Bool) :
    Blind background
      (if executing then (do
        let condition ← popCondition
        pure (condition != negated))
      else pure false)
      (if executing then (do
        let condition ← popCondition
        pure (condition != negated))
      else pure false) :=
  .ite (blind_popCondition.bind fun _ => .pure _) (.pure false)

/-- Whether a condition is taken from the stack depends on the nesting, which is the same. -/
private theorem chooseBranch_above {negated taken : Bool}
    (ran : chooseBranch negated frame state = .ok taken next) :
    chooseBranch negated (frame.withRoom (totalLength beneath)) (state.above beneath) =
      .ok taken (next.above beneath) := by
  have executing : (state.above beneath).isExecuting (frame.withRoom (totalLength beneath)).setup =
      state.isExecuting frame.setup := rfl
  rw [chooseBranch_run] at ran ⊢
  rw [executing]
  exact above_of_blind (fun _ => blind_choice _ negated) ran

private theorem conditional_above (conditional : instruction.isConditional = true)
    (ran : runStraight instruction chunk frame state = .ok () next) :
    runStraight instruction chunk (frame.withRoom (totalLength beneath)) (state.above beneath) =
      .ok () (next.above beneath) := by
  cases instruction with
  | beginIf negated =>
      obtain ⟨taken, chosen, chose, rfl⟩ := beginIf_eq_ok_iff.mp ran
      exact beginIf_eq_ok_iff.mpr ⟨taken, _, chooseBranch_above chose, rfl⟩
  | switchBranch =>
      obtain ⟨taken, outer, outerSwitched, branches, switched, rfl⟩ := switchBranch_eq_ok_iff.mp ran
      exact switchBranch_eq_ok_iff.mpr ⟨taken, outer, outerSwitched, branches, switched, rfl⟩
  | endIf =>
      obtain ⟨taken, outer, branches, rfl⟩ := endIf_eq_ok_iff.mp ran
      exact endIf_eq_ok_iff.mpr ⟨taken, outer, branches, rfl⟩
  | _ => cases conditional

private theorem run_above {flow : Flow} (other : instruction ≠ .depth)
    (ran : run instruction chunk frame state = .ok flow next) :
    run instruction chunk (frame.withRoom (totalLength beneath)) (state.above beneath) =
      .ok flow (next.above beneath) := by
  by_cases returns : instruction = .returnEarly
  · subst returns
    rw [run_returnEarly] at ran ⊢
    split at ran
    · next genesis =>
        have genesis' : (frame.withRoom (totalLength beneath)).setup.afterGenesis = true := genesis
        cases ran
        rw [if_pos genesis']
        rfl
    · cases ran
  · obtain ⟨rfl, ranStraight⟩ := run_eq_ok returns ran
    refine run_of_straight returns ?_
    cases conditional : instruction.isConditional with
    | true => exact conditional_above conditional ranStraight
    | false =>
        exact above_of_blind (fun _ => blind_runStraight conditional other chunk) ranStraight

private theorem precheck_above (instruction : Instruction) (chunk : Chunk) (frame : Frame)
    (state : State) (beneath : List Bytes) :
    precheck instruction chunk (frame.withRoom (totalLength beneath)) (state.above beneath) =
      Outcome.onLeft (State.above · beneath) (precheck instruction chunk frame state) := by
  have afterGenesis : (frame.withRoom (totalLength beneath)).setup.afterGenesis =
      frame.setup.afterGenesis := rfl
  have limits : (frame.withRoom (totalLength beneath)).setup.limits = frame.setup.limits := rfl
  have executing : (state.above beneath).isExecuting (frame.withRoom (totalLength beneath)).setup =
      state.isExecuting frame.setup := rfl
  have counted : (state.above beneath).opCount = state.opCount := rfl
  rw [precheck_run, precheck_run, countOps_run, countOps_run, afterGenesis, limits, executing,
    counted]
  split_ifs <;> rfl

private theorem chunk_above {flow : Flow} (ran : Exec.chunk chunk frame state = .ok flow next)
    (other : runs chunk frame state = true → Instruction.ofOpcode chunk.op ≠ .depth) :
    Exec.chunk chunk (frame.withRoom (totalLength beneath)) (state.above beneath) =
      .ok flow (next.above beneath) := by
  rcases precheck_cases chunk frame state with ⟨fault, count, failed⟩ | passed
  · cases (chunk_of_refused failed).symm.trans ran
  · have passed' : precheck (Instruction.ofOpcode chunk.op) chunk
        (frame.withRoom (totalLength beneath)) (state.above beneath) =
          .ok () ((state.withCount (countAfter chunk state.opCount)).above beneath) := by
      rw [precheck_above, passed]
      rfl
    have running : runs chunk frame state =
        ((state.withCount (countAfter chunk state.opCount)).isExecuting frame.setup ||
          (Instruction.ofOpcode chunk.op).isConditional) := by
      simp only [runs, passed]
    have same : ((state.withCount (countAfter chunk state.opCount)).above beneath).isExecuting
        (frame.withRoom (totalLength beneath)).setup =
          (state.withCount (countAfter chunk state.opCount)).isExecuting frame.setup := rfl
    rw [chunk_of_passed passed, ← running] at ran
    rw [chunk_of_passed passed', same, ← running]
    cases executed : runs chunk frame state with
    | true =>
        rw [executed, if_pos rfl] at ran
        rw [if_pos rfl]
        exact run_above (other executed) ran
    | false =>
        rw [executed, if_neg Bool.false_ne_true] at ran
        rw [if_neg Bool.false_ne_true]
        cases ran
        rfl

end Exec

/-! ## Steps -/

namespace Machine

/-- The machine with items beneath its main stack, bottom first, and room for their bytes. -/
def above (machine : Machine) (items : List Bytes) : Machine :=
  { machine with
    setup := machine.setup.withRoom (totalLength items)
    state := machine.state.above items.reverse }

variable {machine next : Machine} {items : List Bytes}

private theorem stack_above (machine : Machine) (items : List Bytes) :
    (machine.above items).stack = items ++ machine.stack := by
  have atop : (machine.above items).stack = (machine.state.stack.atop items.reverse).toList := rfl
  rw [atop, Stack.toList_atop, List.reverse_reverse]
  rfl

private theorem frame_above (machine : Machine) (items : List Bytes) :
    (machine.above items).frame = machine.frame.withRoom (totalLength items.reverse) := by
  rw [totalLength_reverse]
  rfl

theorem Runs.above {chunk : Chunk} {flow : Exec.Flow} {state : State}
    (runs : machine.Runs chunk (.ok flow state))
    (other : Exec.runs chunk machine.frame machine.state = true →
      Instruction.ofOpcode chunk.op ≠ .depth) :
    (machine.above items).Runs chunk (.ok flow (state.above items.reverse)) where
  here := runs.here
  ran := by
    rw [frame_above]
    exact Exec.chunk_above runs.ran other

private theorem arrived_above (machine : Machine) (items : List Bytes) :
    (machine.above items).arrived = machine.arrived.above items :=
  arrived_change (above · items) rfl rfl rfl

theorem InLimits.above (inLimits : machine.InLimits)
    (room : items.length + machine.state.stack.depth + machine.state.alt.depth ≤
      machine.setup.limits.maxStackSize) : (machine.above items).InLimits where
  depth := by
    have deeper : (machine.above items).state.stack.depth =
        machine.state.stack.depth + items.length := by
      rw [← List.length_reverse]
      exact Stack.depth_atop _ _
    have alt : (machine.above items).state.alt = machine.state.alt := rfl
    have limits : (machine.above items).setup.limits = machine.setup.limits := rfl
    rw [deeper, alt, limits]
    omega
  held := by
    have heavier : (machine.above items).state.stack.held =
        machine.state.stack.held + totalLength items := by
      rw [← totalLength_reverse]
      rfl
    have alt : (machine.above items).state.alt = machine.state.alt := rfl
    have limit : (machine.above items).setup.memoryLimit =
        machine.setup.memoryLimit + totalLength items := rfl
    have held := inLimits.held
    rw [heavier, alt, limit]
    omega

/-- A step that does not run the count of items does not see items beneath the main stack. -/
theorem step_above (items : List Bytes) (stepped : step machine = .ok () next)
    (other : ∀ visit, machine.visit? = some visit → visit.executed = true →
      Instruction.ofOpcode visit.chunk.op ≠ .depth)
    (room : items.length + next.state.stack.depth + next.state.alt.depth ≤
      machine.setup.limits.maxStackSize) :
    step (machine.above items) = .ok () (next.above items) ∧
      (next.above items).stack = items ++ next.stack := by
  refine ⟨?_, next.stack_above items⟩
  have outcome := step_outcome machine
  rw [stepped] at outcome
  cases outcome with
  | ended finished =>
      rw [← arrived_above]
      refine step_of_ended ?_
      rw [arrived_above]
      exact finished
  | @passed chunk flow state runs inLimits =>
      obtain ⟨visit, visits, rfl, executed⟩ := visit_of_here runs.here
      have runs' : (machine.above items).arrived.Runs visit.chunk
          (.ok flow (state.above items.reverse)) := by
        rw [arrived_above]
        exact runs.above fun running => other visit visits (executed.trans running)
      have room' : items.length + (machine.arrived.passed flow state).state.stack.depth +
          (machine.arrived.passed flow state).state.alt.depth ≤
            (machine.arrived.passed flow state).setup.limits.maxStackSize := by
        have setup : (machine.arrived.passed flow state).setup = machine.setup :=
          machine.arrived_keeps.1
        rw [setup]
        exact room
      have inLimits' : ((machine.above items).arrived.passed flow
          (state.above items.reverse)).InLimits := by
        rw [arrived_above]
        exact inLimits.above room'
      rw [step_of_passed runs' inLimits', arrived_above]
      rfl

end Machine

/-- The locking script copies the item below the top, given its index. -/
def copiesSecond : Request where
  sourceTxid := Hash32.zero
  sourceIndex := 0
  unlocking := ⟨[0x52, 0x53, 0x51]⟩
  locking := ⟨[0x79]⟩
  context := none
  inputIndex := 0
  flags := Flags.empty
  memoryLimit := 3

/-- The unlocking script has run, and the bytes that may be held are held. -/
def copiesSecondReady : Machine :=
  { Machine.initial (copiesSecond.setup [⟨0x52, none⟩, ⟨0x53, none⟩, ⟨0x51, none⟩]
      [⟨0x79, none⟩]) with
    position := 3
    state := { State.initial ⟨4, false⟩ with stack := ⟨[[0x01], [0x03], [0x02]], 3, ⟨4, false⟩⟩ } }

theorem copiesSecond_above : ∃ next, copiesSecondReady.step = .ok () next ∧
    next.stack = [[0x02], [0x03], [0x02]] ∧
    (copiesSecondReady.above [[0xaa, 0xbb], []]).step = .ok () (next.above [[0xaa, 0xbb], []]) ∧
    (next.above [[0xaa, 0xbb], []]).stack = [[0xaa, 0xbb], [], [0x02], [0x03], [0x02]] := by
  have stepped : ∃ next, copiesSecondReady.step = .ok () next ∧
      next.stack = [[0x02], [0x03], [0x02]] ∧
      2 + next.state.stack.depth + next.state.alt.depth ≤
        copiesSecondReady.setup.limits.maxStackSize := ⟨_, rfl, rfl, by decide⟩
  obtain ⟨next, stepped, stack, room⟩ := stepped
  have other : ∀ visit, copiesSecondReady.visit? = some visit → visit.executed = true →
      Instruction.ofOpcode visit.chunk.op ≠ .depth := by
    intro visit visits _
    cases visits
    decide
  obtain ⟨steppedAbove, stackAbove⟩ := Machine.step_above [[0xaa, 0xbb], []] stepped other room
  rw [stack] at stackAbove
  exact ⟨next, stepped, stack, steppedAbove, stackAbove⟩

end BitcoinSpend.Spend
