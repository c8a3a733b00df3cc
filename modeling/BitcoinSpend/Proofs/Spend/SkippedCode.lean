import BitcoinSpend.Proofs.Spend.FailedCalls
import BitcoinSpend.Proofs.Spend.Nesting
import BitcoinSpend.Proofs.Spend.PlainRun
import BitcoinSpend.Proofs.Spend.ResourceLimits
import BitcoinSpend.Proofs.Spend.StepCounts

/-!
# Skipped code has no effect

Where instructions are not run, conditionals are still tracked: they begin, switch
and end without a condition, below the branch or the return for which all is
skipped. So whatever well nested chunks hold, the machine comes past them with its
state as it was but for the count of operations, or a check that skipped chunks
undergo as well stops it at one of them.
-/

set_option autoImplicit false

namespace BitcoinSpend.Spend

/-- Why a chunk stops the script even where it is skipped, after a number of operations. -/
inductive Setup.Refuses (setup : Setup) (opCount : Nat) (chunk : Chunk) : Fault → Prop where
  | tooBig (pushes : chunk.op ≤ Opcode.pushData4)
      (long : setup.limits.maxElementSize < chunk.operand.length) :
      Refuses setup opCount chunk
        (.pushTooBig chunk.operand.length setup.limits.maxElementSize)
  | disabled (before : setup.afterGenesis = false)
      (asks : Instruction.ofOpcode chunk.op = .disabled) :
      Refuses setup opCount chunk (.disabledOpcode chunk.op)
  | reserved (before : setup.afterGenesis = false)
      (asks : Instruction.ofOpcode chunk.op = .reservedConditional) :
      Refuses setup opCount chunk (.reservedOpcode chunk.op)
  | exhausted (counted : Opcode.sixteen < chunk.op) (spent : setup.limits.maxOps ≤ opCount) :
      Refuses setup opCount chunk (.tooManyOperations setup.limits.maxOps)

theorem Setup.Refuses.code {setup : Setup} {opCount : Nat} {chunk : Chunk} {fault : Fault}
    (refuses : setup.Refuses opCount chunk fault) :
    fault.code = .elementTooBig ∨ fault.code = .tooManyOperations ∨
      setup.afterGenesis = false ∧
        (fault.code = .disabledOpcode ∨ fault.code = .reservedOpcode) := by
  cases refuses with
  | tooBig => exact Or.inl rfl
  | disabled before => exact Or.inr (Or.inr ⟨before, Or.inl rfl⟩)
  | reserved before => exact Or.inr (Or.inr ⟨before, Or.inr rfl⟩)
  | exhausted => exact Or.inr (Or.inl rfl)

/-- The state inside more conditionals, given with the branch that is taken in each and whether it
has switched, innermost first. -/
def State.within (state : State) (taken switched : List Bool) : State :=
  { state with branches := taken ++ state.branches, switched := switched ++ state.switched }

/-- Nothing runs inside a branch that is not taken or after a return, whatever conditionals begin
there. -/
private theorem State.isExecuting_within {setup : Setup} {state : State}
    (skips : state.isExecuting setup = false) (taken switched : List Bool) :
    (state.within taken switched).isExecuting setup = false := by
  simp only [State.isExecuting, State.branchesTaken, State.within, List.all_append,
    Bool.and_eq_false_iff] at skips ⊢
  exact skips.imp_left Or.inr

/-! ## One chunk -/

namespace Exec

variable {frame : Frame} {state : State} {chunk : Chunk}

theorem isExecuting_of_skips (skips : state.isExecuting frame.setup = false) :
    isExecuting frame state = .ok false state := by
  rw [isExecuting_run, skips]

/-- The checks on a chunk that is skipped refuse it or count it. -/
theorem precheck_of_skips (skips : state.isExecuting frame.setup = false) (chunk : Chunk) :
    (∃ fault count, frame.setup.Refuses state.opCount chunk fault ∧
      precheck (Instruction.ofOpcode chunk.op) chunk frame state =
        .error fault (state.withCount count)) ∨
    precheck (Instruction.ofOpcode chunk.op) chunk frame state =
      .ok () (state.withCount (countAfter chunk state.opCount)) := by
  rw [precheck, bind_setup, refuse_bind_run, bind_of_ok (isExecuting_of_skips skips),
    refuse_bind_run, refuse_bind_run]
  simp only [Bool.or_false, Bool.and_eq_true, Bool.not_eq_true', decide_eq_true_eq]
  split
  · next big => exact Or.inl ⟨_, state.opCount, .tooBig big.1 big.2, rfl⟩
  · split
    · next disabled => exact Or.inl ⟨_, state.opCount, .disabled disabled.1 disabled.2, rfl⟩
    · split
      · next reserved => exact Or.inl ⟨_, state.opCount, .reserved reserved.1 reserved.2, rfl⟩
      · rw [countAfter]
        split
        · next counted =>
            rw [countOps_run]
            split
            · next spent =>
                exact Or.inl ⟨_, _, .exhausted counted (Nat.le_of_lt_succ spent), rfl⟩
            · exact Or.inr rfl
        · exact Or.inr rfl

private theorem run_of_skips (skips : state.isExecuting frame.setup = false)
    {instruction : Instruction}
    (conditional : instruction.isConditional = true) {taken opened opened' : List Bool}
    (paired : taken.length = opened.length) (reopens : instruction.Reopens opened opened')
    (chunk : Chunk) : ∃ taken', taken'.length = opened'.length ∧
      run instruction chunk frame (state.within taken opened) =
        .ok .next (state.within taken' opened') := by
  cases reopens with
  | plain other =>
      rw [other] at conditional
      cases conditional
  | @begin negated =>
      refine ⟨false :: taken, by simp [paired], run_of_straight nofun ?_⟩
      have chosen : chooseBranch negated frame (state.within taken opened) =
          .ok false (state.within taken opened) :=
        bind_of_ok (isExecuting_of_skips (State.isExecuting_within skips taken opened))
      exact bind_of_ok chosen
  | switch =>
      obtain ⟨inner, outer, rfl⟩ := List.exists_cons_of_length_eq_add_one paired
      exact ⟨(!inner) :: outer, by simpa using paired, rfl⟩
  | close =>
      obtain ⟨inner, outer, rfl⟩ := List.exists_cons_of_length_eq_add_one paired
      exact ⟨outer, by simpa using paired, rfl⟩

/-- A chunk that is skipped is refused, or only counted and tracked. -/
private theorem chunk_of_skips (skips : state.isExecuting frame.setup = false)
    {taken opened opened' : List Bool} (paired : taken.length = opened.length)
    (reopens : (Instruction.ofOpcode chunk.op).Reopens opened opened') :
    (∃ fault count, frame.setup.Refuses state.opCount chunk fault ∧
      Exec.chunk chunk frame (state.within taken opened) =
        .error fault ((state.within taken opened).withCount count)) ∨
    ∃ taken', taken'.length = opened'.length ∧
      Exec.chunk chunk frame (state.within taken opened) =
        .ok .next ((state.withCount (countAfter chunk state.opCount)).within taken' opened') := by
  have within := State.isExecuting_within skips taken opened
  rcases precheck_of_skips within chunk with ⟨fault, count, refuses, failed⟩ | passed
  · exact Or.inl ⟨fault, count, refuses, chunk_of_refused failed⟩
  · right
    have counted : (state.withCount (countAfter chunk state.opCount)).isExecuting frame.setup =
        false := skips
    have still : ((state.within taken opened).withCount (countAfter chunk
        (state.within taken opened).opCount)).isExecuting frame.setup = false :=
      State.isExecuting_within counted taken opened
    rw [chunk_of_passed passed, still, Bool.false_or]
    cases conditional : (Instruction.ofOpcode chunk.op).isConditional with
    | true =>
        obtain ⟨taken', paired', ran⟩ := run_of_skips counted conditional paired reopens chunk
        exact ⟨taken', paired', ran⟩
    | false =>
        generalize Instruction.ofOpcode chunk.op = instruction at conditional reopens ⊢
        cases reopens with
        | plain => exact ⟨taken, paired, rfl⟩
        | begin | switch | close => cases conditional

end Exec

/-! ## Runs of chunks -/

def countedIn (chunks : List Chunk) : Nat :=
  chunks.countP fun chunk => Opcode.sixteen < chunk.op

private theorem countedIn_concat (chunks : List Chunk) (chunk : Chunk) (opCount : Nat) :
    opCount + countedIn (chunks ++ [chunk]) =
      Exec.countAfter chunk (opCount + countedIn chunks) := by
  rw [countedIn, countedIn, List.countP_append, List.countP_singleton, Exec.countAfter]
  by_cases counted : Opcode.sixteen < chunk.op
  · rw [if_pos (decide_eq_true counted), if_pos counted, Nat.add_assoc]
  · rw [if_neg (by simpa using counted), if_neg counted, Nat.add_zero]

namespace Machine

/-- The machine after chunks of which only the operations have been counted. -/
def skipped (machine : Machine) (chunks : List Chunk) : Machine :=
  { machine with
    position := machine.position + chunks.length
    state := machine.state.withCount (machine.state.opCount + countedIn chunks) }

/-- The same with conditionals open that began among the chunks. -/
def skippedInto (machine : Machine) (chunks : List Chunk) (taken switched : List Bool) : Machine :=
  { machine.skipped chunks with state := (machine.skipped chunks).state.within taken switched }

/-- A report that a skipped chunk was refused after others had been skipped. -/
structure RefusedAfter (machine : Machine) (before : List Chunk) (chunk : Chunk)
    (failure : Failure) : Prop where
  refuses :
    machine.setup.Refuses (machine.state.opCount + countedIn before) chunk failure.fault
  phase : failure.phase = machine.phase
  position : failure.position = machine.position + before.length
  stack : failure.stack = machine.stack
  alt : failure.alt = machine.alt

variable {machine : Machine} {chunk : Chunk} {before rest : List Chunk} {taken opened : List Bool}

private theorem step_of_skips (limited : machine.Limited machine.setup)
    (skips : machine.state.isExecuting machine.setup = false)
    (here : machine.script[machine.position + before.length]? = some chunk)
    (paired : taken.length = opened.length) {opened' : List Bool}
    (reopens : (Instruction.ofOpcode chunk.op).Reopens opened opened') :
    (∃ failure left, step (machine.skippedInto before taken opened) = .error failure left ∧
      machine.RefusedAfter before chunk failure) ∨
    ∃ taken', taken'.length = opened'.length ∧
      step (machine.skippedInto before taken opened) =
        .ok () (machine.skippedInto (before ++ [chunk]) taken' opened') := by
  have stays : (machine.skippedInto before taken opened).script[
      (machine.skippedInto before taken opened).position]? = some chunk := here
  have counted : (machine.skipped before).state.isExecuting
      (machine.skippedInto before taken opened).frame.setup = false := skips
  rcases Exec.chunk_of_skips counted paired reopens with
    ⟨fault, count, refuses, failed⟩ | ⟨taken', paired', ran⟩
  · exact Or.inl ⟨_, _, step_of_refused stays failed, refuses, rfl, rfl, rfl, rfl⟩
  · refine Or.inr ⟨taken', paired', ?_⟩
    rw [step_of_ran stays ran limited.depth limited.held]
    simp only [skippedInto, skipped, State.within, State.withCount, countedIn_concat,
      List.length_append, List.length_singleton, Nat.add_assoc]

private theorem stepMany_of_skips (limited : machine.Limited machine.setup)
    (skips : machine.state.isExecuting machine.setup = false)
    (here : before ++ rest <+: machine.script.drop machine.position)
    (paired : taken.length = opened.length) (closes : openAfter? opened rest = some []) :
    stepMany rest.length (machine.skippedInto before taken opened) =
      .ok () (machine.skipped (before ++ rest)) ∨
    ∃ earlier chunk later middle failure left, rest = earlier ++ chunk :: later ∧
      stepMany earlier.length (machine.skippedInto before taken opened) = .ok () middle ∧
        step middle = .error failure left ∧
          machine.RefusedAfter (before ++ earlier) chunk failure := by
  -- The conditionals that are open are those that the chunks still to come will end.
  induction rest generalizing before taken opened with
  | nil =>
      cases closes
      obtain rfl : taken = [] := List.length_eq_zero_iff.mp paired
      left
      rw [List.append_nil]
      rfl
  | cons chunk rest ih =>
      rw [openAfter?_cons, Option.bind_eq_some_iff] at closes
      obtain ⟨opened', tracked, closes⟩ := closes
      have place : machine.script[machine.position + before.length]? = some chunk := by
        obtain ⟨after, split⟩ := here
        rw [← List.getElem?_drop, ← split]
        simp
      rcases step_of_skips limited skips place paired (Instruction.reopens_of_reopen tracked) with
        ⟨failure, left, failed, refused⟩ | ⟨taken', paired', stepped⟩
      · refine Or.inr ⟨[], chunk, rest, _, failure, left, rfl, rfl, failed, ?_⟩
        rwa [List.append_nil]
      · have further : before ++ [chunk] ++ rest <+: machine.script.drop machine.position := by
          rwa [List.append_assoc, List.singleton_append]
        rcases ih further paired' closes with
          passed | ⟨earlier, last, later, middle, failure, left, rfl, ran, failed, refused⟩
        · left
          rw [List.length_cons, stepMany_succ_of_ok stepped, passed, List.append_assoc,
            List.singleton_append]
        · refine Or.inr ⟨chunk :: earlier, last, later, middle, failure, left, rfl, ?_, failed, ?_⟩
          · rwa [List.length_cons, stepMany_succ_of_ok stepped]
          · rwa [List.append_assoc, List.singleton_append] at refused

end Machine

namespace Request

/-- Where nothing is executing, well nested chunks are passed without an effect, or one of them is
refused. -/
theorem skips_of_wellNested {request : Request} {start machine : Machine} {chunks : List Chunk}
    (started : request.start = .ok start)
    (steps : Relation.ReflTransGen Machine.StepsTo start machine)
    (skips : machine.state.isExecuting machine.setup = false)
    (here : chunks <+: machine.script.drop machine.position) (nested : WellNested chunks) :
    Machine.stepMany chunks.length machine = .ok () (machine.skipped chunks) ∨
    ∃ before chunk after middle failure left, chunks = before ++ chunk :: after ∧
      Machine.stepMany before.length machine = .ok () middle ∧
        middle.step = .error failure left ∧ machine.RefusedAfter before chunk failure ∧
          (failure.fault.code = .elementTooBig ∨ failure.fault.code = .tooManyOperations ∨
            machine.setup.afterGenesis = false ∧
              (failure.fault.code = .disabledOpcode ∨ failure.fault.code = .reservedOpcode)) := by
  obtain ⟨unlocking, locking, -, -, rfl⟩ := eq_initial_of_start started
  have limited := Machine.limited_of_steps (Machine.limited_initial _) steps
  rw [← limited.fixed] at limited
  have whole : [] ++ chunks <+: machine.script.drop machine.position := here
  have paired : ([] : List Bool).length = ([] : List Bool).length := rfl
  rcases Machine.stepMany_of_skips limited skips whole paired (nested.openAfter? []) with
    passed | ⟨before, chunk, after, middle, failure, left, split, ran, failed, refused⟩
  · exact Or.inl passed
  · exact Or.inr ⟨before, chunk, after, middle, failure, left, split, ran, failed, refused,
      refused.refuses.code⟩

/-- A branch that is not taken, with a conditional inside whose branches would both fail. -/
def failsUntaken : Request where
  sourceTxid := Hash32.zero
  sourceIndex := 0
  unlocking := ⟨[0x00]⟩
  locking := ⟨[0x63, 0x64, 0x6a, 0x67, 0x69, 0x68, 0x68, 0x51]⟩
  context := none
  inputIndex := 0
  flags := Flags.empty
  memoryLimit := 1

/-- The conditional inside: a negated one, a return, the switch, a verification and the end. -/
def untakenChunks : List Chunk :=
  [⟨0x64, none⟩, ⟨0x6a, none⟩, ⟨0x67, none⟩, ⟨0x69, none⟩, ⟨0x68, none⟩]

private def untakenStart : Machine :=
  Machine.initial (failsUntaken.setup [⟨0x00, none⟩]
    (⟨0x63, none⟩ :: (untakenChunks ++ [⟨0x68, none⟩, ⟨0x51, none⟩])))

private def untakenPushed : Machine :=
  { untakenStart with
    position := 1
    state := { untakenStart.state with stack := ⟨[[]], 0, ⟨4, false⟩⟩ } }

/-- The outer conditional has begun, with a branch that is not taken. -/
private def untakenEntered : Machine :=
  { untakenStart with
    phase := .locking
    position := 1
    state := { untakenStart.state with branches := [false], switched := [false], opCount := 1 } }

theorem failsUntaken_skips : ∃ start machine, failsUntaken.start = .ok start ∧
    Relation.ReflTransGen Machine.StepsTo start machine ∧ machine.branches = [false] ∧
    untakenChunks <+: machine.script.drop machine.position ∧ WellNested untakenChunks ∧
    Machine.stepMany 5 machine = .ok () (machine.skipped untakenChunks) := by
  have started : failsUntaken.start = .ok untakenStart := by cbv
  have pushed : Machine.StepsTo untakenStart untakenPushed := rfl
  have entered : Machine.StepsTo untakenPushed untakenEntered := rfl
  have steps : Relation.ReflTransGen Machine.StepsTo untakenStart untakenEntered :=
    .tail (.single pushed) entered
  have here : untakenChunks <+: untakenEntered.script.drop untakenEntered.position :=
    ⟨[⟨0x68, none⟩, ⟨0x51, none⟩], rfl⟩
  have nested : WellNested untakenChunks := by decide
  refine ⟨_, _, started, steps, rfl, here, nested, ?_⟩
  refine (skips_of_wellNested started steps rfl here nested).resolve_right ?_
  rintro ⟨before, chunk, after, middle, failure, left, split, -, -, refused, -⟩
  have member : chunk ∈ untakenChunks := by rw [split]; simp
  have refuses := refused.refuses
  generalize failure.fault = fault at refuses
  cases refuses with
  | tooBig pushes =>
      have absent : ∀ chunk ∈ untakenChunks, ¬ chunk.op ≤ Opcode.pushData4 := by decide
      exact absent chunk member pushes
  | disabled _ asks =>
      have absent : ∀ chunk ∈ untakenChunks, Instruction.ofOpcode chunk.op ≠ .disabled := by decide
      exact absent chunk member asks
  | reserved _ asks =>
      have absent : ∀ chunk ∈ untakenChunks,
          Instruction.ofOpcode chunk.op ≠ .reservedConditional := by decide
      exact absent chunk member asks
  | exhausted _ spent =>
      have few : before.length ≤ untakenChunks.length := by
        rw [split, List.length_append]
        exact Nat.le_add_right _ _
      have counted : countedIn before ≤ before.length := List.countP_le_length
      have limit : 500 ≤ 1 + countedIn before := spent
      have length : untakenChunks.length = 5 := rfl
      omega

end Request

end BitcoinSpend.Spend
