import BitcoinSpend.Proofs.ExceptProperties
import BitcoinSpend.Proofs.Spend.SafeInstructions
import BitcoinSpend.Proofs.Spend.Sequencing
import BitcoinSpend.Spend.Validate

/-!
# Every machine that calls reach is consistent

A request starts one machine, and each call of `step` or `validate` leaves another,
also where it fails. All of them are consistent, and no call accesses anything out
of range.
-/

set_option autoImplicit false

namespace BitcoinSpend.Spend

/-! ## One chunk -/

/-- Blocks of items that are exchanged, moved and copied have at least one item, and a machine word
counts them. -/
def Instruction.HasBlocks : Instruction → Prop
  | rotBlock count => 0 < 3 * count ∧ 3 * count < UInt64.size
  | overBlock count | swapBlock count => 0 < 2 * count ∧ 2 * count < UInt64.size
  | _ => True

private theorem Instruction.hasBlocks_ofOpcode (op : Opcode) : (ofOpcode op).HasBlocks := by
  unfold ofOpcode
  split
  · exact trivial
  · split
    · exact trivial
    · split <;> first | exact trivial | exact ⟨by decide, by decide⟩

namespace Exec

variable {bound : Nat} {frame : Frame}

private theorem safe_pushChunk (chunk : Chunk) : Safe bound frame (pushChunk chunk) := by
  refine (safe_hasFlag _).bind fun minimal => .refuse_bind (fun _ => nofun) fun _ => ?_
  split
  · exact safe_push _
  · exact .pure ()

private theorem safe_then_verify {op : Exec Unit} (safe : Safe bound frame op) (verifies : Bool)
    (kind : VerifyKind) (opcode : Opcode) :
    Safe bound frame (do op; if verifies then verify kind opcode) :=
  safe.bind fun _ => .ite (fun _ => safe_verify kind opcode) fun _ => .pure ()

/-- Only a separator is left out, which moves the bound. -/
private theorem safe_runStraight (inside : bound ≤ frame.script.length) {instruction : Instruction}
    (blocks : instruction.HasBlocks) (other : instruction ≠ .codeSeparator) (chunk : Chunk) :
    Safe bound frame (runStraight instruction chunk) := by
  cases instruction with
  | push => exact safe_pushChunk chunk
  | nop | returnEarly => exact .pure ()
  | upgradableNop => exact safe_upgradableNop _
  | beginIf negated => exact safe_beginIf negated
  | switchBranch => exact safe_switchBranch
  | endIf => exact safe_endIf
  | verify => exact safe_verify _ _
  | checkLockTime => exact safe_checkLockTime
  | checkSequence => exact safe_checkSequence
  | toAlt => exact safe_toAlt
  | fromAlt => exact safe_fromAlt
  | dropBlock count => exact safe_onStack (Stack.keeps_dropBlock count)
  | dupBlock count => exact safe_onStack (Stack.keeps_dupBlock count)
  | overBlock count => exact safe_onStack (Stack.keeps_overBlock blocks.1 blocks.2)
  | rotBlock count => exact safe_onStack (Stack.keeps_rotBlock blocks.1 blocks.2)
  | swapBlock count => exact safe_onStack (Stack.keeps_swapBlock blocks.1 blocks.2)
  | dupIfTrue => exact safe_dupIfTrue
  | depth => exact safe_depth
  | nip => exact safe_nip
  | pick => exact safe_pick
  | roll => exact safe_roll
  | tuck => exact safe_onStack Stack.keeps_tuck
  | cat => exact safe_cat
  | split => exact safe_split
  | numToBin => exact safe_numToBin
  | binToNum => exact safe_binToNum
  | size => exact safe_size
  | invert => exact safe_invert
  | bitwise operation => exact safe_bitwise operation
  | equal verifies => exact safe_then_verify safe_equal verifies _ _
  | unary operation => exact safe_unary operation
  | binary operation => exact safe_binary operation
  | relation operation => exact safe_relation operation
  | numEqualVerify => exact (safe_relation .equal).bind fun _ => safe_verify _ _
  | within => exact safe_within
  | shift direction => exact safe_shift direction
  | digest algorithm => exact safe_digest algorithm
  | codeSeparator => exact absurd rfl other
  | checkSig verifies => exact safe_then_verify (safe_checkSig inside) verifies _ _
  | checkMultiSig verifies => exact safe_then_verify (safe_checkMultiSig inside) verifies _ _
  | disabled | reservedConditional | reserved | unassigned => exact .throw nofun

private theorem safe_run (inside : bound ≤ frame.script.length) {instruction : Instruction}
    (blocks : instruction.HasBlocks) (other : instruction ≠ .codeSeparator) (chunk : Chunk) :
    Safe bound frame (run instruction chunk) :=
  .ite (fun _ => safe_returnEarly) fun _ =>
    (safe_runStraight inside blocks other chunk).bind fun _ => .pure Flow.next

private theorem safe_precheck (instruction : Instruction) (chunk : Chunk) :
    Safe bound frame (precheck instruction chunk) := by
  refine .setup_bind (.refuse_bind (fun _ => nofun) fun _ => ?_)
  refine safe_isExecuting.bind fun executing => ?_
  refine .refuse_bind (fun _ => nofun) fun _ => .refuse_bind (fun _ => nofun) fun _ => ?_
  exact .ite (fun _ => safe_countOps 1) fun _ => .pure ()

/-- What a chunk leaves. A separator that it runs is the chunk itself, before the next position; a
chunk that fails has run none. -/
def ChunkOutcome (position : Nat) : EStateM.Result Fault State Flow → Prop
  | .ok _ next => next.Consistent (position + 1)
  | .error fault next => next.Consistent position ∧ fault.InRange

private theorem ChunkOutcome.of_keeps {outcome : EStateM.Result Fault State Flow} {position : Nat}
    (keeps : Outcome.Keeps (State.Consistent position) Fault.InRange outcome) :
    ChunkOutcome position outcome := by
  cases outcome with
  | ok flow next => exact State.Consistent.mono keeps (Nat.le_succ position)
  | error fault next => exact keeps

private theorem run_outcome (inside : frame.position < frame.script.length) (chunk : Chunk)
    {state : State} (consistent : state.Consistent frame.position) :
    ChunkOutcome frame.position (run (Instruction.ofOpcode chunk.op) chunk frame state) := by
  -- A separator never fails, so that no failing instruction has moved the bound.
  by_cases separates : Instruction.ofOpcode chunk.op = .codeSeparator
  · rw [separates]
    refine { consistent with separator := ?_ }
    intro index found
    cases found
    exact Nat.lt_succ_self frame.position
  · refine .of_keeps (safe_run (Nat.le_of_lt inside) ?_ separates chunk state consistent)
    exact Instruction.hasBlocks_ofOpcode chunk.op

private theorem chunk_outcome (inside : frame.position < frame.script.length) (chunk : Chunk)
    {state : State} (consistent : state.Consistent frame.position) :
    ChunkOutcome frame.position (Exec.chunk chunk frame state) := by
  have checked : Outcome.Keeps (State.Consistent frame.position) Fault.InRange
      (precheck (Instruction.ofOpcode chunk.op) chunk frame state) :=
    safe_precheck _ chunk state consistent
  cases ran : precheck (Instruction.ofOpcode chunk.op) chunk frame state with
  | error fault next =>
      rw [ran] at checked
      rw [chunk_of_refused ran]
      exact checked
  | ok _ middle =>
      rw [ran] at checked
      rw [chunk_of_passed ran]
      split
      · exact run_outcome inside chunk checked
      · exact State.Consistent.mono checked (Nat.le_succ _)

end Exec

/-! ## Moves of the machine -/

/-- The state is consistent where the machine stands, which is in its script or at its end. -/
structure Machine.Consistent (machine : Machine) : Prop where
  state : machine.state.Consistent machine.position
  inside : machine.position ≤ machine.script.length

/-- The report of a failure tells of no access out of range. -/
def Failure.InRange (failure : Failure) : Prop :=
  failure.fault.InRange

namespace Machine

private theorem consistent_initial (setup : Setup) : (initial setup).Consistent where
  state := ⟨Stack.counted_empty _, Stack.counted_empty _, rfl, nofun⟩
  inside := Nat.zero_le _

private theorem keeps_enterLocking : Keeps Consistent Fault.InRange enterLocking := by
  intro machine consistent
  simp only [enterLocking]
  split
  · exact ⟨{ consistent.state with separator := nofun }, Nat.zero_le _⟩
  · exact ⟨consistent, nofun⟩

private theorem keeps_checkLimits : Keeps Consistent Fault.InRange checkLimits := by
  intro machine consistent
  simp only [checkLimits]
  split
  · exact ⟨consistent, nofun⟩
  · split
    · exact ⟨consistent, nofun⟩
    · exact consistent

private theorem runChunk_keeps {machine : Machine} (consistent : machine.Consistent)
    (inside : machine.position < machine.script.length) (chunk : Chunk) :
    Outcome.Keeps Consistent Fault.InRange (runChunk chunk machine) := by
  have outcome : Exec.ChunkOutcome machine.position
      (Exec.chunk chunk ⟨machine.setup, machine.phase, machine.position⟩ machine.state) :=
    Exec.chunk_outcome inside chunk consistent.state
  simp only [runChunk]
  split
  · next state ran =>
      rw [ran] at outcome
      exact ⟨outcome, inside⟩
  · next state ran =>
      rw [ran] at outcome
      exact ⟨State.Consistent.mono outcome inside, Nat.le_refl _⟩
  · next fault state ran =>
      rw [ran] at outcome
      exact ⟨⟨outcome.1, consistent.inside⟩, outcome.2⟩

/-- A script that has not ended has a chunk at the machine's place. -/
private theorem runCurrent_keeps {machine : Machine} (consistent : machine.Consistent)
    (begun : machine.isBetween = false) :
    Outcome.Keeps Consistent Fault.InRange (runCurrent machine) := by
  cases finished : machine.isFinished with
  | true =>
      simp only [runCurrent, finished, if_true]
      exact consistent
  | false =>
      have inside := position_lt_of_begun begun finished
      have outcome := runChunk_keeps consistent inside machine.script[machine.position]
      rw [runCurrent_of_here (List.getElem?_eq_getElem inside)]
      cases ran : runChunk machine.script[machine.position] machine with
      | ok _ next =>
          rw [ran] at outcome
          rw [bind_of_ok ran]
          exact keeps_checkLimits next outcome
      | error fault next =>
          rw [ran] at outcome
          rw [bind_of_error ran]
          exact outcome

private theorem keeps_advance : Keeps Consistent Fault.InRange advance := by
  refine .get_run fun machine consistent => ?_
  cases between : machine.isBetween with
  | false => exact runCurrent_keeps consistent between
  | true =>
      have entered := keeps_enterLocking machine consistent
      rw [if_pos rfl]
      cases ran : enterLocking machine with
      | ok _ next =>
          rw [ran] at entered
          rw [bind_of_ok ran]
          -- In the locking script a place past its end is no longer between the scripts.
          have place : next.phase = .locking := (enterLocking_ok ran).2.1
          exact runCurrent_keeps entered (by simp [isBetween, place])
      | error fault next =>
          rw [ran] at entered
          rw [bind_of_error ran]
          exact entered

private theorem keeps_reporting {move : Move Unit} (keeps : Keeps Consistent Fault.InRange move) :
    Keeps Consistent Failure.InRange (reporting move) := by
  intro machine consistent
  have outcome := keeps machine consistent
  simp only [reporting]
  cases ran : move machine with
  | ok _ next =>
      rw [ran] at outcome
      exact outcome
  | error fault next =>
      rw [ran] at outcome
      exact outcome

theorem keeps_step : Keeps Consistent Failure.InRange step :=
  keeps_reporting keeps_advance

private theorem keeps_runToEnd : Keeps Consistent Failure.InRange runToEnd := by
  intro machine
  induction machine using runToEnd.induct with
  | case1 machine finished =>
      intro consistent
      rw [runToEnd_of_finished finished]
      exact consistent
  | case2 machine unfinished next stepped _ ih =>
      intro consistent
      have outcome := keeps_step machine consistent
      rw [stepped] at outcome
      rw [runToEnd_of_step unfinished stepped]
      exact ih outcome
  | case3 machine unfinished failure next stepped =>
      intro consistent
      have outcome := keeps_step machine consistent
      rw [stepped] at outcome
      rw [runToEnd_of_failed_step unfinished stepped]
      exact outcome

private theorem checkResult_inRange (state : State) (flags : Flags) :
    StaysInRange (checkResult state flags) := by
  simp only [checkResult]
  split
  · exact .error nofun
  · split
    · exact .error nofun
    · split
      · exact .error nofun
      · split
        · exact .ok ()
        · exact .error nofun

private theorem keeps_requireResult : Keeps Consistent Fault.InRange requireResult := by
  intro machine consistent
  simp only [requireResult]
  split
  · exact consistent
  · next fault failed => exact ⟨consistent, checkResult_inRange _ _ fault failed⟩

private theorem keeps_validate : Keeps Consistent Failure.InRange validate :=
  .bind keeps_runToEnd fun _ => keeps_reporting keeps_requireResult

end Machine

/-! ## Calls -/

/-- What may be asked of a machine. -/
inductive Call where
  | step
  | validate
  deriving DecidableEq, Repr

def Call.run : Call → Run Unit
  | step => Machine.step
  | validate => Machine.validate

/-- What an operation leaves, succeeding or failing. -/
def Outcome.left {ε σ α : Type} : EStateM.Result ε σ α → σ
  | .ok _ next => next
  | .error _ next => next

/-- The machines that calls lead to, also after calls that failed. -/
inductive Request.Reaches (request : Request) : Machine → Prop where
  | start {machine : Machine} (started : request.start = .ok machine) : request.Reaches machine
  | call {machine : Machine} (reached : request.Reaches machine) (call : Call) :
      request.Reaches (Outcome.left (call.run machine))

theorem Request.chunks_of_readScript {request : Request} {phase : Phase} {script : Script}
    {chunks : List Chunk} (read : request.readScript phase script = .ok chunks) :
    script.chunks = .ok chunks := by
  simp only [Request.readScript] at read
  split at read
  · cases read
  · exact mapError_eq_ok_iff.mp read

/-- The start is fixed by the scripts that are read. -/
theorem Request.eq_initial_of_start {request : Request} {machine : Machine}
    (started : request.start = .ok machine) : ∃ unlocking locking,
      request.readScript .unlocking request.unlocking = .ok unlocking ∧
      request.readScript .locking request.locking = .ok locking ∧
      machine = Machine.initial (request.setup unlocking locking) := by
  simp only [Request.start] at started
  split at started
  · cases started
  · next unlocking readUnlocking =>
      split at started
      · cases started
      · next locking readLocking =>
          split at started
          · cases started
          · cases started
            exact ⟨unlocking, locking, readUnlocking, readLocking, rfl⟩

theorem Request.consistent_of_start {request : Request} {machine : Machine}
    (started : request.start = .ok machine) : machine.Consistent := by
  obtain ⟨unlocking, locking, -, -, rfl⟩ := Request.eq_initial_of_start started
  exact Machine.consistent_initial _

private theorem Call.keeps_run (call : Call) :
    Keeps Machine.Consistent Failure.InRange call.run := by
  cases call with
  | step => exact Machine.keeps_step
  | validate => exact Machine.keeps_validate

theorem Outcome.left_of_keeps {ε σ α : Type} {invariant : σ → Prop} {allowed : ε → Prop}
    {outcome : EStateM.Result ε σ α} (keeps : Outcome.Keeps invariant allowed outcome) :
    invariant (Outcome.left outcome) := by
  cases outcome with
  | ok value next => exact keeps
  | error cause next => exact keeps.1

theorem Request.Reaches.consistent {request : Request} {machine : Machine}
    (reached : request.Reaches machine) : machine.Consistent := by
  induction reached with
  | start started => exact Request.consistent_of_start started
  | call reached call consistent => exact Outcome.left_of_keeps (call.keeps_run _ consistent)

theorem consistent_inRange_of_reaches {request : Request} {machine : Machine}
    (reached : request.Reaches machine) :
    machine.Consistent ∧ ∀ (call : Call) (failure : Failure) (next : Machine),
      call.run machine = .error failure next → failure.fault ≠ .outOfRange := by
  have consistent := reached.consistent
  refine ⟨consistent, ?_⟩
  intro call failure next failed
  have outcome := call.keeps_run machine consistent
  rw [failed] at outcome
  exact outcome.2

/-- A separator and then a verification that finds the stack empty. -/
def separatorThenVerify : Request where
  sourceTxid := Hash32.zero
  sourceIndex := 0
  unlocking := ⟨[]⟩
  locking := ⟨[0xab, 0x69]⟩
  context := none
  inputIndex := 0
  flags := Flags.empty
  memoryLimit := 100

theorem consistent_after_failed_verification : ∃ machine,
    separatorThenVerify.Reaches machine ∧ machine.position = 1 ∧
      machine.state.separator = some 0 ∧ machine.Consistent ∧
      ∀ (call : Call) (failure : Failure) (next : Machine),
        call.run machine = .error failure next → failure.fault ≠ .outOfRange := by
  have started : separatorThenVerify.start = .ok (Machine.initial
      (separatorThenVerify.setup [] [⟨0xab, none⟩, ⟨0x69, none⟩])) := by cbv
  have reached := (Request.Reaches.start started).call .validate
  obtain ⟨consistent, inRange⟩ := consistent_inRange_of_reaches reached
  exact ⟨_, reached, by cbv, by cbv, consistent, inRange⟩

end BitcoinSpend.Spend
