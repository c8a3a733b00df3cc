import BitcoinSpend.Proofs.Spend.BoundedInstructions
import BitcoinSpend.Proofs.Spend.ScriptSeparation

/-!
# Runs keep to the limits

After every step that succeeds, items, depth, bytes and operations are within the
limits. A step that fails may leave too many operations, items or bytes, but no item
that is too long.
-/

set_option autoImplicit false

namespace BitcoinSpend.Spend

/-! ## One chunk -/

namespace Exec

variable {frame : Frame}

/-- The checks before an instruction touch no stack. -/
private theorem keepsStack_precheck (stack : Stack) (instruction : Instruction) (chunk : Chunk) :
    Keeps (fun state => state.stack = stack) (fun _ => True) frame
      (precheck instruction chunk) := by
  have executing : Keeps (fun state => state.stack = stack) (fun _ => True) frame isExecuting :=
    .setup_bind (.get_bind fun _ _ => .pure _)
  refine .setup_bind (.refuse_bind (fun _ => trivial) fun _ => executing.bind fun _ => ?_)
  refine .refuse_bind (fun _ => trivial) fun _ => .refuse_bind (fun _ => trivial) fun _ => ?_
  refine .ite (fun _ => .setup_bind ?_) fun _ => .pure ()
  refine .bind (.modify fun _ same => same) fun _ => .get_bind fun _ _ => ?_
  exact .refuse fun _ => trivial

private theorem run_depth (chunk : Chunk) (state : State) : run .depth chunk frame state =
    .ok .next { state with
      stack := state.stack.cons (ScriptNumber.encode state.stack.depth) } := rfl

/-- The depth that is put is one that the check after the instruction before it has let pass. -/
private theorem run_yields {instruction : Instruction} {chunk : Chunk} {state : State}
    (bounded : state.Bounded frame.setup.limits)
    (shallow : state.stack.depth ≤ frame.setup.limits.maxStackSize)
    (short : chunk.op ≤ Opcode.pushData4 → frame.setup.limits.Admits chunk.operand) :
    Outcome.Yields (State.Bounded frame.setup.limits) (State.Fits frame.setup.limits)
      (fun _ => True) (run instruction chunk frame state) := by
  by_cases asksDepth : instruction = .depth
  · have room := frame.setup.roomy
    have admitted := room.admits_count (Nat.lt_of_le_of_lt shallow room.depths)
    rw [asksDepth, run_depth]
    exact bounded_push admitted state bounded
  · exact bounded_run asksDepth short state bounded

private theorem chunk_yields (chunk : Chunk) {state : State}
    (bounded : state.Bounded frame.setup.limits)
    (shallow : state.stack.depth ≤ frame.setup.limits.maxStackSize) :
    Outcome.Yields (State.Bounded frame.setup.limits) (State.Fits frame.setup.limits)
      (fun _ => True) (Exec.chunk chunk frame state) := by
  have checked :
      Outcome.Yields _ _ _ (precheck (Instruction.ofOpcode chunk.op) chunk frame state) :=
    gives_precheck _ chunk state bounded
  have kept : Outcome.Keeps _ _ (precheck (Instruction.ofOpcode chunk.op) chunk frame state) :=
    keepsStack_precheck state.stack _ chunk state rfl
  cases ran : precheck (Instruction.ofOpcode chunk.op) chunk frame state with
  | error fault next =>
      rw [ran] at checked
      rw [chunk_of_refused ran]
      exact checked
  | ok _ middle =>
      rw [ran] at checked kept
      have same : middle.stack = state.stack := kept
      rw [← same] at shallow
      rw [chunk_of_passed ran]
      split
      · exact run_yields checked.2 shallow checked.1
      · exact ⟨trivial, checked.2⟩

end Exec

/-! ## Moves of the machine -/

namespace Machine

/-- What holds before and after a step that succeeds. -/
structure Limited (setup : Setup) (machine : Machine) : Prop where
  fixed : machine.setup = setup
  state : machine.state.Bounded setup.limits
  depth : machine.state.stack.depth + machine.state.alt.depth ≤ setup.limits.maxStackSize
  held : machine.state.stack.held + machine.state.alt.held ≤ setup.memoryLimit

/-- What also holds after a step that fails. -/
structure Fits (setup : Setup) (machine : Machine) : Prop where
  fixed : machine.setup = setup
  state : machine.state.Fits setup.limits

variable {setup : Setup} {machine : Machine}

theorem Limited.fits (limited : machine.Limited setup) : machine.Fits setup :=
  ⟨limited.fixed, limited.state.toFits⟩

theorem limited_initial (setup : Setup) : (initial setup).Limited setup where
  fixed := rfl
  state := ⟨⟨Stack.fits_empty rfl, Stack.fits_empty rfl⟩, Nat.zero_le _⟩
  depth := Nat.zero_le _
  held := Nat.zero_le _

private theorem enterLocking_yields :
    Yields (Limited setup) (Fits setup) (fun _ => True) enterLocking := by
  intro machine limited
  simp only [enterLocking]
  split
  · exact ⟨trivial, { limited with state := { limited.state with ops := Nat.zero_le _ } }⟩
  · exact limited.fits

private theorem checkLimits_yields (same : machine.setup = setup)
    (bounded : machine.state.Bounded setup.limits) :
    Outcome.Yields (Limited setup) (Fits setup) (fun _ => True) (checkLimits machine) := by
  subst same
  simp only [checkLimits]
  split
  · exact ⟨rfl, bounded.toFits⟩
  · next shallow =>
      split
      · exact ⟨rfl, bounded.toFits⟩
      · next light =>
          exact ⟨trivial, rfl, bounded, Nat.le_of_not_lt shallow, Nat.le_of_not_lt light⟩

/-- Between a chunk and the check after it, the stacks may be too deep or hold too much. -/
private theorem runChunk_yields (limited : machine.Limited setup) (chunk : Chunk) :
    Outcome.Yields (fun next => next.setup = setup ∧ next.state.Bounded setup.limits) (Fits setup)
      (fun _ => True) (runChunk chunk machine) := by
  have same := limited.fixed
  subst same
  have shallow : machine.state.stack.depth ≤ machine.setup.limits.maxStackSize :=
    Nat.le_trans (Nat.le_add_right _ _) limited.depth
  have outcome : Outcome.Yields (State.Bounded machine.setup.limits)
      (State.Fits machine.setup.limits) (fun _ => True)
      (Exec.chunk chunk ⟨machine.setup, machine.phase, machine.position⟩ machine.state) :=
    Exec.chunk_yields chunk limited.state shallow
  simp only [runChunk]
  split
  · next state ran =>
      rw [ran] at outcome
      exact ⟨trivial, rfl, outcome.2⟩
  · next state ran =>
      rw [ran] at outcome
      exact ⟨trivial, rfl, outcome.2⟩
  · next fault state ran =>
      rw [ran] at outcome
      exact ⟨rfl, outcome⟩

private theorem runCurrent_yields :
    Yields (Limited setup) (Fits setup) (fun _ => True) runCurrent := by
  intro machine limited
  simp only [runCurrent]
  split
  · exact ⟨trivial, limited⟩
  · split
    · exact limited.fits
    · next chunk _ =>
        have outcome := runChunk_yields limited chunk
        cases ran : runChunk chunk machine with
        | ok _ next =>
            rw [ran] at outcome
            rw [bind_of_ok ran]
            exact checkLimits_yields outcome.2.1 outcome.2.2
        | error fault next =>
            rw [ran] at outcome
            rw [bind_of_error ran]
            exact outcome

private theorem advance_yields : Yields (Limited setup) (Fits setup) (fun _ => True) advance := by
  intro machine limited
  rw [advance_eq]
  split
  · exact enterLocking_yields.bind (fun _ _ => runCurrent_yields) machine limited
  · exact runCurrent_yields machine limited

private theorem step_yields : Yields (Limited setup) (Fits setup) (fun _ => True) step := by
  intro machine limited
  have outcome := advance_yields machine limited
  simp only [step, reporting]
  cases ran : advance machine with
  | ok _ next =>
      rw [ran] at outcome
      exact outcome
  | error fault next =>
      rw [ran] at outcome
      exact outcome

theorem limited_of_steps {start : Machine} (limited : start.Limited setup)
    (steps : Relation.ReflTransGen StepsTo start machine) : machine.Limited setup := by
  induction steps with
  | refl => exact limited
  | tail earlier last ih =>
      have outcome := step_yields _ ih
      rw [last] at outcome
      exact outcome.2

/-- Every item on either stack is as short as the limits ask. -/
def ItemsWithin (limits : Limits) (machine : Machine) : Prop :=
  ∀ item ∈ machine.state.stack.items ++ machine.state.alt.items,
    item.length ≤ limits.maxElementSize

/-- The machine uses no more than the limits allow. -/
structure Within (limits : Limits) (memoryLimit : Nat) (machine : Machine) : Prop where
  items : machine.ItemsWithin limits
  depth : machine.state.stack.items.length + machine.state.alt.items.length ≤ limits.maxStackSize
  bytes : totalLength machine.state.stack.items + totalLength machine.state.alt.items ≤ memoryLimit
  operations : machine.state.opCount ≤ limits.maxOps

private theorem Fits.itemsWithin (fits : machine.Fits setup) :
    machine.ItemsWithin setup.limits := by
  intro item member
  rcases List.mem_append.mp member with onStack | onAlt
  · exact fits.state.stack.items item onStack
  · exact fits.state.alt.items item onAlt

/-- The bytes are counted truly, so that the limit on the count is a limit on the bytes. -/
theorem Limited.within (limited : machine.Limited setup) (consistent : machine.Consistent) :
    machine.Within setup.limits setup.memoryLimit where
  items := limited.fits.itemsWithin
  depth := limited.depth
  bytes := by
    have held := limited.held
    rwa [show _ = _ from consistent.state.stack, show _ = _ from consistent.state.alt] at held
  operations := limited.state.ops

end Machine

namespace Request

/-- Strict encodings, which replay protection asks for, leave the limits as they are. -/
private theorem limits_effectiveFlags (request : Request) :
    Limits.ofFlags request.effectiveFlags = Limits.ofFlags request.flags := by
  simp only [effectiveFlags]
  split
  · have disjoint : Flags.afterGenesis.inter Flags.strictEncoding = Flags.empty := by decide
    rw [Limits.ofFlags, Limits.ofFlags, Flags.has_union_of_disjoint disjoint]
  · rfl

theorem within_of_steps {request : Request} {start machine : Machine}
    (started : request.start = .ok start)
    (steps : Relation.ReflTransGen Machine.StepsTo start machine) :
    machine.Within (Limits.ofFlags request.flags) request.memoryLimit ∧
      ∀ failure left, machine.step = .error failure left →
        left.ItemsWithin (Limits.ofFlags request.flags) := by
  have consistent := Machine.consistent_of_steps steps (consistent_of_start started)
  obtain ⟨unlocking, locking, -, -, rfl⟩ := eq_initial_of_start started
  have limited := Machine.limited_of_steps (Machine.limited_initial _) steps
  rw [← request.limits_effectiveFlags]
  refine ⟨limited.within consistent, ?_⟩
  intro failure left failed
  have outcome := Machine.step_yields _ limited
  rw [failed] at outcome
  exact outcome.itemsWithin

/-- Squares a number of one byte to one of two, and then asks for an item that is not there. -/
def squareOfTwelve : Request where
  sourceTxid := Hash32.zero
  sourceIndex := 0
  unlocking := ⟨[0x01, 0x0c]⟩
  locking := ⟨[0x76, 0x95, 0x6c]⟩
  context := none
  inputIndex := 0
  flags := Flags.empty
  memoryLimit := 2

private def squareStart : Machine :=
  Machine.initial (squareOfTwelve.setup [⟨0x01, some [0x0c]⟩]
    [⟨0x76, none⟩, ⟨0x95, none⟩, ⟨0x6c, none⟩])

/-- The number has been pushed. -/
private def squarePushed : Machine :=
  { squareStart with
    position := 1
    state := { squareStart.state with stack := ⟨[[0x0c]], 1, ⟨4, false⟩⟩ } }

/-- The number has been copied. -/
private def squareCopied : Machine :=
  { squareStart with
    phase := .locking
    position := 1
    state := { squareStart.state with
      stack := ⟨[[0x0c], [0x0c]], 2, ⟨4, false⟩⟩
      opCount := 1 } }

/-- The numbers have been multiplied. -/
private def squareMade : Machine :=
  { squareStart with
    phase := .locking
    position := 2
    state := { squareStart.state with
      stack := ⟨[[0x90, 0x00]], 2, ⟨4, false⟩⟩
      opCount := 2 } }

set_option maxRecDepth 2048 in
theorem squareOfTwelve_within : ∃ (start machine left : Machine) (failure : Failure),
    squareOfTwelve.start = .ok start ∧ Relation.ReflTransGen Machine.StepsTo start machine ∧
    machine.stack = [[0x90, 0x00]] ∧ machine.Within Limits.beforeGenesis 2 ∧
    machine.step = .error failure left ∧ left.ItemsWithin Limits.beforeGenesis := by
  have started : squareOfTwelve.start = .ok squareStart := by cbv
  have pushed : Machine.StepsTo squareStart squarePushed := rfl
  have copied : Machine.StepsTo squarePushed squareCopied := rfl
  have made : Machine.StepsTo squareCopied squareMade := rfl
  have steps : Relation.ReflTransGen Machine.StepsTo squareStart squareMade :=
    .tail (.tail (.single pushed) copied) made
  have fails : ∃ failure left, squareMade.step = .error failure left := by
    exact ⟨_, _, rfl⟩
  obtain ⟨within, failing⟩ := within_of_steps started steps
  obtain ⟨failure, left, failed⟩ := fails
  exact ⟨_, _, left, failure, started, steps, rfl, within, failed, failing failure left failed⟩

end Request

end BitcoinSpend.Spend
