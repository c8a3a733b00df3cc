import BitcoinSpend.Proofs.Chunk.Push
import BitcoinSpend.Proofs.Spend.Boundary
import BitcoinSpend.Proofs.Spend.Sequencing
import BitcoinSpend.Proofs.Spend.StackBlocks

/-!
# Runs outside conditionals

Where no conditional is open and the script has not returned, the state is what is
on the stack and what has been counted. A run of such chunks is composed of what
each of them does to the items.
-/

set_option autoImplicit false

namespace BitcoinSpend.Spend

/-- A state outside conditionals, with nothing on the alternative stack and no separator run. -/
def State.plain (rule : ScriptNumber.Rule) (items : List Bytes) (opCount : Nat)
    (queries : List SignatureQuery) : State :=
  ⟨Stack.ofItems rule items, Stack.empty rule, [], [], none, opCount, false, queries⟩

variable {rule : ScriptNumber.Rule} {items : List Bytes} {opCount : Nat}
  {queries : List SignatureQuery}

private theorem State.isExecuting_plain (setup : Setup) :
    (State.plain rule items opCount queries).isExecuting setup = true := by
  simp [State.isExecuting, State.branchesTaken, State.plain]

/-! ## Instructions -/

namespace Exec

variable {frame : Frame}

private theorem onStack_plain {α : Type} {op : StackM α} {value : α} {items' : List Bytes}
    (ran : op (Stack.ofItems rule items) = .ok value (Stack.ofItems rule items')) :
    onStack op frame (State.plain rule items opCount queries) =
      .ok value (State.plain rule items' opCount queries) :=
  onStack_of_ok ran

theorem requireContext_of_some {context : TxContext} (known : frame.setup.context = some context)
    (instruction : String) (state : State) :
    requireContext instruction frame state = .ok context state := by
  rw [requireContext, bind_setup, known]
  rfl

theorem countOps_of_le {count : Nat} {state : State}
    (enough : state.opCount + count ≤ frame.setup.limits.maxOps) :
    countOps count frame state = .ok () { state with opCount := state.opCount + count } := by
  have same : countOps count frame state =
      (refuse (frame.setup.limits.maxOps < state.opCount + count)
        (.tooManyOperations frame.setup.limits.maxOps) : Exec Unit) frame
        { state with opCount := state.opCount + count } := rfl
  rw [same]
  exact refuse_of_false (decide_eq_false (Nat.not_lt.mpr enough))

/-- The number of operations after a chunk. -/
def countAfter (chunk : Chunk) (opCount : Nat) : Nat :=
  if Opcode.sixteen < chunk.op then opCount + 1 else opCount

private theorem chunk_plain {chunk : Chunk}
    (small : chunk.operand.length ≤ frame.setup.limits.maxElementSize)
    (enabled : Instruction.ofOpcode chunk.op ≠ .disabled)
    (known : Instruction.ofOpcode chunk.op ≠ .reservedConditional)
    (enough : countAfter chunk opCount ≤ frame.setup.limits.maxOps) :
    Exec.chunk chunk frame (State.plain rule items opCount queries) =
      run (Instruction.ofOpcode chunk.op) chunk frame
        (State.plain rule items (countAfter chunk opCount) queries) := by
  have prechecked : precheck (Instruction.ofOpcode chunk.op) chunk frame
      (State.plain rule items opCount queries) =
        .ok () (State.plain rule items (countAfter chunk opCount) queries) := by
    rw [precheck, bind_setup, bind_of_ok (refuse_of_false (by simp [small])),
      bind_of_ok (isExecuting_run frame _),
      bind_of_ok (refuse_of_false (by simp [enabled])),
      bind_of_ok (refuse_of_false (by simp [known]))]
    rw [countAfter] at enough ⊢
    split
    · next counted =>
        rw [if_pos counted] at enough
        exact countOps_of_le enough
    · rfl
  rw [chunk_of_passed prechecked, State.isExecuting_plain, Bool.true_or, if_pos rfl]

theorem run_of_straight {instruction : Instruction} {chunk : Chunk} {state next : State}
    (other : instruction ≠ .returnEarly)
    (ran : runStraight instruction chunk frame state = .ok () next) :
    run instruction chunk frame state = .ok .next next := by
  rw [run, if_neg other, bind_of_ok ran]
  rfl

theorem run_of_fault {instruction : Instruction} {chunk : Chunk} {state left : State}
    {fault : Fault} (other : instruction ≠ .returnEarly)
    (failed : runStraight instruction chunk frame state = .error fault left) :
    run instruction chunk frame state = .error fault left := by
  rw [run, if_neg other, bind_of_error failed]

theorem ofOpcode_of_pushes {chunk : Chunk} {value : Bytes}
    (pushes : chunk.pushValue? = some value) :
    Instruction.ofOpcode chunk.op = .push ∧ chunk.op ≤ Opcode.sixteen := by
  have isPush : chunk.op ≠ Opcode.reserved ∧ chunk.op ≤ Opcode.sixteen := by
    simp only [Chunk.pushValue?] at pushes
    split at pushes
    · next isEmpty =>
        rw [isEmpty]
        decide
    · split at pushes
      · next isNegative =>
          rw [isNegative]
          decide
      · split at pushes
        · cases pushes
        · next assigned =>
            refine ⟨assigned, ?_⟩
            split at pushes
            · next small =>
                simp only [Opcode.smallValue?] at small
                split at small
                · next bounds => exact of_decide_eq_true (Bool.and_eq_true_iff.mp bounds).2
                · cases small
            · split at pushes
              · next counted => exact UInt8.le_trans counted (by decide)
              · cases pushes
  refine ⟨?_, isPush.2⟩
  unfold Instruction.ofOpcode
  rw [if_neg isPush.1, if_pos isPush.2]

private theorem ofOpcode_push (data : Bytes) : Instruction.ofOpcode (Chunk.push data).op = .push :=
  (ofOpcode_of_pushes (Chunk.pushValue?_push data)).1

theorem pushChunk_run {chunk : Chunk} {value : Bytes} (pushes : chunk.pushValue? = some value)
    (frame : Frame) (state : State) :
    pushChunk chunk frame state =
      if frame.setup.flags.has Flags.minimalData && !chunk.isMinimal then
        .error (.pushNotMinimal chunk.operand.length chunk.op) state
      else .ok () { state with stack := state.stack.cons value } := by
  have flag : hasFlag Flags.minimalData frame state =
      .ok (frame.setup.flags.has Flags.minimalData) state := rfl
  rw [pushChunk, bind_of_ok flag, refuse_bind_run, pushes]
  rfl

theorem chunk_push {data : Bytes}
    (small : data.length ≤ frame.setup.limits.maxElementSize)
    (enough : opCount ≤ frame.setup.limits.maxOps) :
    Exec.chunk (Chunk.push data) frame (State.plain rule items opCount queries) =
      .ok .next (State.plain rule (data :: items) opCount queries) := by
  have uncounted : countAfter (Chunk.push data) opCount = opCount :=
    if_neg (UInt8.not_lt.mpr (Chunk.op_push_le data))
  have instruction := ofOpcode_push data
  rw [chunk_plain (Nat.le_trans (Chunk.length_operand_push_le data) small)
    (by rw [instruction]; nofun) (by rw [instruction]; nofun) (by rwa [uncounted]), uncounted,
    instruction]
  refine run_of_straight nofun ?_
  have pushed : pushChunk (Chunk.push data) frame (State.plain rule items opCount queries) =
      .ok () (State.plain rule (data :: items) opCount queries) := by
    rw [pushChunk_run (Chunk.pushValue?_push data), Chunk.isMinimal_push, Bool.not_true,
      Bool.and_false, if_neg Bool.false_ne_true]
    simp only [State.plain, Stack.cons_ofItems]
  exact pushed

/-- An opcode beyond the pushes does what its instruction does. -/
theorem chunk_bare {op : Opcode} {items' : List Bytes} {queries' : List SignatureQuery}
    (beyond : Opcode.sixteen < op)
    (goesOn : Instruction.ofOpcode op ∉ [.disabled, .reservedConditional, .returnEarly])
    (enough : opCount + 1 ≤ frame.setup.limits.maxOps)
    (ran : runStraight (Instruction.ofOpcode op) ⟨op, none⟩ frame
      (State.plain rule items (opCount + 1) queries) =
        .ok () (State.plain rule items' (opCount + 1) queries')) :
    Exec.chunk ⟨op, none⟩ frame (State.plain rule items opCount queries) =
      .ok .next (State.plain rule items' (opCount + 1) queries') := by
  have counted : countAfter ⟨op, none⟩ opCount = opCount + 1 := if_pos beyond
  simp only [List.mem_cons, List.not_mem_nil, or_false, not_or] at goesOn
  rw [chunk_plain (Nat.zero_le _) goesOn.1 goesOn.2.1 (by rwa [counted]), counted]
  exact run_of_straight goesOn.2.2 ran

theorem dup_plain (item : Bytes) :
    onStack (Stack.dupBlock 1) frame (State.plain rule (item :: items) opCount queries) =
      .ok () (State.plain rule (item :: item :: items) opCount queries) := by
  apply onStack_plain
  rw [Stack.dupBlock_eq Nat.one_pos]
  exact Stack.repeatOp_pick [] [item] items rfl

theorem over_plain (top below : Bytes) :
    onStack (Stack.overBlock 1) frame (State.plain rule (top :: below :: items) opCount queries) =
      .ok () (State.plain rule (below :: top :: below :: items) opCount queries) := by
  apply onStack_plain
  rw [Stack.overBlock_eq Nat.one_pos (by decide)]
  exact Stack.repeatOp_pick [top] [below] items rfl

theorem swap_plain (top below : Bytes) :
    onStack (Stack.swapBlock 1) frame (State.plain rule (top :: below :: items) opCount queries) =
      .ok () (State.plain rule (below :: top :: items) opCount queries) := by
  apply onStack_plain
  rw [Stack.swapBlock_eq Nat.one_pos (by decide)]
  exact Stack.repeatOp_roll [top] [below] items rfl

theorem nip_plain (top below : Bytes) :
    nip frame (State.plain rule (top :: below :: items) opCount queries) =
      .ok () (State.plain rule (top :: items) opCount queries) := by
  have second : (top :: below :: items)[1]? = some below := rfl
  rw [nip, bind_of_ok (onStack_plain (Stack.remove_ofItems second))]
  rfl

/-- A string is cut after its left part by the length of that part. -/
theorem split_plain {form bytes left right : Bytes} (parts : bytes = left ++ right)
    (reads : ScriptNumber.decodeWithin rule form = .ok (left.length : Int)) :
    split frame (State.plain rule (form :: bytes :: items) opCount queries) =
      .ok () (State.plain rule (right :: left :: items) opCount queries) := by
  have inside : left.length ≤ bytes.length := by simp [parts]
  have notNegative : decide ((left.length : Int) < 0) = false := by simp
  have notPast : decide ((bytes.length : Int) < (left.length : Int)) = false := by
    rw [decide_eq_false_iff_not]
    omega
  have tail : suffixFrom bytes (left.length : Int).toNat = .ok right := by
    rw [Int.toNat_natCast, suffixFrom_of_le inside, parts, List.drop_left]
  have head : bytes.take (left.length : Int).toNat = left := by
    rw [Int.toNat_natCast, parts, List.take_left]
  rw [split, bind_of_ok (onStack_plain (Stack.popNumber_ofItems reads)),
    bind_of_ok (onStack_plain (Stack.pop_ofItems bytes)), bind_of_ok (refuse_of_false notNegative),
    bind_of_ok (refuse_of_false notPast), bind_of_ok (ofExcept_of_ok tail), head,
    bind_of_ok (onStack_plain (Stack.push_ofItems left))]
  exact onStack_plain (Stack.push_ofItems right)

theorem drop_plain (values : List Bytes) :
    onStack (Stack.dropBlock values.length) frame
        (State.plain rule (values ++ items) opCount queries) =
      .ok () (State.plain rule items opCount queries) :=
  onStack_plain (Stack.dropBlock_ofItems values)

theorem digest_plain (algorithm : Digest.Algorithm) (item : Bytes) :
    digest algorithm frame (State.plain rule (item :: items) opCount queries) =
      .ok () (State.plain rule (algorithm.digest item :: items) opCount queries) := by
  rw [digest, bind_of_ok (onStack_plain (Stack.pop_ofItems item))]
  exact onStack_plain (Stack.push_ofItems _)

theorem equal_plain (right left : Bytes) :
    equal frame (State.plain rule (right :: left :: items) opCount queries) =
      .ok () (State.plain rule (ScriptNumber.ofBool (left == right) :: items) opCount queries) := by
  rw [equal, bind_of_ok (onStack_plain (Stack.pop_ofItems right)),
    bind_of_ok (onStack_plain (Stack.pop_ofItems left))]
  exact onStack_plain (Stack.push_ofItems _)

theorem verify_plain {item : Bytes} (isTrue : ScriptNumber.isTrue item = true) (kind : VerifyKind)
    (op : Opcode) : verify kind op frame (State.plain rule (item :: items) opCount queries) =
      .ok () (State.plain rule items opCount queries) := by
  have popped : Stack.popBool (Stack.ofItems rule (item :: items)) =
      .ok true (Stack.ofItems rule items) := by
    simp only [Stack.popBool, bind, EStateM.bind, Stack.pop_ofItems, isTrue]
    rfl
  rw [verify, bind_of_ok (onStack_plain popped)]
  rfl

/-- Where the encodings are allowed, the check is what the transaction context answers. -/
theorem checkOne_of_allowed {signature : Bytes} {hashType : UInt8}
    (last : signature.getLast? = some hashType)
    (knownType : checkHashType frame.setup.flags hashType = .ok ())
    (layout : checkSignatureEncoding frame.setup.flags signature.dropLast = .ok ()) {key : Bytes}
    (encoding : checkKeyEncoding frame.setup.flags key = .ok ()) (context : TxContext)
    (script : Script) (state : State) :
    checkOne context signature key script frame state =
      ask context ⟨signature, key, script, frame.setup.inputIndex, hashType.toUInt32⟩ frame
        state := by
  rw [checkOne, last]
  simp only
  rw [bind_setup, bind_of_ok (ofExcept_of_ok knownType), bind_of_ok (ofExcept_of_ok layout),
    bind_of_ok (ofExcept_of_ok encoding)]

/-- A signature that is valid for the whole running script. -/
theorem checkSig_plain {context : TxContext} {der key : Bytes} {hashType : UInt8}
    (known : frame.setup.context = some context)
    (forkId : usesForkId frame.setup.flags hashType = true)
    (knownType : checkHashType frame.setup.flags hashType = .ok ())
    (layout : checkSignatureEncoding frame.setup.flags der = .ok ())
    (encoding : checkKeyEncoding frame.setup.flags key = .ok ()) {query : SignatureQuery}
    (asks : query = ⟨der ++ [hashType], key, Script.ofChunks frame.script, frame.setup.inputIndex,
      hashType.toUInt32⟩)
    (valid : context.verifySignature queries query = .ok true) :
    checkSig frame (State.plain rule (key :: (der ++ [hashType]) :: items) opCount queries) =
      .ok () (State.plain rule ([1] :: items) opCount (queries ++ [query])) := by
  have nonempty : (der ++ [hashType]).isEmpty = false := by simp
  have last : difference (der ++ [hashType]).length 1 = .ok der.length :=
    difference_eq_ok_iff.mpr (by simp)
  have script : signingScript [der ++ [hashType]] true frame
      (State.plain rule items opCount queries) =
        .ok (Script.ofChunks frame.script) (State.plain rule items opCount queries) := rfl
  have answer : checkOne context (der ++ [hashType]) key (Script.ofChunks frame.script) frame
      (State.plain rule items opCount queries) =
        .ok true (State.plain rule items opCount (queries ++ [query])) := by
    rw [checkOne_of_allowed List.getLast?_concat knownType (by rwa [List.dropLast_concat]) encoding,
      ← asks]
    simp only [ask, State.plain, valid]
  rw [checkSig, bind_of_ok (onStack_plain (Stack.pop_ofItems key)),
    bind_of_ok (onStack_plain (Stack.pop_ofItems _)), nonempty, if_neg Bool.false_ne_true,
    bind_of_ok (requireContext_of_some known _ _), bind_setup, bind_of_ok (ofExcept_of_ok last),
    bind_of_ok (ofExcept_of_ok (itemAt_eq_ok_iff.mpr List.getElem?_concat_length)), forkId,
    bind_of_ok script, bind_of_ok answer, bind_of_ok (refuse_of_false
      (show (!true && frame.setup.flags.has Flags.nullFail) = false from rfl))]
  exact onStack_plain (Stack.push_ofItems _)

end Exec

/-! ## Runs -/

namespace Machine

/-- A machine outside conditionals. -/
def plain (setup : Setup) (phase : Phase) (position : Nat) (items : List Bytes) (opCount : Nat)
    (queries : List SignatureQuery) : Machine :=
  ⟨setup, phase, position, State.plain setup.numberRule items opCount queries⟩

variable {setup : Setup} {phase : Phase}

private theorem step_of_inside {machine : Machine}
    (inside : machine.position < machine.script.length) :
    step machine = reporting runCurrent machine := by
  rw [step, reporting, reporting, advance_of_begun (isBetween_eq_false inside)]

private theorem checkLimits_of_le {machine : Machine}
    (shallow : machine.state.stack.depth + machine.state.alt.depth ≤
      machine.setup.limits.maxStackSize)
    (light : machine.state.stack.held + machine.state.alt.held ≤ machine.setup.memoryLimit) :
    checkLimits machine = .ok () machine := by
  simp only [checkLimits]
  rw [if_neg (Nat.not_lt.mpr shallow), if_neg (Nat.not_lt.mpr light)]

/-- A chunk that goes on to the next one, when what it leaves is within the limits. -/
theorem step_of_ran {machine : Machine} {chunk : Chunk} {state : State}
    (here : machine.script[machine.position]? = some chunk)
    (ran : Exec.chunk chunk ⟨machine.setup, machine.phase, machine.position⟩ machine.state =
      .ok .next state)
    (shallow : state.stack.depth + state.alt.depth ≤ machine.setup.limits.maxStackSize)
    (light : state.stack.held + state.alt.held ≤ machine.setup.memoryLimit) :
    step machine = .ok () { machine with state := state, position := machine.position + 1 } := by
  have inside : machine.position < machine.script.length := (List.getElem?_eq_some_iff.mp here).1
  have moved : runChunk chunk machine =
      .ok () { machine with state := state, position := machine.position + 1 } := by
    simp only [runChunk, ran]
  have fits : checkLimits { machine with state := state, position := machine.position + 1 } =
      .ok () { machine with state := state, position := machine.position + 1 } :=
    checkLimits_of_le shallow light
  rw [step_of_inside inside, reporting, runCurrent_of_here here, bind_of_ok moved, fits]

theorem runToEnd_chunk {position : Nat} {chunk : Chunk}
    (here : (setup.script phase)[position]? = some chunk) {items' : List Bytes} {opCount' : Nat}
    {queries' : List SignatureQuery}
    (ran : Exec.chunk chunk ⟨setup, phase, position⟩
      (State.plain setup.numberRule items opCount queries) =
        .ok .next (State.plain setup.numberRule items' opCount' queries'))
    (shallow : items'.length ≤ setup.limits.maxStackSize)
    (light : totalLength items' ≤ setup.memoryLimit) :
    runToEnd (plain setup phase position items opCount queries) =
      runToEnd (plain setup phase (position + 1) items' opCount' queries') := by
  have inside : position < (setup.script phase).length := (List.getElem?_eq_some_iff.mp here).1
  have unfinished : (plain setup phase position items opCount queries).isFinished = false :=
    isFinished_eq_false inside
  have stays : (plain setup phase position items opCount queries).script[
      (plain setup phase position items opCount queries).position]? = some chunk := here
  exact runToEnd_of_step (Bool.eq_false_iff.mp unfinished) (step_of_ran stays ran shallow light)

/-- Pushes in shortest form put their items on the stack, the last one on top. -/
theorem runToEnd_pushes {before after : List Chunk} {values : List Bytes}
    (isScript : setup.script phase = before ++ values.map Chunk.push ++ after)
    (small : ∀ value ∈ values, value.length ≤ setup.limits.maxElementSize)
    (enough : opCount ≤ setup.limits.maxOps)
    (shallow : (values.reverse ++ items).length ≤ setup.limits.maxStackSize)
    (light : totalLength (values.reverse ++ items) ≤ setup.memoryLimit) :
    runToEnd (plain setup phase before.length items opCount queries) =
      runToEnd (plain setup phase (before.length + values.length) (values.reverse ++ items) opCount
        queries) := by
  induction values generalizing before items with
  | nil => rfl
  | cons value values ih =>
      obtain ⟨smallValue, smallRest⟩ := List.forall_mem_cons.mp small
      have here : (setup.script phase)[before.length]? = some (Chunk.push value) := by
        rw [isScript]
        simp
      have isRest : setup.script phase =
          (before ++ [Chunk.push value]) ++ values.map Chunk.push ++ after := by
        rw [isScript]
        simp
      rw [List.reverse_cons, List.append_assoc, List.singleton_append] at shallow light ⊢
      have shallowHere : (value :: items).length ≤ setup.limits.maxStackSize := by
        rw [List.length_append] at shallow
        omega
      have lightHere : totalLength (value :: items) ≤ setup.memoryLimit := by
        rw [totalLength_append] at light
        omega
      have rest := ih isRest smallRest shallow light
      rw [List.length_append, List.length_singleton] at rest
      rw [runToEnd_chunk here (Exec.chunk_push smallValue enough) shallowHere lightHere, rest,
        List.length_cons, Nat.add_assoc, Nat.add_comm 1]

/-- The locking script starts from the items that the unlocking script has left. -/
theorem runToEnd_between :
    runToEnd (plain setup .unlocking setup.unlocking.length items opCount queries) =
      runToEnd (plain setup .locking 0 items 0 queries) := by
  have between : (plain setup .unlocking setup.unlocking.length items opCount queries).isBetween =
      true := by simp [isBetween, plain]
  exact runToEnd_of_between between rfl

/-- A machine at the end of its scripts with one true item is valid as it is. -/
theorem validate_plain {top : Bytes} (isTrue : ScriptNumber.isTrue top = true) :
    (plain setup .locking setup.locking.length [top] opCount queries).validate =
      .ok () (plain setup .locking setup.locking.length [top] opCount queries) := by
  have finished : (plain setup .locking setup.locking.length [top] opCount queries).isFinished =
      true := by simp [isFinished, plain]
  have result : checkResult (State.plain setup.numberRule [top] opCount queries) setup.flags =
      .ok () := by
    simp [checkResult, State.plain, Stack.ofItems, isTrue]
  rw [validate_of_ended (runToEnd_of_finished finished), plain]
  simp only [reporting, requireResult, result]

end Machine

end BitcoinSpend.Spend
