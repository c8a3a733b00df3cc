import BitcoinSpend.Proofs.Spend.KeySearch
import BitcoinSpend.Proofs.Spend.Oblivious
import BitcoinSpend.Proofs.Spend.Sequencing
import BitcoinSpend.Proofs.Spend.Yields

/-!
# Instructions when more operations are counted

The count of operations is consulted only to refuse too many of them. From a state in
which more are counted an instruction has the same outcome, the count apart, or it runs
out of operations.
-/

set_option autoImplicit false

namespace BitcoinSpend.Spend

open MonadExcept (ofExcept)

def State.withCount (state : State) (count : Nat) : State :=
  { state with opCount := count }

/-- The second outcome is the first with at least as many operations counted. Otherwise it is a
failure after too many, which only an operation that counts can have. -/
inductive Outcome.Recounted (maxOps : Nat) (counts : Prop) {α : Type} :
    EStateM.Result Fault State α → EStateM.Result Fault State α → Prop where
  | ok (value : α) {next : State} {count : Nat} (more : next.opCount ≤ count) :
      Recounted maxOps counts (.ok value next) (.ok value (next.withCount count))
  | error (fault : Fault) {next : State} {count : Nat} (more : next.opCount ≤ count) :
      Recounted maxOps counts (.error fault next) (.error fault (next.withCount count))
  | exhausted {outcome : EStateM.Result Fault State α} {fault : Fault} {next : State}
      (counted : counts) (beyond : maxOps < next.opCount) :
      Recounted maxOps counts outcome (.error fault next)

/-- Counting more operations before changes nothing but the count, as long as they do not run
out. -/
def Exec.Recounts (counts : Prop) {α : Type} (op : Exec α) : Prop :=
  ∀ (frame : Frame) (state : State) (count : Nat), state.opCount ≤ count →
    Outcome.Recounted frame.setup.limits.maxOps counts (op frame state)
      (op frame (state.withCount count))

namespace Exec.Recounts

variable {counts : Prop} {α β : Type}

theorem pure (value : α) : Recounts counts (Pure.pure value) := by
  intro frame state count more
  exact .ok value more

theorem throw (fault : Fault) : Recounts counts (throw fault : Exec α) := by
  intro frame state count more
  exact .error fault more

theorem bind {op : Exec α} {next : α → Exec β} (first : Recounts counts op)
    (rest : ∀ value, Recounts counts (next value)) : Recounts counts (op >>= next) := by
  intro frame state count more
  have outcomes := first frame state count more
  simp only [Bind.bind, ReaderT.bind, EStateM.bind]
  generalize op frame state = outcome at outcomes ⊢
  generalize op frame (state.withCount count) = outcome' at outcomes ⊢
  cases outcomes with
  | ok value more => exact rest value frame _ _ more
  | error fault more => exact .error fault more
  | exhausted counted beyond => exact .exhausted counted beyond

/-- What follows a look at the state must not depend on the count in it. -/
theorem get_bind {next : State → Exec β}
    (same : ∀ state count, next (State.withCount state count) = next state)
    (rest : ∀ state, Recounts counts (next state)) : Recounts counts (get >>= next) := by
  intro frame state count more
  have looked : Outcome.Recounted frame.setup.limits.maxOps counts (next state frame state)
      (next (state.withCount count) frame (state.withCount count)) := by
    rw [same]
    exact rest state frame state count more
  exact looked

theorem read_bind {next : Frame → Exec β} (rest : ∀ frame, Recounts counts (next frame)) :
    Recounts counts (read >>= next) :=
  fun frame => rest frame frame

theorem setup_bind {next : Setup → Exec β} (rest : ∀ setup, Recounts counts (next setup)) :
    Recounts counts (setup >>= next) :=
  fun frame => rest frame.setup frame

theorem modify {change : State → State}
    (same : ∀ state count, change (State.withCount state count) = (change state).withCount count)
    (kept : ∀ state, (change state).opCount = state.opCount) :
    Recounts counts (modify change) := by
  intro frame state count more
  have changed : (change state).opCount ≤ count := by rwa [kept]
  have outcomes : Outcome.Recounted frame.setup.limits.maxOps counts
      (.ok () (change state)) (.ok () ((change state).withCount count)) := .ok () changed
  rw [← same] at outcomes
  exact outcomes

theorem ofExcept (result : Except Fault α) : Recounts counts (ofExcept result) := by
  cases result with
  | ok value => exact pure value
  | error fault => exact throw fault

theorem refuse (condition : Bool) (fault : Fault) : Recounts counts (refuse condition fault) := by
  cases condition with
  | false => exact pure ()
  | true => exact throw fault

theorem ite {condition : Prop} [Decidable condition] {op other : Exec α}
    (positive : condition → Recounts counts op) (negative : Recounts counts other) :
    Recounts counts (if condition then op else other) := by
  split
  · next holds => exact positive holds
  · exact negative

theorem requireContext (instruction : String) :
    Recounts counts (requireContext instruction) := by
  intro frame state count more
  simp only [requireContext_run]
  cases frame.setup.context with
  | some context => exact .ok context more
  | none => exact .error _ more

theorem onStack (op : StackM α) : Recounts counts (onStack op) := by
  intro frame state count more
  simp only [Exec.onStack, State.withCount]
  cases op state.stack with
  | ok value stack => exact .ok value more
  | error fault stack => exact .error fault more

theorem onAlt (op : StackM α) : Recounts counts (onAlt op) := by
  intro frame state count more
  simp only [Exec.onAlt, State.withCount]
  cases op state.alt with
  | ok value stack => exact .ok value more
  | error fault stack => exact .error fault more

end Exec.Recounts

namespace Exec

variable {counts : Prop}

/-! ## Conditionals -/

private theorem recounts_hasFlag (flag : Flags) : Recounts counts (hasFlag flag) :=
  .setup_bind fun _ => .pure _

private theorem recounts_isExecuting : Recounts counts isExecuting :=
  .setup_bind fun _ => .get_bind (fun _ _ => rfl) fun _ => .pure _

private theorem recounts_popCondition : Recounts counts popCondition := by
  refine (recounts_hasFlag _).bind fun minimal => .ite (fun _ => ?_) (.onStack _)
  refine .bind (.onStack _) fun item => ?_
  split
  · exact .pure false
  · exact .ite (fun _ => .pure true) (.throw _)
  · exact .throw _

private theorem recounts_beginIf (negated : Bool) : Recounts counts (beginIf negated) := by
  have chosen : Recounts counts (chooseBranch negated) :=
    recounts_isExecuting.bind fun _ =>
      .ite (fun _ => recounts_popCondition.bind fun _ => .pure _) (.pure _)
  exact chosen.bind fun taken => .modify (fun _ _ => rfl) fun _ => rfl

private theorem recounts_switchBranch : Recounts counts switchBranch := by
  intro frame state count more
  rcases state with ⟨stack, alt, branches, switches, separator, opCount, returned, queries⟩
  cases branches with
  | nil => exact .error _ more
  | cons taken outer =>
      cases switches with
      | nil => exact .error _ more
      | cons switched outerSwitched =>
          cases switched with
          | true => exact .error _ more
          | false => exact .ok () more

private theorem recounts_endIf : Recounts counts endIf := by
  intro frame state count more
  rcases state with ⟨stack, alt, branches, switches, separator, opCount, returned, queries⟩
  cases branches with
  | nil => exact .error _ more
  | cons taken outer => exact .ok () more

private theorem recounts_verify (kind : VerifyKind) (op : Opcode) :
    Recounts counts (verify kind op) :=
  .bind (.onStack _) fun _ => .refuse _ _

private theorem recounts_upgradableNop (op : Opcode) : Recounts counts (upgradableNop op) :=
  (recounts_hasFlag _).bind fun _ => .refuse _ _

private theorem recounts_returnEarly : Recounts counts returnEarly := by
  refine .setup_bind fun _ => (Recounts.refuse _ _).bind fun _ => ?_
  refine .bind (.modify (fun _ _ => rfl) fun _ => rfl) fun _ => ?_
  exact .get_bind (fun _ _ => rfl) fun _ => .pure _

/-! ## Numbers, strings and lock times -/

private theorem recounts_unary (op : Unary) : Recounts counts (unary op) :=
  .bind (.onStack _) fun _ => .onStack _

private theorem recounts_binary (op : Binary) : Recounts counts (binary op) := by
  refine .bind (.onStack _) fun right => .bind (.onStack _) fun left => ?_
  exact (Recounts.ofExcept _).bind fun _ => .onStack _

private theorem recounts_relation (op : Relation) : Recounts counts (relation op) :=
  .bind (.onStack _) fun _ => .bind (.onStack _) fun _ => .onStack _

private theorem recounts_within : Recounts counts within := by
  refine .bind (.onStack _) fun upper => .bind (.onStack _) fun lower => ?_
  exact .bind (.onStack _) fun _ => .onStack _

private theorem recounts_shift (direction : Direction) : Recounts counts (shift direction) := by
  refine .bind (.onStack _) fun amount => .bind (.onStack _) fun bytes => ?_
  refine (Recounts.refuse _ _).bind fun _ => .ite (fun _ => .onStack _) ?_
  exact (Recounts.ofExcept _).bind fun _ => .onStack _

private theorem recounts_toAlt : Recounts counts toAlt :=
  .bind (.onStack _) fun _ => .onAlt _

private theorem recounts_fromAlt : Recounts counts fromAlt :=
  .bind (.onAlt _) fun _ => .onStack _

private theorem recounts_dupIfTrue : Recounts counts dupIfTrue :=
  .bind (.onStack _) fun _ => .ite (fun _ => .onStack _) (.pure ())

private theorem recounts_depth : Recounts counts depth :=
  .get_bind (fun _ _ => rfl) fun _ => .onStack _

private theorem recounts_popIndex : Recounts counts popIndex := by
  refine .bind (.onStack _) fun index => .get_bind (fun _ _ => rfl) fun state => ?_
  exact (Recounts.refuse _ _).bind fun _ => .pure _

private theorem recounts_pick : Recounts counts pick :=
  recounts_popIndex.bind fun _ => .onStack _

private theorem recounts_roll : Recounts counts roll :=
  recounts_popIndex.bind fun _ => .onStack _

private theorem recounts_nip : Recounts counts nip :=
  .bind (.onStack _) fun _ => .pure ()

private theorem recounts_cat : Recounts counts cat := by
  refine .setup_bind fun setup => .bind (.onStack _) fun right => ?_
  refine .bind (.onStack _) fun left => (Recounts.refuse _ _).bind fun _ => ?_
  exact .onStack _

private theorem recounts_split : Recounts counts split := by
  refine .bind (.onStack _) fun position => .bind (.onStack _) fun bytes => ?_
  refine (Recounts.refuse _ _).bind fun _ => (Recounts.refuse _ _).bind fun _ => ?_
  refine (Recounts.ofExcept _).bind fun tail => ?_
  exact .bind (.onStack _) fun _ => .onStack _

private theorem recounts_numToBin : Recounts counts numToBin := by
  refine .setup_bind fun setup => .bind (.onStack _) fun size => .bind (.onStack _) fun bytes => ?_
  refine (Recounts.refuse _ _).bind fun _ => (Recounts.refuse _ _).bind fun _ => ?_
  refine .get_bind (fun _ _ => rfl) fun state => (Recounts.refuse _ _).bind fun _ => ?_
  refine (Recounts.refuse _ _).bind fun _ => .ite (fun _ => .onStack _) ?_
  exact (Recounts.ofExcept _).bind fun _ => .onStack _

private theorem recounts_binToNum : Recounts counts binToNum := by
  refine .setup_bind fun setup => .bind (.onStack _) fun bytes => ?_
  exact (Recounts.refuse _ _).bind fun _ => .onStack _

private theorem recounts_size : Recounts counts size :=
  .bind (.onStack _) fun _ => .onStack _

private theorem recounts_invert : Recounts counts invert :=
  .bind (.onStack _) fun _ => .onStack _

private theorem recounts_bitwise (op : Bitwise) : Recounts counts (bitwise op) := by
  refine .bind (.onStack _) fun right => .bind (.onStack _) fun left => ?_
  exact (Recounts.refuse _ _).bind fun _ => .onStack _

private theorem recounts_equal : Recounts counts equal :=
  .bind (.onStack _) fun _ => .bind (.onStack _) fun _ => .onStack _

private theorem recounts_peekLockTime (operand : String) :
    Recounts counts (peekLockTime operand) := by
  refine .bind (.onStack _) fun item => .bind (.onStack _) fun value => ?_
  exact (Recounts.refuse _ _).bind fun _ => .pure _

private theorem recounts_whereInForce (flag : Flags) (op : Opcode) {check : Exec Unit}
    (recounts : Recounts counts check) : Recounts counts (whereInForce flag op check) :=
  .setup_bind fun _ => .ite (fun _ => recounts_upgradableNop op) recounts

private theorem recounts_checkLockTime : Recounts counts checkLockTime := by
  refine recounts_whereInForce _ _ (.setup_bind fun setup => ?_)
  refine (Recounts.requireContext _).bind fun context => ?_
  refine (recounts_peekLockTime _).bind fun required => ?_
  exact (Recounts.ofExcept _).bind fun _ => .refuse _ _

private theorem recounts_checkSequence : Recounts counts checkSequence := by
  refine recounts_whereInForce _ _ (.setup_bind fun setup => ?_)
  refine (Recounts.requireContext _).bind fun context => ?_
  refine (recounts_peekLockTime _).bind fun required => ?_
  refine .ite (fun _ => (Recounts.refuse _ _).bind fun _ => ?_) (.pure ())
  exact (Recounts.refuse _ _).bind fun _ => .ofExcept _

/-! ## Digests, counting and pushes -/

private theorem recounts_digest (algorithm : Digest.Algorithm) :
    Recounts counts (digest algorithm) :=
  .bind (.onStack _) fun _ => .onStack _

theorem countOps_run (count : Nat) (frame : Frame) (state : State) :
    countOps count frame state =
      if frame.setup.limits.maxOps < state.opCount + count then
        .error (.tooManyOperations frame.setup.limits.maxOps)
          (state.withCount (state.opCount + count))
      else .ok () (state.withCount (state.opCount + count)) := by
  have counted : countOps count frame state =
      (refuse (frame.setup.limits.maxOps < state.opCount + count)
        (.tooManyOperations frame.setup.limits.maxOps) : Exec Unit) frame
        (state.withCount (state.opCount + count)) := rfl
  rw [counted]
  by_cases beyond : frame.setup.limits.maxOps < state.opCount + count
  · rw [if_pos beyond, decide_eq_true beyond]
    rfl
  · rw [if_neg beyond, decide_eq_false beyond]
    rfl

/-- Counting is the one place where a larger count may be refused. -/
private theorem recounts_countOps (counted : counts) (count : Nat) :
    Recounts counts (countOps count) := by
  intro frame state before more
  simp only [countOps_run]
  have next : (state.withCount before).opCount + count = before + count := rfl
  rw [next]
  by_cases beyond : frame.setup.limits.maxOps < before + count
  · rw [if_pos beyond]
    exact .exhausted counted beyond
  · have fewer : ¬frame.setup.limits.maxOps < state.opCount + count := by omega
    rw [if_neg beyond, if_neg fewer]
    exact .ok () (Nat.add_le_add_right more count)

private theorem recounts_popKeys (counted : counts) : Recounts counts popKeys := by
  refine .setup_bind fun setup => .bind (.onStack _) fun count => ?_
  refine (Recounts.refuse _ _).bind fun _ => .get_bind (fun _ _ => rfl) fun state => ?_
  refine (Recounts.refuse _ _).bind fun _ => (recounts_countOps counted _).bind fun _ => ?_
  exact .onStack _

private theorem recounts_popSignatures (keyCount : Nat) :
    Recounts counts (popSignatures keyCount) :=
  .bind (.onStack _) fun _ => (Recounts.refuse _ _).bind fun _ => .onStack _

private theorem recounts_pushChunk (chunk : Chunk) : Recounts counts (pushChunk chunk) := by
  refine (recounts_hasFlag _).bind fun minimal => (Recounts.refuse _ _).bind fun _ => ?_
  split
  · exact .onStack _
  · exact .pure ()

/-! ## Signature checks -/

private theorem recounts_codeSeparator : Recounts counts codeSeparator :=
  .read_bind fun _ => .modify (fun _ _ => rfl) fun _ => rfl

private theorem recounts_signingScript (signatures : List Bytes) (isForkId : Bool) :
    Recounts counts (signingScript signatures isForkId) :=
  .read_bind fun _ => .get_bind (fun _ _ => rfl) fun _ => .ofExcept _

private theorem recounts_ask (context : TxContext) (query : SignatureQuery) :
    Recounts counts (ask context query) := by
  intro frame state count more
  exact .ok _ more

private theorem recounts_checkOne (context : TxContext) (signature key : Bytes) (script : Script) :
    Recounts counts (checkOne context signature key script) := by
  unfold checkOne
  split
  · exact .pure false
  · refine .setup_bind fun setup => (Recounts.ofExcept _).bind fun _ => ?_
    refine (Recounts.ofExcept _).bind fun _ => (Recounts.ofExcept _).bind fun _ => ?_
    exact recounts_ask context _

private theorem recounts_checkSig : Recounts counts checkSig := by
  refine .bind (.onStack _) fun key => .bind (.onStack _) fun signature => ?_
  refine .ite (fun _ => .onStack _) ((Recounts.requireContext _).bind fun context => ?_)
  refine .setup_bind fun setup => (Recounts.ofExcept _).bind fun last => ?_
  refine (Recounts.ofExcept _).bind fun hashType => ?_
  refine (recounts_signingScript _ _).bind fun script => ?_
  refine (recounts_checkOne context signature key script).bind fun valid => ?_
  exact (Recounts.refuse _ _).bind fun _ => .onStack _

private theorem recounts_matchSignatures (context : TxContext) (script : Script)
    (keys signatures : List Bytes) :
    Recounts counts (matchSignatures context script keys signatures) :=
  matchSignatures_of_closed (Recounts counts) .pure (fun signature key _ recounts =>
    (recounts_checkOne context signature key script).bind recounts) keys signatures

private theorem recounts_checkMultiSig (counted : counts) : Recounts counts checkMultiSig := by
  refine .setup_bind fun setup => (recounts_popKeys counted).bind fun keys => ?_
  refine (recounts_popSignatures _).bind fun signatures => .bind (.onStack _) fun dummy => ?_
  refine (Recounts.refuse _ _).bind fun _ => .ite (fun _ => .onStack _) ?_
  refine (Recounts.requireContext _).bind fun context => ?_
  refine (recounts_signingScript _ _).bind fun script => ?_
  refine (recounts_matchSignatures context script keys signatures).bind fun valid => ?_
  exact (Recounts.refuse _ _).bind fun _ => .onStack _

/-! ## Chunks -/

private theorem recounts_then_verify {op : Exec Unit} (recounts : Recounts counts op)
    (verifies : Bool) (kind : VerifyKind) (opcode : Opcode) :
    Recounts counts (do op; if verifies then verify kind opcode) :=
  recounts.bind fun _ => .ite (fun _ => recounts_verify kind opcode) (.pure ())

private theorem recounts_runStraight {instruction : Instruction}
    (counted : ∀ verifies, instruction = .checkMultiSig verifies → counts) (chunk : Chunk) :
    Recounts counts (runStraight instruction chunk) := by
  cases instruction with
  | push => exact recounts_pushChunk chunk
  | nop | returnEarly => exact .pure ()
  | upgradableNop => exact recounts_upgradableNop _
  | beginIf negated => exact recounts_beginIf negated
  | switchBranch => exact recounts_switchBranch
  | endIf => exact recounts_endIf
  | verify => exact recounts_verify _ _
  | checkLockTime => exact recounts_checkLockTime
  | checkSequence => exact recounts_checkSequence
  | toAlt => exact recounts_toAlt
  | fromAlt => exact recounts_fromAlt
  | dropBlock | dupBlock | overBlock | rotBlock | swapBlock | tuck => exact .onStack _
  | dupIfTrue => exact recounts_dupIfTrue
  | depth => exact recounts_depth
  | nip => exact recounts_nip
  | pick => exact recounts_pick
  | roll => exact recounts_roll
  | cat => exact recounts_cat
  | split => exact recounts_split
  | numToBin => exact recounts_numToBin
  | binToNum => exact recounts_binToNum
  | size => exact recounts_size
  | invert => exact recounts_invert
  | bitwise operation => exact recounts_bitwise operation
  | equal verifies => exact recounts_then_verify recounts_equal verifies _ _
  | unary operation => exact recounts_unary operation
  | binary operation => exact recounts_binary operation
  | relation operation => exact recounts_relation operation
  | numEqualVerify => exact (recounts_relation .equal).bind fun _ => recounts_verify _ _
  | within => exact recounts_within
  | shift direction => exact recounts_shift direction
  | digest algorithm => exact recounts_digest algorithm
  | codeSeparator => exact recounts_codeSeparator
  | checkSig verifies => exact recounts_then_verify recounts_checkSig verifies _ _
  | checkMultiSig verifies =>
      exact recounts_then_verify (recounts_checkMultiSig (counted verifies rfl)) verifies _ _
  | disabled | reservedConditional | reserved | unassigned => exact .throw _

/-- An operation is counted for every opcode that may check several signatures. -/
private theorem sixteen_lt_of_checkMultiSig {op : Opcode} {verifies : Bool}
    (several : Instruction.ofOpcode op = .checkMultiSig verifies) : Opcode.sixteen < op := by
  unfold Instruction.ofOpcode at several
  split at several
  · cases several
  · split at several
    · cases several
    · next above => exact UInt8.not_le.mp above

private theorem recounts_precheck (instruction : Instruction) (chunk : Chunk) :
    Recounts (Opcode.sixteen < chunk.op) (precheck instruction chunk) := by
  refine .setup_bind fun setup => (Recounts.refuse _ _).bind fun _ => ?_
  refine recounts_isExecuting.bind fun executing => (Recounts.refuse _ _).bind fun _ => ?_
  refine (Recounts.refuse _ _).bind fun _ => .ite (fun counted => ?_) (.pure ())
  exact recounts_countOps counted 1

theorem recounts_chunk (chunk : Chunk) :
    Recounts (Opcode.sixteen < chunk.op) (Exec.chunk chunk) := by
  refine (recounts_precheck _ chunk).bind fun _ => recounts_isExecuting.bind fun executing => ?_
  refine .ite (fun _ => .ite (fun _ => recounts_returnEarly) ?_) (.pure _)
  have counted : ∀ verifies, Instruction.ofOpcode chunk.op = .checkMultiSig verifies →
      Opcode.sixteen < chunk.op := fun _ => sixteen_lt_of_checkMultiSig
  exact (recounts_runStraight counted chunk).bind fun _ => .pure _

/-! ## When no operation is left -/

/-- Too many operations have been counted before, and still are after. -/
abbrev Overspends {α : Type} (property : α → Prop) (frame : Frame) (op : Exec α) : Prop :=
  Yields (fun state => frame.setup.limits.maxOps < state.opCount)
    (fun state => frame.setup.limits.maxOps < state.opCount) property (op frame)

namespace Overspends

variable {α β : Type} {property : α → Prop} {result : β → Prop} {frame : Frame}

theorem bind {op : Exec α} {next : α → Exec β} (first : Overspends property frame op)
    (rest : ∀ value, property value → Overspends result frame (next value)) :
    Overspends result frame (op >>= next) :=
  Yields.bind first rest

theorem setup_bind {next : Setup → Exec β} (rest : Overspends result frame (next frame.setup)) :
    Overspends result frame (setup >>= next) :=
  rest

theorem refuse (condition : Bool) (fault : Fault) :
    Overspends (fun _ => True) frame (refuse condition fault) := by
  intro state beyond
  cases condition with
  | false => exact ⟨trivial, beyond⟩
  | true => exact beyond

theorem isExecuting : Overspends (fun _ => True) frame isExecuting :=
  fun _ beyond => ⟨trivial, beyond⟩

theorem countOps (count : Nat) : Overspends (fun _ => False) frame (countOps count) := by
  intro state beyond
  have more : frame.setup.limits.maxOps < state.opCount + count := Nat.lt_add_right count beyond
  rw [countOps_run, if_pos more]
  exact more

theorem precheck (instruction : Instruction) {chunk : Chunk} (counted : Opcode.sixteen < chunk.op) :
    Overspends (fun _ => False) frame (precheck instruction chunk) := by
  refine setup_bind ((refuse _ _).bind fun _ _ => isExecuting.bind fun executing _ => ?_)
  refine (refuse _ _).bind fun _ _ => (refuse _ _).bind fun _ _ => ?_
  rw [if_pos counted]
  exact countOps 1

end Overspends

/-- A chunk that counts fails before it runs. -/
theorem chunk_of_overspent {chunk : Chunk} (frame : Frame) {state : State}
    (counted : Opcode.sixteen < chunk.op) (beyond : frame.setup.limits.maxOps < state.opCount) :
    ∃ fault next, Exec.chunk chunk frame state = .error fault next ∧
      frame.setup.limits.maxOps < next.opCount := by
  have outcome := Overspends.precheck (Instruction.ofOpcode chunk.op) counted state beyond
  cases checked : precheck (Instruction.ofOpcode chunk.op) chunk frame state with
  | ok _ next =>
      rw [checked] at outcome
      exact outcome.1.elim
  | error fault next =>
      rw [checked] at outcome
      exact ⟨fault, next, chunk_of_refused checked, outcome⟩

end Exec

end BitcoinSpend.Spend
