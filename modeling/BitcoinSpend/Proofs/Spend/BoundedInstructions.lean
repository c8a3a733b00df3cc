import BitcoinSpend.Proofs.Spend.BoundedStacks
import BitcoinSpend.Proofs.Spend.KeySearch
import BitcoinSpend.Proofs.Spend.ResultLengths

/-!
# Instructions keep to the limits

Only pushes, joining and resizing compare a length with a limit. Every other result
is admitted because its operands were: it is one of them or a part, has the length of
one, is a digest, or is a number that is bounded by numbers that were read.
-/

set_option autoImplicit false

namespace BitcoinSpend.Spend

open MonadExcept (ofExcept)

/-- Both stacks hold admitted items. -/
structure State.Fits (limits : Limits) (state : State) : Prop where
  stack : state.stack.Fits limits
  alt : state.alt.Fits limits

/-- Both stacks hold admitted items, and the running script has not used too many operations. -/
structure State.Bounded (limits : Limits) (state : State) : Prop extends
    State.Fits limits state where
  ops : state.opCount ≤ limits.maxOps

theorem Setup.roomy (setup : Setup) : setup.limits.Roomy :=
  Limits.roomy_ofFlags setup.flags

namespace Exec

/-- A part of an instruction keeps to the limits and gives values with the property. Where it fails,
operations may have been counted beyond their limit. -/
abbrev Gives {α : Type} (property : α → Prop) (frame : Frame) (op : Exec α) : Prop :=
  Yields (State.Bounded frame.setup.limits) (State.Fits frame.setup.limits) property (op frame)

/-- A part of an instruction keeps to the limits. -/
abbrev Bounded {α : Type} (frame : Frame) (op : Exec α) : Prop :=
  Gives (fun _ => True) frame op

namespace Gives

variable {α β : Type} {property : α → Prop} {result : β → Prop} {frame : Frame}

theorem pure {value : α} (holds : property value) : Gives property frame (Pure.pure value) :=
  Yields.pure holds

theorem throw (fault : Fault) : Gives property frame (throw fault : Exec α) :=
  fun _ bounded => bounded.toFits

theorem bind {op : Exec α} {next : α → Exec β} (first : Gives property frame op)
    (rest : ∀ value, property value → Gives result frame (next value)) :
    Gives result frame (op >>= next) :=
  Yields.bind first rest

theorem get_bind {next : State → Exec β} (rest : ∀ state, Gives result frame (next state)) :
    Gives result frame (get >>= next) :=
  fun state bounded => rest state state bounded

/-- A look at the state that is followed by a change of the same state. -/
theorem get_run {next : State → Exec β}
    (rest : ∀ state, State.Bounded frame.setup.limits state →
      Outcome.Yields (State.Bounded frame.setup.limits) (State.Fits frame.setup.limits) result
        (next state frame state)) :
    Gives result frame (get >>= next) :=
  rest

theorem read_bind {next : Frame → Exec β} (rest : Gives result frame (next frame)) :
    Gives result frame (read >>= next) :=
  rest

theorem setup_bind {next : Setup → Exec β} (rest : Gives result frame (next frame.setup)) :
    Gives result frame (setup >>= next) :=
  rest

theorem modify {change : State → State}
    (keeps : ∀ state, State.Bounded frame.setup.limits state →
      State.Bounded frame.setup.limits (change state)) :
    Bounded frame (modify change) :=
  fun state bounded => ⟨trivial, keeps state bounded⟩

theorem refuse_bind {condition : Bool} {fault : Fault} {next : Unit → Exec β}
    (rest : condition = false → Gives result frame (next ())) :
    Gives result frame (refuse condition fault >>= next) := by
  intro state bounded
  cases condition with
  | false => exact rest rfl state bounded
  | true => exact bounded.toFits

theorem refuse (condition : Bool) (fault : Fault) : Bounded frame (refuse condition fault) := by
  intro state bounded
  cases condition with
  | false => exact ⟨trivial, bounded⟩
  | true => exact bounded.toFits

theorem ofExcept_bind {computed : Except Fault α} {next : α → Exec β}
    (rest : ∀ value, computed = .ok value → Gives result frame (next value)) :
    Gives result frame (ofExcept computed >>= next) := by
  intro state bounded
  cases computed with
  | ok value => exact rest value rfl state bounded
  | error fault => exact bounded.toFits

theorem ofExcept (computed : Except Fault α) : Bounded frame (ofExcept computed) := by
  intro state bounded
  cases computed with
  | ok value => exact ⟨trivial, bounded⟩
  | error fault => exact bounded.toFits

theorem requireContext_bind {instruction : String} {next : TxContext → Exec β}
    (rest : ∀ context, Gives result frame (next context)) :
    Gives result frame (requireContext instruction >>= next) := by
  have required : Bounded frame (requireContext instruction) := by
    refine setup_bind ?_
    cases frame.setup.context with
    | some context => exact pure trivial
    | none => exact throw _
  exact required.bind fun context _ => rest context

theorem ite {condition : Prop} [Decidable condition] {op other : Exec α}
    (positive : condition → Gives property frame op)
    (negative : ¬condition → Gives property frame other) :
    Gives property frame (if condition then op else other) := by
  by_cases holds : condition
  · rw [if_pos holds]
    exact positive holds
  · rw [if_neg holds]
    exact negative holds

theorem onStack {op : StackM α} (gives : Stack.Gives frame.setup.limits property op) :
    Gives property frame (onStack op) := by
  intro state bounded
  have outcome := gives state.stack bounded.stack
  simp only [Exec.onStack]
  cases ran : op state.stack with
  | ok value stack =>
      rw [ran] at outcome
      exact ⟨outcome.1, { bounded with stack := outcome.2 }⟩
  | error fault stack =>
      rw [ran] at outcome
      exact { bounded.toFits with stack := outcome }

theorem onAlt {op : StackM α} (gives : Stack.Gives frame.setup.limits property op) :
    Gives property frame (onAlt op) := by
  intro state bounded
  have outcome := gives state.alt bounded.alt
  simp only [Exec.onAlt]
  cases ran : op state.alt with
  | ok value stack =>
      rw [ran] at outcome
      exact ⟨outcome.1, { bounded with alt := outcome.2 }⟩
  | error fault stack =>
      rw [ran] at outcome
      exact { bounded.toFits with alt := outcome }

end Gives

variable {frame : Frame}

theorem gives_pop : Gives frame.setup.limits.Admits frame (onStack Stack.pop) :=
  .onStack Stack.gives_pop

theorem gives_popNumber : Gives frame.setup.limits.Expresses frame (onStack Stack.popNumber) :=
  .onStack Stack.gives_popNumber

theorem gives_peek (index : Nat) :
    Gives frame.setup.limits.Admits frame (onStack (Stack.peek index)) :=
  .onStack (Stack.gives_peek index)

theorem bounded_push {item : Bytes} (admitted : frame.setup.limits.Admits item) :
    Bounded frame (onStack (Stack.push item)) :=
  .onStack (Stack.keepsFit_push admitted)

private theorem bounded_pushBool (value : Bool) : Bounded frame (onStack (Stack.pushBool value)) :=
  bounded_push (frame.setup.roomy.admits_ofBool value)

private theorem bounded_popBool : Bounded frame (onStack Stack.popBool) :=
  .onStack Stack.keepsFit_popBool

private theorem bounded_popMany (count : Nat) : Bounded frame (onStack (Stack.popMany count)) :=
  .onStack (Stack.keepsFit_popMany count)

private theorem bounded_hasFlag (flag : Flags) : Bounded frame (hasFlag flag) :=
  .setup_bind (.pure trivial)

private theorem bounded_isExecuting : Bounded frame isExecuting :=
  .setup_bind (.get_bind fun _ => .pure trivial)

/-! ## Conditionals -/

private theorem bounded_popCondition : Bounded frame popCondition := by
  refine (bounded_hasFlag _).bind fun minimal _ => .ite (fun _ => ?_) fun _ => bounded_popBool
  refine gives_pop.bind fun item _ => ?_
  split
  · exact .pure trivial
  · exact .ite (fun _ => .pure trivial) fun _ => .throw _
  · exact .throw _

private theorem bounded_chooseBranch (negated : Bool) : Bounded frame (chooseBranch negated) := by
  refine bounded_isExecuting.bind fun executing _ => .ite (fun _ => ?_) fun _ => .pure trivial
  exact bounded_popCondition.bind fun condition _ => .pure trivial

private theorem bounded_beginIf (negated : Bool) : Bounded frame (beginIf negated) :=
  (bounded_chooseBranch negated).bind fun _ _ => .modify fun _ bounded => { bounded with }

private theorem bounded_switchBranch : Bounded frame switchBranch := by
  refine .get_run fun state bounded => ?_
  cases state.branches with
  | nil => exact bounded.toFits
  | cons taken outer =>
      cases state.switched with
      | nil => exact bounded.toFits
      | cons switched outerSwitched =>
          cases switched with
          | true => exact bounded.toFits
          | false => exact ⟨trivial, { bounded with }⟩

private theorem bounded_endIf : Bounded frame endIf := by
  refine .get_run fun state bounded => ?_
  cases state.branches with
  | nil => exact bounded.toFits
  | cons taken outer => exact ⟨trivial, { bounded with }⟩

private theorem bounded_verify (kind : VerifyKind) (op : Opcode) : Bounded frame (verify kind op) :=
  bounded_popBool.bind fun _ _ => .refuse _ _

private theorem bounded_upgradableNop (op : Opcode) : Bounded frame (upgradableNop op) :=
  (bounded_hasFlag _).bind fun _ _ => .refuse _ _

private theorem bounded_returnEarly : Bounded frame returnEarly := by
  refine .setup_bind (.refuse_bind fun _ => .bind (.modify fun _ bounded => ?_) fun _ _ => ?_)
  · exact { bounded with }
  · exact .get_bind fun _ => .pure trivial

/-! ## Arithmetic -/

private theorem bounded_unary (op : Unary) : Bounded frame (unary op) := by
  refine gives_popNumber.bind fun value small => bounded_push ?_
  refine frame.setup.roomy.admits_succ ?_
  have positive := Bytes.capacity_pos frame.setup.limits.maxNumberLength
  simp only [Limits.Expresses] at small
  cases op with
  | increment | decrement | negate | absolute =>
      simp only [Unary.eval]
      omega
  | isZero | isNonzero =>
      simp only [Unary.eval, truthNumber]
      split <;> omega

private theorem natAbs_eval_lt {limits : Limits} (room : limits.Roomy) {op : Binary}
    {left right value : Int} (smallLeft : limits.Expresses left)
    (smallRight : limits.Expresses right) (computed : op.eval left right = .ok value) :
    value.natAbs < Bytes.capacity (limits.maxNumberLength + limits.maxNumberLength) := by
  have wider : Bytes.capacity (limits.maxNumberLength + 1) ≤
      Bytes.capacity (limits.maxNumberLength + limits.maxNumberLength) :=
    Bytes.capacity_mono (Nat.add_le_add_left room.numbers _)
  have product : left.natAbs * right.natAbs <
      Bytes.capacity (limits.maxNumberLength + limits.maxNumberLength) := by
    rw [Bytes.capacity_add]
    exact Nat.mul_lt_mul'' smallLeft smallRight
  simp only [Limits.Expresses] at smallLeft smallRight
  simp only [Bytes.capacity] at wider
  have dividend :
      left.natAbs < Bytes.capacity (limits.maxNumberLength + limits.maxNumberLength) := by
    omega
  cases op with
  | add | sub =>
      cases computed
      omega
  | mul =>
      cases computed
      rw [Int.natAbs_mul]
      exact product
  | div =>
      simp only [Binary.eval] at computed
      split at computed
      · cases computed
      · cases computed
        rw [Int.natAbs_tdiv]
        exact Nat.lt_of_le_of_lt (Nat.div_le_self _ _) dividend
  | mod =>
      simp only [Binary.eval] at computed
      split at computed
      · cases computed
      · cases computed
        rw [Int.natAbs_tmod]
        exact Nat.lt_of_le_of_lt (Nat.mod_le _ _) dividend
  | min | max =>
      cases computed
      split <;> omega

private theorem bounded_binary (op : Binary) : Bounded frame (binary op) := by
  refine gives_popNumber.bind fun right smallRight => ?_
  refine gives_popNumber.bind fun left smallLeft => .ofExcept_bind fun value computed => ?_
  refine bounded_push (frame.setup.roomy.admits_encode ?_)
  exact natAbs_eval_lt frame.setup.roomy smallLeft smallRight computed

private theorem bounded_relation (op : Relation) : Bounded frame (relation op) :=
  gives_popNumber.bind fun _ _ => gives_popNumber.bind fun _ _ => bounded_pushBool _

private theorem bounded_within : Bounded frame within :=
  gives_popNumber.bind fun _ _ => gives_popNumber.bind fun _ _ =>
    gives_popNumber.bind fun _ _ => bounded_pushBool _

/-- A shift keeps the length of the string. -/
private theorem bounded_shift (direction : Direction) : Bounded frame (shift direction) := by
  refine gives_popNumber.bind fun amount _ => gives_pop.bind fun bytes admitted => ?_
  refine .refuse_bind fun nonnegative => .ite (fun _ => bounded_push ?_) fun short => ?_
  · rw [Limits.Admits, List.length_replicate]
    exact admitted
  · simp only [decide_eq_false_iff_not] at nonnegative
    refine .ofExcept_bind fun shifted computed => bounded_push ?_
    rw [Limits.Admits, length_of_shiftBytes (by omega) computed]
    exact admitted

/-! ## Moving, joining and cutting items -/

private theorem bounded_toAlt : Bounded frame toAlt :=
  gives_pop.bind fun _ admitted => .onAlt (Stack.keepsFit_push admitted)

private theorem bounded_fromAlt : Bounded frame fromAlt :=
  (Gives.onAlt Stack.gives_pop).bind fun _ admitted => bounded_push admitted

private theorem bounded_dupIfTrue : Bounded frame dupIfTrue :=
  (gives_peek 0).bind fun _ admitted => .ite (fun _ => bounded_push admitted) fun _ => .pure trivial

private theorem bounded_popIndex : Bounded frame popIndex :=
  gives_popNumber.bind fun _ _ => .get_bind fun _ => .refuse_bind fun _ => .pure trivial

private theorem bounded_pick : Bounded frame pick :=
  bounded_popIndex.bind fun index _ => .onStack (Stack.keepsFit_pick index)

private theorem bounded_roll : Bounded frame roll :=
  bounded_popIndex.bind fun index _ => .onStack (Stack.keepsFit_roll index)

private theorem bounded_nip : Bounded frame nip :=
  (Gives.onStack (Stack.gives_remove 1)).bind fun _ _ => .pure trivial

private theorem bounded_cat : Bounded frame cat := by
  refine .setup_bind (gives_pop.bind fun right _ => gives_pop.bind fun left _ => ?_)
  refine .refuse_bind fun fits => bounded_push ?_
  simpa [Limits.Admits] using fits

private theorem bounded_split : Bounded frame split := by
  refine gives_popNumber.bind fun position _ => gives_pop.bind fun bytes admitted => ?_
  refine .refuse_bind fun _ => .refuse_bind fun _ => .ofExcept_bind fun tail computed => ?_
  simp only [Limits.Admits] at admitted
  refine (bounded_push ?_).bind fun _ _ => bounded_push ?_
  · simp only [Limits.Admits, List.length_take]
    omega
  · have shorter := length_of_suffixFrom computed
    simp only [Limits.Admits]
    omega

private theorem bounded_numToBin : Bounded frame numToBin := by
  refine .setup_bind (gives_popNumber.bind fun size _ => gives_pop.bind fun bytes admitted => ?_)
  refine .refuse_bind fun nonnegative => .refuse_bind fun fits => .get_bind fun state => ?_
  refine .refuse_bind fun _ => .refuse_bind fun enough =>
    .ite (fun same => bounded_push ?_) fun short => ?_
  · have shorter := ScriptNumber.length_minimize_le bytes
    simp only [Limits.Admits] at admitted ⊢
    omega
  · refine .ofExcept_bind fun widened computed => bounded_push ?_
    simp only [decide_eq_false_iff_not] at nonnegative fits enough
    rw [Limits.Admits, length_of_widen (by omega) computed]
    omega

private theorem bounded_binToNum : Bounded frame binToNum := by
  refine .setup_bind (gives_pop.bind fun bytes admitted => .refuse_bind fun _ => bounded_push ?_)
  exact Nat.le_trans (ScriptNumber.length_minimize_le bytes) admitted

private theorem bounded_size : Bounded frame size := by
  refine (gives_peek 0).bind fun item admitted => bounded_push ?_
  have room := frame.setup.roomy
  exact room.admits_count (Nat.lt_of_le_of_lt admitted room.sizes)

private theorem bounded_invert : Bounded frame invert := by
  refine gives_pop.bind fun bytes admitted => bounded_push ?_
  rw [Limits.Admits, List.length_map]
  exact admitted

private theorem bounded_bitwise (op : Bitwise) : Bounded frame (bitwise op) := by
  refine gives_pop.bind fun right _ => gives_pop.bind fun left admitted => ?_
  refine .refuse_bind fun _ => bounded_push ?_
  rw [Limits.Admits, List.length_zipWith]
  exact Nat.le_trans (Nat.min_le_left _ _) admitted

private theorem bounded_equal : Bounded frame equal :=
  gives_pop.bind fun _ _ => gives_pop.bind fun _ _ => bounded_pushBool _

/-! ## Lock times -/

private theorem bounded_peekLockTime (operand : String) : Bounded frame (peekLockTime operand) := by
  refine (gives_peek 0).bind fun item _ => ?_
  refine (Gives.onStack (Stack.gives_readNumber lockTimeLength item)).bind fun value _ => ?_
  exact .refuse_bind fun _ => .pure trivial

private theorem bounded_whereInForce {check : Exec Unit} (bounded : Bounded frame check)
    (flag : Flags) (op : Opcode) : Bounded frame (whereInForce flag op check) :=
  .setup_bind (.ite (fun _ => bounded_upgradableNop op) fun _ => bounded)

private theorem bounded_checkLockTime : Bounded frame checkLockTime := by
  refine bounded_whereInForce (.setup_bind (.requireContext_bind fun context => ?_)) _ _
  refine (bounded_peekLockTime _).bind fun required _ => ?_
  exact .ofExcept_bind fun _ _ => .refuse _ _

private theorem bounded_checkSequence : Bounded frame checkSequence := by
  refine bounded_whereInForce (.setup_bind (.requireContext_bind fun context => ?_)) _ _
  refine (bounded_peekLockTime _).bind fun required _ => .ite (fun _ => ?_) fun _ => .pure trivial
  exact .refuse_bind fun _ => .refuse_bind fun _ => .ofExcept _

/-! ## Digests and signatures -/

private theorem bounded_digest (algorithm : Digest.Algorithm) :
    Bounded frame (digest algorithm) := by
  refine gives_pop.bind fun bytes _ => bounded_push ?_
  exact Nat.le_trans (length_digest_le algorithm bytes) frame.setup.roomy.digests

private theorem bounded_codeSeparator : Bounded frame codeSeparator :=
  fun _ bounded => ⟨trivial, { bounded with }⟩

private theorem bounded_signingScript (signatures : List Bytes) (isForkId : Bool) :
    Bounded frame (signingScript signatures isForkId) :=
  .read_bind (.get_bind fun _ => .ofExcept _)

private theorem bounded_ask (context : TxContext) (query : SignatureQuery) :
    Bounded frame (ask context query) :=
  fun _ bounded => ⟨trivial, { bounded with }⟩

private theorem bounded_checkOne (context : TxContext) (signature key : Bytes) (script : Script) :
    Bounded frame (checkOne context signature key script) := by
  simp only [checkOne]
  split
  · exact .pure trivial
  · refine .setup_bind (.ofExcept_bind fun _ _ => .ofExcept_bind fun _ _ => ?_)
    exact .ofExcept_bind fun _ _ => bounded_ask context _

private theorem bounded_checkSig : Bounded frame checkSig := by
  refine gives_pop.bind fun key _ => gives_pop.bind fun signature _ => ?_
  refine .ite (fun _ => bounded_pushBool false) fun _ => ?_
  refine .requireContext_bind fun context => .setup_bind ?_
  refine .ofExcept_bind fun last _ => .ofExcept_bind fun hashType _ => ?_
  refine (bounded_signingScript _ _).bind fun script _ => ?_
  refine (bounded_checkOne context signature key script).bind fun valid _ => ?_
  exact .refuse_bind fun _ => bounded_pushBool valid

private theorem bounded_matchSignatures (context : TxContext) (script : Script)
    (keys signatures : List Bytes) :
    Bounded frame (matchSignatures context script keys signatures) :=
  matchSignatures_of_closed (Bounded frame) (fun _ => .pure trivial) (fun signature key _ bounded =>
    (bounded_checkOne context signature key script).bind fun valid _ => bounded valid)
    keys signatures

/-- Operations are counted before the count is compared, so that a failure leaves too many. -/
private theorem bounded_countOps (count : Nat) : Bounded frame (countOps count) := by
  intro state bounded
  have counted : countOps count frame state =
      (refuse (frame.setup.limits.maxOps < state.opCount + count)
        (.tooManyOperations frame.setup.limits.maxOps) : Exec Unit) frame
        { state with opCount := state.opCount + count } := rfl
  rw [counted]
  by_cases tooMany : frame.setup.limits.maxOps < state.opCount + count
  · rw [decide_eq_true tooMany]
    exact { bounded.toFits with }
  · rw [decide_eq_false tooMany]
    exact ⟨trivial, { bounded.toFits with ops := Nat.le_of_not_lt tooMany }⟩

private theorem bounded_popKeys : Bounded frame popKeys := by
  refine .setup_bind (gives_popNumber.bind fun count _ => .refuse_bind fun _ => ?_)
  refine .get_bind fun state => .refuse_bind fun _ => ?_
  exact (bounded_countOps _).bind fun _ _ => bounded_popMany _

private theorem bounded_popSignatures (keyCount : Nat) : Bounded frame (popSignatures keyCount) :=
  gives_popNumber.bind fun _ _ => .refuse_bind fun _ => bounded_popMany _

private theorem bounded_checkMultiSig : Bounded frame checkMultiSig := by
  refine .setup_bind (bounded_popKeys.bind fun keys _ => ?_)
  refine (bounded_popSignatures _).bind fun signatures _ => gives_pop.bind fun dummy _ => ?_
  refine .refuse_bind fun _ => .ite (fun _ => bounded_pushBool true) fun _ => ?_
  refine .requireContext_bind fun context => (bounded_signingScript _ _).bind fun script _ => ?_
  refine (bounded_matchSignatures context script keys signatures).bind fun valid _ => ?_
  exact .refuse_bind fun _ => bounded_pushBool valid

/-! ## Chunks -/

private theorem bounded_pushChunk {chunk : Chunk}
    (short : chunk.op ≤ Opcode.pushData4 → frame.setup.limits.Admits chunk.operand) :
    Bounded frame (pushChunk chunk) := by
  refine (bounded_hasFlag _).bind fun minimal _ => .refuse_bind fun _ => ?_
  split
  · next value found =>
      refine bounded_push ?_
      rcases length_pushValue_le found with tiny | ⟨pushes, rfl⟩
      · exact Nat.le_trans (Nat.le_trans tiny (by decide)) frame.setup.roomy.digests
      · exact short pushes
  · exact .pure trivial

private theorem bounded_then_verify {op : Exec Unit} (bounded : Bounded frame op) (verifies : Bool)
    (kind : VerifyKind) (opcode : Opcode) :
    Bounded frame (do op; if verifies then verify kind opcode) :=
  bounded.bind fun _ _ => .ite (fun _ => bounded_verify kind opcode) fun _ => .pure trivial

/-- The depth is left out, which only the check after the instruction before it bounds. -/
private theorem bounded_runStraight {instruction : Instruction} (other : instruction ≠ .depth)
    {chunk : Chunk}
    (short : chunk.op ≤ Opcode.pushData4 → frame.setup.limits.Admits chunk.operand) :
    Bounded frame (runStraight instruction chunk) := by
  cases instruction with
  | push => exact bounded_pushChunk short
  | nop | returnEarly => exact .pure trivial
  | upgradableNop => exact bounded_upgradableNop _
  | beginIf negated => exact bounded_beginIf negated
  | switchBranch => exact bounded_switchBranch
  | endIf => exact bounded_endIf
  | verify => exact bounded_verify _ _
  | checkLockTime => exact bounded_checkLockTime
  | checkSequence => exact bounded_checkSequence
  | toAlt => exact bounded_toAlt
  | fromAlt => exact bounded_fromAlt
  | dropBlock count => exact .onStack (Stack.keepsFit_dropBlock count)
  | dupBlock count => exact .onStack (Stack.keepsFit_dupBlock count)
  | overBlock count => exact .onStack (Stack.keepsFit_overBlock count)
  | rotBlock count => exact .onStack (Stack.keepsFit_rotBlock count)
  | swapBlock count => exact .onStack (Stack.keepsFit_swapBlock count)
  | dupIfTrue => exact bounded_dupIfTrue
  | depth => exact absurd rfl other
  | nip => exact bounded_nip
  | pick => exact bounded_pick
  | roll => exact bounded_roll
  | tuck => exact .onStack Stack.keepsFit_tuck
  | cat => exact bounded_cat
  | split => exact bounded_split
  | numToBin => exact bounded_numToBin
  | binToNum => exact bounded_binToNum
  | size => exact bounded_size
  | invert => exact bounded_invert
  | bitwise operation => exact bounded_bitwise operation
  | equal verifies => exact bounded_then_verify bounded_equal verifies _ _
  | unary operation => exact bounded_unary operation
  | binary operation => exact bounded_binary operation
  | relation operation => exact bounded_relation operation
  | numEqualVerify => exact (bounded_relation .equal).bind fun _ _ => bounded_verify _ _
  | within => exact bounded_within
  | shift direction => exact bounded_shift direction
  | digest algorithm => exact bounded_digest algorithm
  | codeSeparator => exact bounded_codeSeparator
  | checkSig verifies => exact bounded_then_verify bounded_checkSig verifies _ _
  | checkMultiSig verifies => exact bounded_then_verify bounded_checkMultiSig verifies _ _
  | disabled | reservedConditional | reserved | unassigned => exact .throw _

theorem bounded_run {instruction : Instruction} (other : instruction ≠ .depth) {chunk : Chunk}
    (short : chunk.op ≤ Opcode.pushData4 → frame.setup.limits.Admits chunk.operand) :
    Bounded frame (run instruction chunk) :=
  .ite (fun _ => bounded_returnEarly) fun _ =>
    (bounded_runStraight other short).bind fun _ _ => .pure trivial

/-- What passes the checks before it is not too long where it is pushed. -/
theorem gives_precheck (instruction : Instruction) (chunk : Chunk) :
    Gives (fun _ => chunk.op ≤ Opcode.pushData4 → frame.setup.limits.Admits chunk.operand) frame
      (precheck instruction chunk) := by
  refine .setup_bind (.refuse_bind fun fits => ?_)
  have short : chunk.op ≤ Opcode.pushData4 → frame.setup.limits.Admits chunk.operand := by
    intro pushed
    simpa [pushed, Limits.Admits] using fits
  refine bounded_isExecuting.bind fun executing _ => .refuse_bind fun _ => .refuse_bind fun _ => ?_
  exact .ite (fun _ => (bounded_countOps 1).imp fun _ _ => short) fun _ => .pure short

end Exec

end BitcoinSpend.Spend
