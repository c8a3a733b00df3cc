import BitcoinSpend.Proofs.Spend.Keeps
import BitcoinSpend.Proofs.Spend.KeySearch
import BitcoinSpend.Proofs.Spend.RelaxedChecks

/-!
# Instructions under relaxed rules

Every part of every instruction follows itself under relaxed rules, since a flag
that is gone only takes a refusal away. A lock time check without its flag is the
one part that runs something else.
-/

set_option autoImplicit false

namespace BitcoinSpend.Spend

namespace Exec

private theorem follows_hasFlag_bind {α : Type} {flag : Flags} {next next' : Bool → Exec α}
    (rest : ∀ required required' : Bool, (required' = true → required = true) →
      Follows (next required) (next' required')) :
    Follows (hasFlag flag >>= next) (hasFlag flag >>= next') :=
  .setup_bind fun _ _ setups => rest _ _ (setups.flags.fewer flag)

private theorem follows_isExecuting : Follows isExecuting isExecuting := by
  refine .setup_bind fun strict lax setups => .get_bind fun state state' related => ?_
  rw [related.isExecuting setups]
  exact .pure _

/-! ## Conditionals -/

theorem follows_pop : Follows (onStack Stack.pop) (onStack Stack.pop) :=
  .onStack Stack.follows_pop

theorem follows_popNumber : Follows (onStack Stack.popNumber) (onStack Stack.popNumber) :=
  .onStack Stack.follows_popNumber

theorem follows_popBool : Follows (onStack Stack.popBool) (onStack Stack.popBool) :=
  .onStack Stack.follows_popBool

theorem follows_push (item : Bytes) :
    Follows (onStack (Stack.push item)) (onStack (Stack.push item)) :=
  .onStack (Stack.follows_push item)

theorem follows_pushNumber (value : Int) :
    Follows (onStack (Stack.pushNumber value)) (onStack (Stack.pushNumber value)) :=
  .onStack (Stack.follows_pushNumber value)

theorem follows_pushBool (value : Bool) :
    Follows (onStack (Stack.pushBool value)) (onStack (Stack.pushBool value)) :=
  .onStack (Stack.follows_pushBool value)

theorem follows_peek (index : Nat) :
    Follows (onStack (Stack.peek index)) (onStack (Stack.peek index)) :=
  .onStack (Stack.follows_peek index)

private theorem onStack_bind {α β : Type} (op : StackM α) (next : α → StackM β) :
    onStack (op >>= next) = onStack op >>= fun value => onStack (next value) := by
  funext frame state
  simp only [onStack, bind, ReaderT.bind, EStateM.bind]
  cases op state.stack with
  | ok value stack => rfl
  | error fault stack => rfl

/-- The two operands that a minimal condition may have count as what they stand for. -/
private theorem follows_popCondition : Follows popCondition popCondition := by
  refine follows_hasFlag_bind fun required required' fewer => ?_
  cases required' with
  | true =>
      rw [fewer rfl]
      refine follows_pop.bind fun item => ?_
      split
      · exact .pure false
      · exact .ite Iff.rfl (fun _ => .pure true) fun _ => .throw _ _
      · exact .throw _ _
  | false =>
      cases required with
      | false => exact follows_popBool
      | true =>
          simp only [Bool.false_eq_true, if_true, if_false]
          rw [Stack.popBool, onStack_bind]
          refine follows_pop.bind fun item => ?_
          split
          · exact .pure false
          · split
            · next single =>
                subst single
                exact .pure true
            · exact .throw _ _
          · exact .throw _ _

private theorem follows_chooseBranch (negated : Bool) :
    Follows (chooseBranch negated) (chooseBranch negated) := by
  refine follows_isExecuting.bind fun executing => .ite Iff.rfl (fun _ => ?_) fun _ => ?_
  · exact follows_popCondition.bind fun condition => .pure (condition != negated)
  · exact .pure false

private theorem follows_beginIf (negated : Bool) : Follows (beginIf negated) (beginIf negated) := by
  refine (follows_chooseBranch negated).bind fun taken => .modify fun state state' related => ?_
  exact { related with
    branches := congrArg (taken :: ·) related.branches
    switched := congrArg (false :: ·) related.switched }

private theorem follows_switchBranch : Follows switchBranch switchBranch := by
  refine .get_bind fun state state' related => ?_
  rw [related.branches, related.switched]
  split
  · exact .ite Iff.rfl (fun _ => .throw _ _) fun _ =>
      .set { related with branches := rfl, switched := rfl }
  · exact .throw _ _

private theorem follows_endIf : Follows endIf endIf := by
  refine .get_bind fun state state' related => ?_
  rw [related.branches, related.switched]
  split
  · exact .set { related with branches := rfl, switched := rfl }
  · exact .throw _ _

private theorem follows_verify (kind : VerifyKind) (op : Opcode) :
    Follows (verify kind op) (verify kind op) :=
  follows_popBool.bind fun _ => .refuse id

private theorem follows_upgradableNop (op : Opcode) :
    Follows (upgradableNop op) (upgradableNop op) :=
  follows_hasFlag_bind fun _ _ fewer => .refuse fewer

private theorem follows_returnEarly : Follows returnEarly returnEarly := by
  refine .setup_bind fun strict lax setups => ?_
  rw [setups.afterGenesis]
  refine .refuse_bind id (.bind (.modify ?_) fun _ => .get_bind fun state state' related => ?_)
  · intro state state' related
    exact { related with returned := rfl }
  · rw [related.branches]
    exact .pure _

/-! ## Arithmetic -/

private theorem follows_unary (op : Unary) : Follows (unary op) (unary op) :=
  follows_popNumber.bind fun _ => follows_pushNumber _

private theorem follows_binary (op : Binary) : Follows (binary op) (binary op) := by
  refine follows_popNumber.bind fun right => follows_popNumber.bind fun left => ?_
  exact (Follows.ofExcept fun _ same => same).bind follows_pushNumber

private theorem follows_relation (op : Relation) : Follows (relation op) (relation op) :=
  follows_popNumber.bind fun _ => follows_popNumber.bind fun _ => follows_pushBool _

private theorem follows_within : Follows within within := by
  refine follows_popNumber.bind fun upper => follows_popNumber.bind fun lower => ?_
  exact follows_popNumber.bind fun value => follows_pushBool _

private theorem follows_shift (direction : Direction) :
    Follows (shift direction) (shift direction) := by
  refine follows_popNumber.bind fun amount => follows_pop.bind fun bytes => .refuse_bind id ?_
  refine .ite Iff.rfl (fun _ => follows_push _) fun _ => ?_
  exact (Follows.ofExcept fun _ same => same).bind follows_push

/-! ## Moving, joining and cutting items -/

private theorem follows_toAlt : Follows toAlt toAlt :=
  follows_pop.bind fun item => .onAlt (Stack.follows_push item)

private theorem follows_fromAlt : Follows fromAlt fromAlt :=
  (Follows.onAlt Stack.follows_pop).bind follows_push

private theorem follows_dupIfTrue : Follows dupIfTrue dupIfTrue :=
  (follows_peek 0).bind fun item => .ite Iff.rfl (fun _ => follows_push item) fun _ => .pure ()

private theorem follows_depth : Follows depth depth := by
  refine .get_bind fun state state' related => ?_
  rw [related.stack.depth]
  exact follows_pushNumber _

private theorem follows_popIndex : Follows popIndex popIndex := by
  refine follows_popNumber.bind fun index => .get_bind fun state state' related => ?_
  rw [related.stack.depth]
  exact .refuse_bind id (.pure _)

theorem follows_pick : Follows pick pick :=
  follows_popIndex.bind fun index => .onStack (Stack.follows_pick index)

theorem follows_roll : Follows roll roll :=
  follows_popIndex.bind fun index => .onStack (Stack.follows_roll index)

private theorem follows_nip : Follows nip nip :=
  (Follows.onStack (Stack.follows_remove 1)).bind fun _ => .pure ()

private theorem follows_cat : Follows cat cat := by
  refine .setup_bind fun strict lax setups => ?_
  rw [setups.limits]
  exact follows_pop.bind fun _ => follows_pop.bind fun _ => .refuse_bind id (follows_push _)

private theorem follows_split : Follows split split := by
  refine follows_popNumber.bind fun position => follows_pop.bind fun bytes => ?_
  refine .refuse_bind id (.refuse_bind id ?_)
  refine (Follows.ofExcept fun _ same => same).bind fun tail => ?_
  exact (follows_push _).bind fun _ => follows_push tail

/-- What exceeds the larger memory exceeds the smaller one. -/
private theorem follows_numToBin : Follows numToBin numToBin := by
  refine .setup_bind fun strict lax setups => ?_
  rw [setups.limits]
  refine follows_popNumber.bind fun size => follows_pop.bind fun bytes => ?_
  refine .refuse_bind id (.refuse_bind id (.get_bind fun state state' related => ?_))
  have enough := setups.memoryLimit
  rw [related.stack.held, related.alt.held]
  refine .refuse_bind ?_ (.refuse_bind id ?_)
  · simp only [decide_eq_true_eq]
    omega
  · exact .ite Iff.rfl (fun _ => follows_push _) fun _ =>
      (Follows.ofExcept fun _ same => same).bind follows_push

private theorem follows_binToNum : Follows binToNum binToNum := by
  refine .setup_bind fun strict lax setups => ?_
  rw [setups.limits]
  exact follows_pop.bind fun _ => .refuse_bind id (follows_push _)

private theorem follows_size : Follows size size :=
  (follows_peek 0).bind fun _ => follows_pushNumber _

private theorem follows_invert : Follows invert invert :=
  follows_pop.bind fun _ => follows_push _

private theorem follows_bitwise (op : Bitwise) : Follows (bitwise op) (bitwise op) :=
  follows_pop.bind fun _ => follows_pop.bind fun _ => .refuse_bind id (follows_push _)

private theorem follows_equal : Follows equal equal :=
  follows_pop.bind fun _ => follows_pop.bind fun _ => follows_pushBool _

/-! ## Lock times -/

private theorem follows_peekLockTime (operand : String) :
    Follows (peekLockTime operand) (peekLockTime operand) := by
  refine (follows_peek 0).bind fun item => ?_
  refine (Follows.onStack (Stack.follows_readNumber lockTimeLength item)).bind fun value => ?_
  exact .refuse_bind id (.pure value.toNat)

/-- The operation leaves every state as it was, succeeding or failing. -/
def Observes {α : Type} (op : Exec α) : Prop :=
  ∀ (frame : Frame) (before : State), Keeps (· = before) (fun _ => True) frame op

private theorem observes_onStack {α : Type} {op : StackM α}
    (keeps : ∀ before : Stack, Spend.Keeps (· = before) (fun _ => True) op) :
    Observes (onStack op) := by
  intro frame before
  refine .onStack (keeps before.stack) ?_ ?_
  · intro state same
    rw [same]
  · intro state stack same unchanged
    rw [same, unchanged]

private theorem observes_peekLockTime (operand : String) : Observes (peekLockTime operand) := by
  intro frame before
  refine .bind (observes_onStack ?_ frame before) fun item => ?_
  · intro stack state same
    exact Spend.Keeps.get_bind (fun _ _ => .ofExcept fun _ _ => trivial) state same
  · refine .bind (observes_onStack ?_ frame before) fun value => ?_
    · intro stack state same
      simp only [Stack.readNumber]
      split
      · exact same
      · exact ⟨same, trivial⟩
    · exact .refuse_bind (fun _ => trivial) fun _ => .pure _

private theorem Observes.follows_pure {op : Exec Unit} (observes : Observes op) :
    Follows op (pure ()) := by
  intro strict lax frames state state' related value next ran
  have same := observes strict state state rfl
  rw [ran] at same
  refine ⟨state', rfl, ?_⟩
  rw [show next = state from same]
  exact related

private theorem upgradableNop_of_not_discouraged {frame : Frame} (op : Opcode)
    (accepted : frame.setup.flags.has Flags.discourageUpgradableNops = false) :
    upgradableNop op frame = (pure () : Exec Unit) frame := by
  have opened : upgradableNop op frame =
      (refuse (frame.setup.flags.has Flags.discourageUpgradableNops) (.discouragedNop op) :
        Exec Unit) frame := rfl
  rw [opened, accepted]
  rfl

/-- Without its flag a check turns into a nop, which must then not be discouraged. -/
private theorem follows_whereInForce {flag : Flags} {check : Exec Unit} (op : Opcode)
    (follows : Follows check check) (observes : Observes check)
    (kept : ∀ strict lax : Flags, strict.Relaxes lax →
      lax.has Flags.discourageUpgradableNops = false ∨ lax.has flag = strict.has flag) :
    Follows (whereInForce flag op check) (whereInForce flag op check) := by
  intro strict lax frames
  have opened : ∀ frame, whereInForce flag op check frame =
      (if !frame.setup.flags.has flag || frame.setup.afterGenesis then upgradableNop op
        else check) frame := fun _ => rfl
  rw [opened, opened, frames.setup.afterGenesis]
  cases strict.setup.afterGenesis with
  | true =>
      simp only [Bool.or_true, if_true]
      exact follows_upgradableNop op frames
  | false =>
      simp only [Bool.or_false]
      by_cases same : lax.setup.flags.has flag = strict.setup.flags.has flag
      · rw [same]
        split
        · exact follows_upgradableNop op frames
        · exact follows frames
      · -- Only the first run checks, and the second passes a nop.
        have accepted := (kept _ _ frames.setup.flags).resolve_right same
        cases dropped : lax.setup.flags.has flag with
        | true => exact absurd (dropped.trans (frames.setup.flags.fewer _ dropped).symm) same
        | false =>
            have required : strict.setup.flags.has flag = true := by
              rw [dropped] at same
              simpa using same
            simp only [required, Bool.not_true, Bool.not_false, Bool.false_eq_true, if_false,
              if_true]
            rw [upgradableNop_of_not_discouraged op accepted]
            exact observes.follows_pure frames

private theorem follows_checkLockTime : Follows checkLockTime checkLockTime := by
  refine follows_whereInForce _ ?_ ?_ fun _ _ relaxes => relaxes.lockTimes.imp id And.left
  · refine .setup_bind fun strict lax setups => ?_
    rw [setups.inputIndex]
    refine (Follows.requireContext _).bind fun context => ?_
    refine (follows_peekLockTime _).bind fun required => ?_
    exact (Follows.ofExcept fun _ same => same).bind fun _ => .refuse id
  · intro frame before
    refine .setup_bind (.requireContext_bind (fun _ => trivial) fun context => ?_)
    refine (observes_peekLockTime _ frame before).bind fun required => ?_
    exact .ofExcept_bind (fun _ _ => trivial) fun _ _ => .refuse fun _ => trivial

private theorem follows_checkSequence : Follows checkSequence checkSequence := by
  refine follows_whereInForce _ ?_ ?_ fun _ _ relaxes => relaxes.lockTimes.imp id And.right
  · refine .setup_bind fun strict lax setups => ?_
    rw [setups.inputIndex]
    refine (Follows.requireContext _).bind fun context => ?_
    refine (follows_peekLockTime _).bind fun required => .ite Iff.rfl (fun _ => ?_) fun _ => ?_
    · exact .refuse_bind id (.refuse_bind id (.ofExcept fun _ same => same))
    · exact .pure ()
  · intro frame before
    refine .setup_bind (.requireContext_bind (fun _ => trivial) fun context => ?_)
    refine (observes_peekLockTime _ frame before).bind fun required => ?_
    refine .ite (fun _ => .refuse_bind (fun _ => trivial) fun _ => ?_) fun _ => .pure ()
    exact .refuse_bind (fun _ => trivial) fun _ => .ofExcept fun _ _ => trivial

/-! ## Digests and signatures -/

private theorem follows_digest (algorithm : Digest.Algorithm) :
    Follows (digest algorithm) (digest algorithm) :=
  follows_pop.bind fun _ => follows_push _

private theorem follows_codeSeparator : Follows codeSeparator codeSeparator := by
  refine .read_bind fun strict lax frames => .modify fun state state' related => ?_
  exact { related with separator := congrArg some frames.position }

private theorem follows_signingScript (signatures : List Bytes) (isForkId : Bool) :
    Follows (signingScript signatures isForkId) (signingScript signatures isForkId) := by
  refine .read_bind fun strict lax frames => .get_bind fun state state' related => ?_
  have script : lax.script = strict.script := by
    simp only [Frame.script, frames.phase, frames.setup.script]
  rw [script, related.separator]
  exact .ofExcept fun _ same => same

/-- The same question is asked after the same questions. -/
private theorem follows_ask (context : TxContext) (query : SignatureQuery) :
    Follows (ask context query) (ask context query) := by
  intro strict lax frames state state' related value next ran
  cases ran
  refine ⟨{ state' with queries := state'.queries ++ [query] }, ?_, ?_⟩
  · simp only [ask, related.queries]
  · exact { related with queries := congrArg (· ++ [query]) related.queries }

private theorem follows_checkOne (context : TxContext) (signature key : Bytes) (script : Script) :
    Follows (checkOne context signature key script) (checkOne context signature key script) := by
  simp only [checkOne]
  split
  · exact .pure false
  · refine .setup_bind fun strict lax setups => ?_
    rw [setups.inputIndex]
    refine (Follows.ofExcept fun _ => setups.flags.checkHashType).bind fun _ => ?_
    refine (Follows.ofExcept fun _ => setups.flags.checkSignatureEncoding).bind fun _ => ?_
    refine (Follows.ofExcept fun _ => setups.flags.checkKeyEncoding).bind fun _ => ?_
    exact follows_ask context _

private theorem follows_checkSig : Follows checkSig checkSig := by
  refine follows_pop.bind fun key => follows_pop.bind fun signature => ?_
  refine .ite Iff.rfl (fun _ => follows_pushBool false) fun _ => ?_
  refine (Follows.requireContext _).bind fun context => .setup_bind fun strict lax setups => ?_
  rw [setups.flags.usesForkId]
  refine (Follows.ofExcept fun _ same => same).bind fun last => ?_
  refine (Follows.ofExcept fun _ same => same).bind fun hashType => ?_
  refine (follows_signingScript _ _).bind fun script => ?_
  refine (follows_checkOne context signature key script).bind fun valid => ?_
  refine .refuse_bind ?_ (follows_pushBool valid)
  rw [Bool.and_comm, Bool.and_comm _ (strict.flags.has _)]
  exact setups.refuses_less

private theorem follows_matchSignatures (context : TxContext) (script : Script)
    (keys signatures : List Bytes) :
    Follows (matchSignatures context script keys signatures)
      (matchSignatures context script keys signatures) :=
  matchSignatures_of_closed (fun op => Follows op op) .pure (fun signature key _ follows =>
    (follows_checkOne context signature key script).bind follows) keys signatures

private theorem follows_countOps (count : Nat) : Follows (countOps count) (countOps count) := by
  refine .setup_bind fun strict lax setups => ?_
  rw [setups.limits]
  refine .bind (.modify fun state state' related => ?_) fun _ =>
    .get_bind fun state state' related => ?_
  · exact { related with opCount := congrArg (· + count) related.opCount }
  · rw [related.opCount]
    exact .refuse id

theorem follows_popMany (count : Nat) :
    Follows (onStack (Stack.popMany count)) (onStack (Stack.popMany count)) :=
  .onStack (Stack.follows_popMany count)

private theorem follows_popKeys : Follows popKeys popKeys := by
  refine .setup_bind fun strict lax setups => ?_
  rw [setups.limits]
  refine follows_popNumber.bind fun count => .refuse_bind id ?_
  refine .get_bind fun state state' related => ?_
  rw [related.stack.depth]
  exact .refuse_bind id ((follows_countOps _).bind fun _ => follows_popMany _)

private theorem follows_popSignatures (keyCount : Nat) :
    Follows (popSignatures keyCount) (popSignatures keyCount) :=
  follows_popNumber.bind fun _ => .refuse_bind id (follows_popMany _)

private theorem follows_checkMultiSig : Follows checkMultiSig checkMultiSig := by
  refine .setup_bind fun strict lax setups => follows_popKeys.bind fun keys => ?_
  refine (follows_popSignatures _).bind fun signatures => follows_pop.bind fun dummy => ?_
  refine .refuse_bind setups.refuses_less ?_
  refine .ite Iff.rfl (fun _ => follows_pushBool true) fun _ => ?_
  refine (Follows.requireContext _).bind fun context => ?_
  rw [setups.flags.usesForkId]
  refine (follows_signingScript _ _).bind fun script => ?_
  refine (follows_matchSignatures context script keys signatures).bind fun valid => ?_
  refine .refuse_bind ?_ (follows_pushBool valid)
  intro refused
  simp only [Bool.and_eq_true] at refused ⊢
  exact ⟨⟨refused.1.1, setups.flags.fewer _ refused.1.2⟩, refused.2⟩

/-! ## Chunks -/

private theorem follows_pushChunk (chunk : Chunk) :
    Follows (pushChunk chunk) (pushChunk chunk) := by
  refine follows_hasFlag_bind fun required required' fewer => .refuse_bind ?_ ?_
  · intro refused
    simp only [Bool.and_eq_true] at refused ⊢
    exact ⟨fewer refused.1, refused.2⟩
  · split
    · exact follows_push _
    · exact .pure ()

private theorem follows_then_verify {op : Exec Unit} (follows : Follows op op) (verifies : Bool)
    (kind : VerifyKind) (opcode : Opcode) :
    Follows (do op; if verifies then verify kind opcode)
      (do op; if verifies then verify kind opcode) :=
  follows.bind fun _ => .ite Iff.rfl (fun _ => follows_verify kind opcode) fun _ => .pure ()

private theorem follows_runStraight (instruction : Instruction) (chunk : Chunk) :
    Follows (runStraight instruction chunk) (runStraight instruction chunk) := by
  cases instruction with
  | push => exact follows_pushChunk chunk
  | nop | returnEarly => exact .pure ()
  | upgradableNop => exact follows_upgradableNop _
  | beginIf negated => exact follows_beginIf negated
  | switchBranch => exact follows_switchBranch
  | endIf => exact follows_endIf
  | verify => exact follows_verify _ _
  | checkLockTime => exact follows_checkLockTime
  | checkSequence => exact follows_checkSequence
  | toAlt => exact follows_toAlt
  | fromAlt => exact follows_fromAlt
  | dropBlock count => exact .onStack (Stack.follows_dropBlock count)
  | dupBlock count => exact .onStack (Stack.follows_dupBlock count)
  | overBlock count => exact .onStack (Stack.follows_overBlock count)
  | rotBlock count => exact .onStack (Stack.follows_rotBlock count)
  | swapBlock count => exact .onStack (Stack.follows_swapBlock count)
  | dupIfTrue => exact follows_dupIfTrue
  | depth => exact follows_depth
  | nip => exact follows_nip
  | pick => exact follows_pick
  | roll => exact follows_roll
  | tuck => exact .onStack Stack.follows_tuck
  | cat => exact follows_cat
  | split => exact follows_split
  | numToBin => exact follows_numToBin
  | binToNum => exact follows_binToNum
  | size => exact follows_size
  | invert => exact follows_invert
  | bitwise operation => exact follows_bitwise operation
  | equal verifies => exact follows_then_verify follows_equal verifies _ _
  | unary operation => exact follows_unary operation
  | binary operation => exact follows_binary operation
  | relation operation => exact follows_relation operation
  | numEqualVerify => exact (follows_relation .equal).bind fun _ => follows_verify _ _
  | within => exact follows_within
  | shift direction => exact follows_shift direction
  | digest algorithm => exact follows_digest algorithm
  | codeSeparator => exact follows_codeSeparator
  | checkSig verifies => exact follows_then_verify follows_checkSig verifies _ _
  | checkMultiSig verifies => exact follows_then_verify follows_checkMultiSig verifies _ _
  | disabled | reservedConditional | reserved | unassigned => exact .throw _ _

private theorem follows_run (instruction : Instruction) (chunk : Chunk) :
    Follows (run instruction chunk) (run instruction chunk) :=
  .ite Iff.rfl (fun _ => follows_returnEarly) fun _ =>
    (follows_runStraight instruction chunk).bind fun _ => .pure Flow.next

private theorem follows_precheck (instruction : Instruction) (chunk : Chunk) :
    Follows (precheck instruction chunk) (precheck instruction chunk) := by
  refine .setup_bind fun strict lax setups => ?_
  rw [setups.limits, setups.afterGenesis]
  refine .refuse_bind id (follows_isExecuting.bind fun executing => ?_)
  refine .refuse_bind id (.refuse_bind id ?_)
  exact .ite Iff.rfl (fun _ => follows_countOps 1) fun _ => .pure ()

theorem follows_chunk (chunk : Chunk) : Follows (Exec.chunk chunk) (Exec.chunk chunk) := by
  refine (follows_precheck _ chunk).bind fun _ => follows_isExecuting.bind fun executing => ?_
  refine .ite Iff.rfl (fun _ => ?_) fun _ => ?_
  · exact follows_run _ chunk
  · exact .pure Flow.next

end Exec

end BitcoinSpend.Spend
