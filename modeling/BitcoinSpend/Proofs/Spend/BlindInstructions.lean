import BitcoinSpend.Proofs.Spend.Background
import BitcoinSpend.Proofs.Spend.KeySearch

/-!
# Instructions that do not see the background

All parts of all instructions but the count of items, conditionals and returns are blind
to what lies beneath the main stack and to the nesting around them. Where an instruction
asks how deep the stack is, it only refuses to reach beyond the bottom.
-/

set_option autoImplicit false

namespace BitcoinSpend.Spend.Exec

open MonadExcept (ofExcept)

variable {background : Background}

theorem blind_pop : Blind background (onStack Stack.pop) (onStack Stack.pop) :=
  .onStack Stack.blind_pop

theorem blind_popNumber : Blind background (onStack Stack.popNumber) (onStack Stack.popNumber) :=
  .onStack Stack.blind_popNumber

theorem blind_popBool : Blind background (onStack Stack.popBool) (onStack Stack.popBool) :=
  .onStack Stack.blind_popBool

theorem blind_popMany (count : Nat) :
    Blind background (onStack (Stack.popMany count)) (onStack (Stack.popMany count)) :=
  .onStack (Stack.blind_popMany count)

theorem blind_push (item : Bytes) :
    Blind background (onStack (Stack.push item)) (onStack (Stack.push item)) :=
  .onStack (Stack.blind_push item)

theorem blind_peek (index : Nat) :
    Blind background (onStack (Stack.peek index)) (onStack (Stack.peek index)) :=
  .onStack (Stack.blind_peek index)

private theorem blind_hasFlag (flag : Flags) : Blind background (hasFlag flag) (hasFlag flag) :=
  .setup_bind fun _ => .pure _

/-! ## Conditions, verification and pushes -/

theorem blind_popCondition : Blind background popCondition popCondition := by
  refine (blind_hasFlag _).bind fun minimal => .ite (blind_pop.bind fun item => ?_) blind_popBool
  split
  · exact .pure false
  · exact .ite (.pure true) (.throw _ _)
  · exact .throw _ _

private theorem blind_verify (kind : VerifyKind) (op : Opcode) :
    Blind background (verify kind op) (verify kind op) :=
  blind_popBool.bind fun _ => .refuse id

private theorem blind_then_verify {op : Exec Unit} (blind : Blind background op op)
    (verifies : Bool) (kind : VerifyKind) (opcode : Opcode) :
    Blind background (do op; if verifies then verify kind opcode)
      (do op; if verifies then verify kind opcode) :=
  blind.bind fun _ => .ite (blind_verify kind opcode) (.pure ())

private theorem blind_upgradableNop (op : Opcode) :
    Blind background (upgradableNop op) (upgradableNop op) :=
  (blind_hasFlag _).bind fun _ => .refuse id

private theorem blind_pushChunk (chunk : Chunk) :
    Blind background (pushChunk chunk) (pushChunk chunk) := by
  refine (blind_hasFlag _).bind fun minimal => .refuse_bind id ?_
  split
  · exact blind_push _
  · exact .pure ()

/-! ## Numbers -/

private theorem blind_unary (op : Unary) : Blind background (unary op) (unary op) :=
  blind_popNumber.bind fun _ => blind_push _

private theorem blind_binary (op : Binary) : Blind background (binary op) (binary op) := by
  refine blind_popNumber.bind fun right => blind_popNumber.bind fun left => ?_
  exact (Blind.ofExcept _).bind fun _ => blind_push _

private theorem blind_relation (op : Relation) : Blind background (relation op) (relation op) :=
  blind_popNumber.bind fun _ => blind_popNumber.bind fun _ => blind_push _

private theorem blind_within : Blind background within within := by
  refine blind_popNumber.bind fun upper => blind_popNumber.bind fun lower => ?_
  exact blind_popNumber.bind fun _ => blind_push _

private theorem blind_shift (direction : Direction) :
    Blind background (shift direction) (shift direction) := by
  refine blind_popNumber.bind fun amount => blind_pop.bind fun bytes => ?_
  refine .refuse_bind id (.ite (blind_push _) ?_)
  exact (Blind.ofExcept _).bind fun _ => blind_push _

/-! ## Items -/

private theorem blind_toAlt : Blind background toAlt toAlt :=
  blind_pop.bind fun _ => .onAlt _

private theorem blind_fromAlt : Blind background fromAlt fromAlt :=
  (Blind.onAlt _).bind fun _ => blind_push _

private theorem blind_dupIfTrue : Blind background dupIfTrue dupIfTrue :=
  (blind_peek 0).bind fun _ => .ite (blind_push _) (.pure ())

/-- An index of one of the items left is one of the items above the background. -/
private theorem blind_popIndex : Blind background popIndex popIndex := by
  refine blind_popNumber.bind fun index => .get_bind fun state => .refuse_bind ?_ (.pure _)
  have deeper := state.stack.depth_le_atop background.beneath
  simp only [Bool.or_eq_true, decide_eq_true_eq]
  rintro (negative | beyond)
  · exact Or.inl negative
  · exact Or.inr (Int.le_trans (Int.ofNat_le.mpr deeper) beyond)

theorem blind_pick : Blind background pick pick :=
  blind_popIndex.bind fun index => .onStack (Stack.blind_pick index)

theorem blind_roll : Blind background roll roll :=
  blind_popIndex.bind fun index => .onStack (Stack.blind_roll index)

private theorem blind_nip : Blind background nip nip :=
  (Blind.onStack (Stack.blind_remove 1)).bind fun _ => .pure ()

private theorem blind_cat : Blind background cat cat := by
  refine .setup_bind fun setup => blind_pop.bind fun right => blind_pop.bind fun left => ?_
  exact .refuse_bind id (blind_push _)

private theorem blind_split : Blind background split split := by
  refine blind_popNumber.bind fun position => blind_pop.bind fun bytes => ?_
  refine .refuse_bind id (.refuse_bind id ((Blind.ofExcept _).bind fun tail => ?_))
  exact (blind_push _).bind fun _ => blind_push _

/-- The limit has room for the background, so that as much is left for the result. -/
private theorem blind_numToBin : Blind background numToBin numToBin := by
  refine .setup_bind fun setup => blind_popNumber.bind fun size => blind_pop.bind fun bytes => ?_
  refine .refuse_bind id (.refuse_bind id (.get_bind fun state => .refuse_bind ?_ ?_))
  · simp only [decide_eq_true_eq]
    simp only [Setup.withRoom, State.atop, Stack.atop]
    omega
  · refine .refuse_bind id (.ite (blind_push _) ?_)
    exact (Blind.ofExcept _).bind fun _ => blind_push _

private theorem blind_binToNum : Blind background binToNum binToNum :=
  .setup_bind fun _ => blind_pop.bind fun _ => .refuse_bind id (blind_push _)

private theorem blind_size : Blind background size size :=
  (blind_peek 0).bind fun _ => blind_push _

private theorem blind_invert : Blind background invert invert :=
  blind_pop.bind fun _ => blind_push _

private theorem blind_bitwise (op : Bitwise) : Blind background (bitwise op) (bitwise op) := by
  refine blind_pop.bind fun right => blind_pop.bind fun left => ?_
  exact .refuse_bind id (blind_push _)

private theorem blind_equal : Blind background equal equal :=
  blind_pop.bind fun _ => blind_pop.bind fun _ => blind_push _

/-! ## Lock times -/

private theorem blind_peekLockTime (operand : String) :
    Blind background (peekLockTime operand) (peekLockTime operand) := by
  refine (blind_peek 0).bind fun item => ?_
  refine (Blind.onStack (Stack.blind_readNumber _ item)).bind fun value => ?_
  exact .refuse_bind id (.pure _)

private theorem blind_whereInForce (flag : Flags) (op : Opcode) {check : Exec Unit}
    (blind : Blind background check check) :
    Blind background (whereInForce flag op check) (whereInForce flag op check) :=
  .setup_bind fun _ => .ite (blind_upgradableNop op) blind

private theorem blind_checkLockTime : Blind background checkLockTime checkLockTime := by
  refine blind_whereInForce _ _ (.setup_bind fun setup => ?_)
  refine (Blind.requireContext _).bind fun context => ?_
  refine (blind_peekLockTime _).bind fun required => ?_
  exact (Blind.ofExcept _).bind fun _ => .refuse id

private theorem blind_checkSequence : Blind background checkSequence checkSequence := by
  refine blind_whereInForce _ _ (.setup_bind fun setup => ?_)
  refine (Blind.requireContext _).bind fun context => ?_
  refine (blind_peekLockTime _).bind fun required => ?_
  refine .ite (.refuse_bind id ?_) (.pure ())
  exact .refuse_bind id (.ofExcept _)

/-! ## Signature checks -/

private theorem blind_digest (algorithm : Digest.Algorithm) :
    Blind background (digest algorithm) (digest algorithm) :=
  blind_pop.bind fun _ => blind_push _

private theorem blind_codeSeparator : Blind background codeSeparator codeSeparator :=
  .read_bind fun _ => .modify fun _ => rfl

private theorem blind_signingScript (signatures : List Bytes) (isForkId : Bool) :
    Blind background (signingScript signatures isForkId) (signingScript signatures isForkId) :=
  .read_bind fun _ => .get_bind fun _ => .ofExcept _

private theorem blind_ask (context : TxContext) (query : SignatureQuery) :
    Blind background (ask context query) (ask context query) := by
  rintro frame state _ rfl value next ran
  cases ran
  exact ⟨_, rfl, rfl⟩

private theorem blind_checkOne (context : TxContext) (signature key : Bytes) (script : Script) :
    Blind background (checkOne context signature key script)
      (checkOne context signature key script) := by
  unfold checkOne
  split
  · exact .pure false
  · refine .setup_bind fun setup => (Blind.ofExcept _).bind fun _ => ?_
    refine (Blind.ofExcept _).bind fun _ => (Blind.ofExcept _).bind fun _ => ?_
    exact blind_ask context _

private theorem blind_checkSig : Blind background checkSig checkSig := by
  refine blind_pop.bind fun key => blind_pop.bind fun signature => .ite (blind_push _) ?_
  refine (Blind.requireContext _).bind fun context => .setup_bind fun setup => ?_
  refine (Blind.ofExcept _).bind fun last => (Blind.ofExcept _).bind fun hashType => ?_
  refine (blind_signingScript _ _).bind fun script => ?_
  refine (blind_checkOne context signature key script).bind fun valid => ?_
  exact .refuse_bind id (blind_push _)

private theorem blind_matchSignatures (context : TxContext) (script : Script)
    (keys signatures : List Bytes) :
    Blind background (matchSignatures context script keys signatures)
      (matchSignatures context script keys signatures) :=
  matchSignatures_of_closed (fun op => Blind background op op) .pure (fun signature key _ blind =>
    (blind_checkOne context signature key script).bind blind) keys signatures

private theorem blind_countOps (count : Nat) :
    Blind background (countOps count) (countOps count) := by
  refine .setup_bind fun setup => .bind (.modify fun _ => rfl) fun _ => ?_
  exact .get_bind fun state => .refuse id

/-- The keys lie above the background. -/
private theorem blind_popKeys : Blind background popKeys popKeys := by
  refine .setup_bind fun setup => blind_popNumber.bind fun count => .refuse_bind id ?_
  refine .get_bind fun state => .refuse_bind ?_ ?_
  · have deeper := state.stack.depth_le_atop background.beneath
    simp only [decide_eq_true_eq]
    exact Nat.lt_of_le_of_lt deeper
  · exact (blind_countOps _).bind fun _ => blind_popMany _

private theorem blind_popSignatures (keyCount : Nat) :
    Blind background (popSignatures keyCount) (popSignatures keyCount) :=
  blind_popNumber.bind fun _ => .refuse_bind id (blind_popMany _)

private theorem blind_checkMultiSig : Blind background checkMultiSig checkMultiSig := by
  refine .setup_bind fun setup => blind_popKeys.bind fun keys => ?_
  refine (blind_popSignatures _).bind fun signatures => blind_pop.bind fun dummy => ?_
  refine .refuse_bind id (.ite (blind_push _) ?_)
  refine (Blind.requireContext _).bind fun context => ?_
  refine (blind_signingScript _ _).bind fun script => ?_
  refine (blind_matchSignatures context script keys signatures).bind fun valid => ?_
  exact .refuse_bind id (blind_push _)

/-! ## All instructions -/

/-- Conditionals and returns work on the nesting, and one instruction counts all items. -/
theorem blind_runStraight {instruction : Instruction}
    (straight : instruction.isConditional = false) (other : instruction ≠ .depth) (chunk : Chunk) :
    Blind background (runStraight instruction chunk) (runStraight instruction chunk) := by
  cases instruction with
  | push => exact blind_pushChunk chunk
  | nop | returnEarly => exact .pure ()
  | upgradableNop => exact blind_upgradableNop _
  | beginIf | switchBranch | endIf => cases straight
  | verify => exact blind_verify _ _
  | checkLockTime => exact blind_checkLockTime
  | checkSequence => exact blind_checkSequence
  | toAlt => exact blind_toAlt
  | fromAlt => exact blind_fromAlt
  | dropBlock count => exact .onStack (Stack.blind_dropBlock count)
  | dupBlock count => exact .onStack (Stack.blind_dupBlock count)
  | overBlock count => exact .onStack (Stack.blind_overBlock count)
  | rotBlock count => exact .onStack (Stack.blind_rotBlock count)
  | swapBlock count => exact .onStack (Stack.blind_swapBlock count)
  | dupIfTrue => exact blind_dupIfTrue
  | depth => exact absurd rfl other
  | nip => exact blind_nip
  | pick => exact blind_pick
  | roll => exact blind_roll
  | tuck => exact .onStack Stack.blind_tuck
  | cat => exact blind_cat
  | split => exact blind_split
  | numToBin => exact blind_numToBin
  | binToNum => exact blind_binToNum
  | size => exact blind_size
  | invert => exact blind_invert
  | bitwise operation => exact blind_bitwise operation
  | equal verifies => exact blind_then_verify blind_equal verifies _ _
  | unary operation => exact blind_unary operation
  | binary operation => exact blind_binary operation
  | relation operation => exact blind_relation operation
  | numEqualVerify => exact (blind_relation .equal).bind fun _ => blind_verify _ _
  | within => exact blind_within
  | shift direction => exact blind_shift direction
  | digest algorithm => exact blind_digest algorithm
  | codeSeparator => exact blind_codeSeparator
  | checkSig verifies => exact blind_then_verify blind_checkSig verifies _ _
  | checkMultiSig verifies => exact blind_then_verify blind_checkMultiSig verifies _ _
  | disabled | reservedConditional | reserved | unassigned => exact .throw _ _

end BitcoinSpend.Spend.Exec
