import BitcoinSpend.Proofs.Spend.KeySearch
import BitcoinSpend.Proofs.Spend.Oblivious

/-!
# Instructions see only what is running

Every part of every instruction. A separator and the script that a signature
commits to are places in the running script, and a signature check asks a context
whose answers do not depend on earlier questions.
-/

set_option autoImplicit false

namespace BitcoinSpend.Spend

open MonadExcept (ofExcept)

namespace Exec

private theorem oblivious_popNumber : Oblivious (onStack Stack.popNumber) :=
  .onStack Stack.keepsRule_popNumber

private theorem oblivious_pop : Oblivious (onStack Stack.pop) :=
  .onStack Stack.keepsRule_pop

private theorem oblivious_popBool : Oblivious (onStack Stack.popBool) :=
  .onStack Stack.keepsRule_popBool

/-- Numbers and truth values are pushed as their encodings. -/
private theorem oblivious_push (item : Bytes) : Oblivious (onStack (Stack.push item)) :=
  .onStack (Stack.keepsRule_push item)

private theorem oblivious_hasFlag (flag : Flags) : Oblivious (hasFlag flag) :=
  .setup_bind (fun _ _ => rfl) fun _ => .pure _

/-! ## Conditionals -/

private theorem oblivious_isExecuting : Oblivious isExecuting :=
  .setup_bind (fun _ _ => rfl) fun _ => .get_bind (fun _ _ => rfl) fun _ => .pure _

private theorem oblivious_popCondition : Oblivious popCondition := by
  refine (oblivious_hasFlag _).bind fun minimal => .ite ?_ oblivious_popBool
  refine oblivious_pop.bind fun item => ?_
  split
  · exact .pure false
  · exact .ite (.pure true) (.throw _)
  · exact .throw _

private theorem oblivious_beginIf (negated : Bool) : Oblivious (beginIf negated) := by
  have chosen : Oblivious (chooseBranch negated) :=
    oblivious_isExecuting.bind fun _ =>
      .ite (oblivious_popCondition.bind fun _ => .pure _) (.pure _)
  exact chosen.bind fun taken => .modify (fun _ _ => rfl) (fun _ => rfl) fun _ => rfl

private theorem oblivious_switchBranch : Oblivious switchBranch := by
  intro frame frame' view rule state state' related
  obtain ⟨queries, rfl⟩ := related.asked
  rcases state with ⟨stack, alt, branches, switches, separator, opCount, returned, asked⟩
  cases branches with
  | nil => exact .error _ related
  | cons taken outer =>
      cases switches with
      | nil => exact .error _ related
      | cons switched outerSwitched =>
          cases switched with
          | true => exact .error _ related
          | false => exact .ok () ⟨⟨queries, rfl⟩, related.stack, related.alt⟩

private theorem oblivious_endIf : Oblivious endIf := by
  intro frame frame' view rule state state' related
  obtain ⟨queries, rfl⟩ := related.asked
  rcases state with ⟨stack, alt, branches, switches, separator, opCount, returned, asked⟩
  cases branches with
  | nil => exact .error _ related
  | cons taken outer => exact .ok () ⟨⟨queries, rfl⟩, related.stack, related.alt⟩

private theorem oblivious_verify (kind : VerifyKind) (op : Opcode) : Oblivious (verify kind op) :=
  oblivious_popBool.bind fun _ => .refuse _ _

private theorem oblivious_upgradableNop (op : Opcode) : Oblivious (upgradableNop op) :=
  (oblivious_hasFlag _).bind fun _ => .refuse _ _

private theorem oblivious_returnEarly : Oblivious returnEarly := by
  refine .setup_bind (fun _ _ => rfl) fun _ => (Oblivious.refuse _ _).bind fun _ => ?_
  refine .bind (.modify (fun _ _ => rfl) (fun _ => rfl) fun _ => rfl) fun _ => ?_
  exact .get_bind (fun _ _ => rfl) fun _ => .pure _

/-! ## Numbers, strings and lock times -/

private theorem oblivious_unary (op : Unary) : Oblivious (unary op) :=
  oblivious_popNumber.bind fun _ => oblivious_push _

private theorem oblivious_binary (op : Binary) : Oblivious (binary op) := by
  refine oblivious_popNumber.bind fun right => oblivious_popNumber.bind fun left => ?_
  exact (Oblivious.ofExcept _).bind fun value => oblivious_push _

private theorem oblivious_relation (op : Relation) : Oblivious (relation op) :=
  oblivious_popNumber.bind fun _ => oblivious_popNumber.bind fun _ => oblivious_push _

private theorem oblivious_within : Oblivious within := by
  refine oblivious_popNumber.bind fun upper => oblivious_popNumber.bind fun lower => ?_
  exact oblivious_popNumber.bind fun value => oblivious_push _

private theorem oblivious_shift (direction : Direction) : Oblivious (shift direction) := by
  refine oblivious_popNumber.bind fun amount => oblivious_pop.bind fun bytes => ?_
  refine (Oblivious.refuse _ _).bind fun _ => .ite (oblivious_push _) ?_
  exact (Oblivious.ofExcept _).bind fun shifted => oblivious_push _

private theorem oblivious_toAlt : Oblivious toAlt :=
  oblivious_pop.bind fun item => .onAlt (Stack.keepsRule_push item)

private theorem oblivious_fromAlt : Oblivious fromAlt :=
  .bind (.onAlt Stack.keepsRule_pop) fun item => oblivious_push item

private theorem oblivious_peek (index : Nat) : Oblivious (onStack (Stack.peek index)) :=
  .onStack (Stack.keepsRule_peek index)

private theorem oblivious_dupIfTrue : Oblivious dupIfTrue :=
  (oblivious_peek 0).bind fun item => .ite (oblivious_push item) (.pure ())

private theorem oblivious_depth : Oblivious depth :=
  .get_bind (fun _ _ => rfl) fun _ => oblivious_push _

private theorem oblivious_popIndex : Oblivious popIndex := by
  refine oblivious_popNumber.bind fun index => .get_bind (fun _ _ => rfl) fun state => ?_
  exact (Oblivious.refuse _ _).bind fun _ => .pure _

private theorem oblivious_pick : Oblivious pick :=
  oblivious_popIndex.bind fun index => .onStack (Stack.keepsRule_pick index)

private theorem oblivious_roll : Oblivious roll :=
  oblivious_popIndex.bind fun index => .onStack (Stack.keepsRule_roll index)

private theorem oblivious_nip : Oblivious nip :=
  .bind (.onStack (Stack.keepsRule_remove 1)) fun _ => .pure ()

private theorem oblivious_cat : Oblivious cat := by
  refine .setup_bind (fun _ _ => rfl) fun setup => oblivious_pop.bind fun right => ?_
  refine oblivious_pop.bind fun left => ?_
  exact (Oblivious.refuse _ _).bind fun _ => oblivious_push _

private theorem oblivious_split : Oblivious split := by
  refine oblivious_popNumber.bind fun position => oblivious_pop.bind fun bytes => ?_
  refine (Oblivious.refuse _ _).bind fun _ => (Oblivious.refuse _ _).bind fun _ => ?_
  refine (Oblivious.ofExcept _).bind fun tail => ?_
  exact (oblivious_push _).bind fun _ => oblivious_push tail

private theorem oblivious_numToBin : Oblivious numToBin := by
  refine .setup_bind (fun _ _ => rfl) fun setup => oblivious_popNumber.bind fun size => ?_
  refine oblivious_pop.bind fun bytes => (Oblivious.refuse _ _).bind fun _ => ?_
  refine (Oblivious.refuse _ _).bind fun _ => .get_bind (fun _ _ => rfl) fun state => ?_
  refine (Oblivious.refuse _ _).bind fun _ => (Oblivious.refuse _ _).bind fun _ => ?_
  refine .ite (oblivious_push _) ?_
  exact (Oblivious.ofExcept _).bind fun widened => oblivious_push widened

private theorem oblivious_binToNum : Oblivious binToNum := by
  refine .setup_bind (fun _ _ => rfl) fun setup => oblivious_pop.bind fun bytes => ?_
  exact (Oblivious.refuse _ _).bind fun _ => oblivious_push _

private theorem oblivious_size : Oblivious size :=
  (oblivious_peek 0).bind fun _ => oblivious_push _

private theorem oblivious_invert : Oblivious invert :=
  oblivious_pop.bind fun _ => oblivious_push _

private theorem oblivious_bitwise (op : Bitwise) : Oblivious (bitwise op) := by
  refine oblivious_pop.bind fun right => oblivious_pop.bind fun left => ?_
  exact (Oblivious.refuse _ _).bind fun _ => oblivious_push _

private theorem oblivious_equal : Oblivious equal :=
  oblivious_pop.bind fun _ => oblivious_pop.bind fun _ => oblivious_push _

private theorem oblivious_peekLockTime (operand : String) : Oblivious (peekLockTime operand) := by
  refine (oblivious_peek 0).bind fun item => ?_
  refine .bind (.onStack (Stack.keepsRule_readNumber lockTimeLength item)) fun value => ?_
  exact (Oblivious.refuse _ _).bind fun _ => .pure _

private theorem oblivious_whereInForce (flag : Flags) (op : Opcode) {check : Exec Unit}
    (oblivious : Oblivious check) : Oblivious (whereInForce flag op check) :=
  .setup_bind (fun _ _ => rfl) fun _ => .ite (oblivious_upgradableNop op) oblivious

private theorem oblivious_checkLockTime : Oblivious checkLockTime := by
  refine oblivious_whereInForce _ _ (.setup_bind (fun _ _ => rfl) fun setup => ?_)
  refine .requireContext_bind fun context _ => (oblivious_peekLockTime _).bind fun required => ?_
  exact (Oblivious.ofExcept _).bind fun _ => .refuse _ _

private theorem oblivious_checkSequence : Oblivious checkSequence := by
  refine oblivious_whereInForce _ _ (.setup_bind (fun _ _ => rfl) fun setup => ?_)
  refine .requireContext_bind fun context _ => (oblivious_peekLockTime _).bind fun required => ?_
  refine .ite ((Oblivious.refuse _ _).bind fun _ => ?_) (.pure ())
  exact (Oblivious.refuse _ _).bind fun _ => .ofExcept _

/-! ## Digests, counting and pushes -/

private theorem oblivious_digest (algorithm : Digest.Algorithm) : Oblivious (digest algorithm) :=
  oblivious_pop.bind fun _ => oblivious_push _

private theorem oblivious_countOps (count : Nat) : Oblivious (countOps count) := by
  refine .setup_bind (fun _ _ => rfl) fun setup => ?_
  refine .bind (.modify (fun _ _ => rfl) (fun _ => rfl) fun _ => rfl) fun _ => ?_
  exact .get_bind (fun _ _ => rfl) fun state => .refuse _ _

private theorem oblivious_popMany (count : Nat) : Oblivious (onStack (Stack.popMany count)) :=
  .onStack (Stack.keepsRule_popMany count)

private theorem oblivious_popKeys : Oblivious popKeys := by
  refine .setup_bind (fun _ _ => rfl) fun setup => oblivious_popNumber.bind fun count => ?_
  refine (Oblivious.refuse _ _).bind fun _ => .get_bind (fun _ _ => rfl) fun state => ?_
  refine (Oblivious.refuse _ _).bind fun _ => (oblivious_countOps _).bind fun _ => ?_
  exact oblivious_popMany _

private theorem oblivious_popSignatures (keyCount : Nat) : Oblivious (popSignatures keyCount) := by
  refine oblivious_popNumber.bind fun count => (Oblivious.refuse _ _).bind fun _ => ?_
  exact oblivious_popMany _

private theorem oblivious_pushChunk (chunk : Chunk) : Oblivious (pushChunk chunk) := by
  refine (oblivious_hasFlag _).bind fun minimal => (Oblivious.refuse _ _).bind fun _ => ?_
  split
  · exact oblivious_push _
  · exact .pure ()

private theorem oblivious_precheck (instruction : Instruction) (chunk : Chunk) :
    Oblivious (precheck instruction chunk) := by
  refine .setup_bind (fun _ _ => rfl) fun setup => (Oblivious.refuse _ _).bind fun _ => ?_
  refine oblivious_isExecuting.bind fun executing => (Oblivious.refuse _ _).bind fun _ => ?_
  exact (Oblivious.refuse _ _).bind fun _ => .ite (oblivious_countOps 1) (.pure ())

/-! ## Signature checks -/

private theorem oblivious_codeSeparator : Oblivious codeSeparator := by
  intro frame frame' view rule state state' related
  obtain ⟨unlocking, rfl⟩ := view.unlocking
  obtain ⟨queries, rfl⟩ := related.asked
  exact .ok () ⟨⟨queries, rfl⟩, related.stack, related.alt⟩

/-- The two frames have one running script. -/
private theorem oblivious_signingScript (signatures : List Bytes) (isForkId : Bool) :
    Oblivious (signingScript signatures isForkId) := by
  intro frame frame' view rule state state' related
  have opened : ∀ (place : Frame) (current : State),
      signingScript signatures isForkId place current =
        (ofExcept (signedScript place.script current.separator signatures isForkId) :
          Exec Script) place current := fun _ _ => rfl
  rw [opened, opened, view.script]
  obtain ⟨queries, rfl⟩ := related.asked
  exact Oblivious.ofExcept _ view rule related

private theorem oblivious_ask {context : TxContext} (memoryless : context.IsMemoryless)
    (query : SignatureQuery) : Oblivious (ask context query) := by
  intro frame frame' view rule state state' related
  obtain ⟨queries, rfl⟩ := related.asked
  simp only [ask, memoryless queries state.queries query]
  exact .ok _ ⟨⟨queries ++ [query], rfl⟩, related.stack, related.alt⟩

private theorem oblivious_checkOne {context : TxContext} (memoryless : context.IsMemoryless)
    (signature key : Bytes) (script : Script) :
    Oblivious (checkOne context signature key script) := by
  unfold checkOne
  split
  · exact .pure false
  · refine .setup_bind (fun _ _ => rfl) fun setup => (Oblivious.ofExcept _).bind fun _ => ?_
    refine (Oblivious.ofExcept _).bind fun _ => (Oblivious.ofExcept _).bind fun _ => ?_
    exact oblivious_ask memoryless _

private theorem oblivious_checkSig : Oblivious checkSig := by
  refine oblivious_pop.bind fun key => oblivious_pop.bind fun signature => ?_
  refine .ite (oblivious_push _) (.requireContext_bind fun context memoryless => ?_)
  refine .setup_bind (fun _ _ => rfl) fun setup => (Oblivious.ofExcept _).bind fun last => ?_
  refine (Oblivious.ofExcept _).bind fun hashType => ?_
  refine (oblivious_signingScript _ _).bind fun script => ?_
  refine (oblivious_checkOne memoryless signature key script).bind fun valid => ?_
  exact (Oblivious.refuse _ _).bind fun _ => oblivious_push _

private theorem oblivious_matchSignatures {context : TxContext} (memoryless : context.IsMemoryless)
    (script : Script) (keys signatures : List Bytes) :
    Oblivious (matchSignatures context script keys signatures) :=
  matchSignatures_of_closed Oblivious .pure (fun signature key _ oblivious =>
    (oblivious_checkOne memoryless signature key script).bind oblivious) keys signatures

private theorem oblivious_checkMultiSig : Oblivious checkMultiSig := by
  refine .setup_bind (fun _ _ => rfl) fun setup => oblivious_popKeys.bind fun keys => ?_
  refine (oblivious_popSignatures _).bind fun signatures => oblivious_pop.bind fun dummy => ?_
  refine (Oblivious.refuse _ _).bind fun _ => .ite (oblivious_push _) ?_
  refine .requireContext_bind fun context memoryless => ?_
  refine (oblivious_signingScript _ _).bind fun script => ?_
  refine (oblivious_matchSignatures memoryless script keys signatures).bind fun valid => ?_
  exact (Oblivious.refuse _ _).bind fun _ => oblivious_push _

/-! ## Chunks -/

private theorem oblivious_then_verify {op : Exec Unit} (oblivious : Oblivious op) (verifies : Bool)
    (kind : VerifyKind) (opcode : Opcode) :
    Oblivious (do op; if verifies then verify kind opcode) :=
  oblivious.bind fun _ => .ite (oblivious_verify kind opcode) (.pure ())

private theorem oblivious_runStraight (instruction : Instruction) (chunk : Chunk) :
    Oblivious (runStraight instruction chunk) := by
  cases instruction with
  | push => exact oblivious_pushChunk chunk
  | nop | returnEarly => exact .pure ()
  | upgradableNop => exact oblivious_upgradableNop _
  | beginIf negated => exact oblivious_beginIf negated
  | switchBranch => exact oblivious_switchBranch
  | endIf => exact oblivious_endIf
  | verify => exact oblivious_verify _ _
  | checkLockTime => exact oblivious_checkLockTime
  | checkSequence => exact oblivious_checkSequence
  | toAlt => exact oblivious_toAlt
  | fromAlt => exact oblivious_fromAlt
  | dropBlock count => exact .onStack (Stack.keepsRule_dropBlock count)
  | dupBlock count => exact .onStack (Stack.keepsRule_dupBlock count)
  | overBlock count => exact .onStack (Stack.keepsRule_overBlock count)
  | rotBlock count => exact .onStack (Stack.keepsRule_rotBlock count)
  | swapBlock count => exact .onStack (Stack.keepsRule_swapBlock count)
  | dupIfTrue => exact oblivious_dupIfTrue
  | depth => exact oblivious_depth
  | nip => exact oblivious_nip
  | pick => exact oblivious_pick
  | roll => exact oblivious_roll
  | tuck => exact .onStack Stack.keepsRule_tuck
  | cat => exact oblivious_cat
  | split => exact oblivious_split
  | numToBin => exact oblivious_numToBin
  | binToNum => exact oblivious_binToNum
  | size => exact oblivious_size
  | invert => exact oblivious_invert
  | bitwise operation => exact oblivious_bitwise operation
  | equal verifies => exact oblivious_then_verify oblivious_equal verifies _ _
  | unary operation => exact oblivious_unary operation
  | binary operation => exact oblivious_binary operation
  | relation operation => exact oblivious_relation operation
  | numEqualVerify => exact (oblivious_relation .equal).bind fun _ => oblivious_verify _ _
  | within => exact oblivious_within
  | shift direction => exact oblivious_shift direction
  | digest algorithm => exact oblivious_digest algorithm
  | codeSeparator => exact oblivious_codeSeparator
  | checkSig verifies => exact oblivious_then_verify oblivious_checkSig verifies _ _
  | checkMultiSig verifies => exact oblivious_then_verify oblivious_checkMultiSig verifies _ _
  | disabled | reservedConditional | reserved | unassigned => exact .throw _

private theorem oblivious_run (instruction : Instruction) (chunk : Chunk) :
    Oblivious (run instruction chunk) :=
  .ite oblivious_returnEarly ((oblivious_runStraight instruction chunk).bind fun _ => .pure _)

theorem oblivious_chunk (chunk : Chunk) : Oblivious (Exec.chunk chunk) := by
  refine (oblivious_precheck _ chunk).bind fun _ => oblivious_isExecuting.bind fun executing => ?_
  exact .ite (oblivious_run _ chunk) (.pure _)

end Exec

end BitcoinSpend.Spend
