import BitcoinSpend.Proofs.Spend.Consistency
import BitcoinSpend.Proofs.Spend.KeySearch

/-!
# Instructions keep consistent states

Every part of every instruction, for all opcodes, flags and operands. Only a
separator moves the bound that separators lie before.
-/

set_option autoImplicit false

namespace BitcoinSpend.Spend

open MonadExcept (ofExcept)

/-- A part of an instruction keeps the state consistent and its accesses in range. -/
abbrev Exec.Safe {α : Type} (bound : Nat) (frame : Frame) (op : Exec α) : Prop :=
  Exec.Keeps (State.Consistent bound) Fault.InRange frame op

namespace Exec

variable {bound : Nat} {frame : Frame}

theorem safe_onStack {α : Type} {op : StackM α}
    (keeps : Spend.Keeps Stack.Counted Fault.InRange op) : Safe bound frame (onStack op) := by
  refine .onStack keeps (fun state consistent => consistent.stack) ?_
  intro state stack consistent counted
  exact { consistent with stack := counted }

private theorem safe_onAlt {α : Type} {op : StackM α}
    (keeps : Spend.Keeps Stack.Counted Fault.InRange op) : Safe bound frame (onAlt op) := by
  refine .onAlt keeps (fun state consistent => consistent.alt) ?_
  intro state stack consistent counted
  exact { consistent with alt := counted }

theorem safe_hasFlag (flag : Flags) : Safe bound frame (hasFlag flag) :=
  .setup_bind (.pure _)

theorem safe_isExecuting : Safe bound frame isExecuting :=
  .setup_bind (.get_bind fun _ _ => .pure _)

/-! ## Conditionals -/

private theorem safe_popCondition : Safe bound frame popCondition := by
  refine (safe_hasFlag _).bind fun minimal => .ite (fun _ => ?_) fun _ => ?_
  · refine (safe_onStack Stack.keeps_pop).bind fun item => ?_
    split
    · exact .pure false
    · exact .ite (fun _ => .pure true) fun _ => .throw nofun
    · exact .throw nofun
  · exact safe_onStack Stack.keeps_popBool

private theorem safe_chooseBranch (negated : Bool) : Safe bound frame (chooseBranch negated) := by
  refine safe_isExecuting.bind fun executing => .ite (fun _ => ?_) fun _ => ?_
  · exact safe_popCondition.bind fun condition => .pure (condition != negated)
  · exact .pure false

theorem safe_beginIf (negated : Bool) : Safe bound frame (beginIf negated) := by
  refine (safe_chooseBranch negated).bind fun taken => .modify fun state consistent => ?_
  exact { consistent with paired := congrArg Nat.succ consistent.paired }

theorem safe_switchBranch : Safe bound frame switchBranch := by
  refine .get_run fun state consistent => ?_
  have paired := consistent.paired
  cases branches : state.branches with
  | nil => exact ⟨consistent, nofun⟩
  | cons taken outer =>
      cases switches : state.switched with
      | nil => exact ⟨consistent, nofun⟩
      | cons switched outerSwitched =>
          cases switched with
          | true => exact ⟨consistent, nofun⟩
          | false =>
              rw [branches, switches] at paired
              exact { consistent with paired := paired }

theorem safe_endIf : Safe bound frame endIf := by
  refine .get_run fun state consistent => ?_
  have paired := consistent.paired
  cases branches : state.branches with
  | nil => exact ⟨consistent, nofun⟩
  | cons taken outer =>
      refine { consistent with paired := ?_ }
      simp only [branches, List.length_cons, List.length_tail] at paired ⊢
      omega

theorem safe_verify (kind : VerifyKind) (op : Opcode) : Safe bound frame (verify kind op) :=
  (safe_onStack Stack.keeps_popBool).bind fun _ => .refuse fun _ => nofun

theorem safe_upgradableNop (op : Opcode) : Safe bound frame (upgradableNop op) :=
  (safe_hasFlag _).bind fun _ => .refuse fun _ => nofun

theorem safe_returnEarly : Safe bound frame returnEarly := by
  refine .setup_bind (.refuse_bind (fun _ => nofun) fun _ => ?_)
  refine .bind (.modify ?_) fun _ => .get_bind fun _ _ => .pure _
  intro state consistent
  exact { consistent with }

/-! ## Arithmetic -/

private theorem safe_popNumber : Safe bound frame (onStack Stack.popNumber) :=
  safe_onStack Stack.keeps_popNumber

private theorem safe_pop : Safe bound frame (onStack Stack.pop) :=
  safe_onStack Stack.keeps_pop

theorem safe_push (item : Bytes) : Safe bound frame (onStack (Stack.push item)) :=
  safe_onStack (Stack.keeps_push item)

private theorem safe_pushNumber (value : Int) :
    Safe bound frame (onStack (Stack.pushNumber value)) :=
  safe_onStack (Stack.keeps_pushNumber value)

private theorem safe_pushBool (value : Bool) : Safe bound frame (onStack (Stack.pushBool value)) :=
  safe_onStack (Stack.keeps_pushBool value)

theorem safe_unary (op : Unary) : Safe bound frame (unary op) :=
  safe_popNumber.bind fun _ => safe_pushNumber _

theorem safe_binary (op : Binary) : Safe bound frame (binary op) := by
  refine safe_popNumber.bind fun right => safe_popNumber.bind fun left => ?_
  exact .ofExcept_bind (op.eval_inRange left right) fun value _ => safe_pushNumber value

theorem safe_relation (op : Relation) : Safe bound frame (relation op) :=
  safe_popNumber.bind fun _ => safe_popNumber.bind fun _ => safe_pushBool _

theorem safe_within : Safe bound frame within := by
  refine safe_popNumber.bind fun upper => safe_popNumber.bind fun lower => ?_
  exact safe_popNumber.bind fun value => safe_pushBool _

theorem safe_shift (direction : Direction) : Safe bound frame (shift direction) := by
  refine safe_popNumber.bind fun amount => safe_pop.bind fun bytes => ?_
  refine .refuse_bind (fun _ => nofun) fun nonnegative => ?_
  refine .ite (fun _ => safe_push _) fun short => ?_
  simp only [decide_eq_false_iff_not] at nonnegative
  exact .ofExcept_bind (shiftBytes_inRange direction (by omega)) fun shifted _ => safe_push shifted

/-! ## Moving, joining and cutting items -/

theorem safe_toAlt : Safe bound frame toAlt :=
  safe_pop.bind fun item => safe_onAlt (Stack.keeps_push item)

theorem safe_fromAlt : Safe bound frame fromAlt :=
  (safe_onAlt Stack.keeps_pop).bind fun item => safe_push item

private theorem safe_peek (index : Nat) : Safe bound frame (onStack (Stack.peek index)) :=
  safe_onStack (Stack.keeps_peek index)

theorem safe_dupIfTrue : Safe bound frame dupIfTrue :=
  (safe_peek 0).bind fun item => .ite (fun _ => safe_push item) fun _ => .pure ()

theorem safe_depth : Safe bound frame depth :=
  .get_bind fun _ _ => safe_pushNumber _

private theorem safe_popIndex : Safe bound frame popIndex := by
  refine safe_popNumber.bind fun index => .get_bind fun state _ => ?_
  exact .refuse_bind (fun _ => nofun) fun _ => .pure index.toNat

theorem safe_pick : Safe bound frame pick :=
  safe_popIndex.bind fun index => safe_onStack (Stack.keeps_pick index)

theorem safe_roll : Safe bound frame roll :=
  safe_popIndex.bind fun index => safe_onStack (Stack.keeps_roll index)

theorem safe_nip : Safe bound frame nip :=
  (safe_onStack (Stack.keeps_remove 1)).bind fun _ => .pure ()

theorem safe_cat : Safe bound frame cat := by
  refine .setup_bind (safe_pop.bind fun right => safe_pop.bind fun left => ?_)
  exact .refuse_bind (fun _ => nofun) fun _ => safe_push (left ++ right)

theorem safe_split : Safe bound frame split := by
  refine safe_popNumber.bind fun position => safe_pop.bind fun bytes => ?_
  refine .refuse_bind (fun _ => nofun) fun _ => .refuse_bind (fun _ => nofun) fun inside => ?_
  simp only [decide_eq_false_iff_not] at inside
  refine .ofExcept_bind (StaysInRange.suffixFrom (by omega)) fun tail _ => ?_
  exact (safe_push _).bind fun _ => safe_push tail

theorem safe_numToBin : Safe bound frame numToBin := by
  refine .setup_bind (safe_popNumber.bind fun size => safe_pop.bind fun bytes => ?_)
  refine .refuse_bind (fun _ => nofun) fun _ => .refuse_bind (fun _ => nofun) fun _ => ?_
  refine .get_bind fun state _ => .refuse_bind (fun _ => nofun) fun _ => ?_
  refine .refuse_bind (fun _ => nofun) fun fits => .ite (fun _ => safe_push _) fun shorter => ?_
  -- The form is shorter than the size, which is therefore positive.
  simp only [decide_eq_false_iff_not] at fits
  exact .ofExcept_bind (widen_inRange (by omega) _) fun widened _ => safe_push widened

theorem safe_binToNum : Safe bound frame binToNum := by
  refine .setup_bind (safe_pop.bind fun bytes => ?_)
  exact .refuse_bind (fun _ => nofun) fun _ => safe_push (ScriptNumber.minimize bytes)

theorem safe_size : Safe bound frame size :=
  (safe_peek 0).bind fun _ => safe_pushNumber _

theorem safe_invert : Safe bound frame invert :=
  safe_pop.bind fun _ => safe_push _

theorem safe_bitwise (op : Bitwise) : Safe bound frame (bitwise op) := by
  refine safe_pop.bind fun right => safe_pop.bind fun left => ?_
  exact .refuse_bind (fun _ => nofun) fun _ => safe_push (List.zipWith op.eval left right)

theorem safe_equal : Safe bound frame equal :=
  safe_pop.bind fun _ => safe_pop.bind fun _ => safe_pushBool _

/-! ## Lock times -/

private theorem safe_peekLockTime (operand : String) : Safe bound frame (peekLockTime operand) := by
  refine (safe_peek 0).bind fun item => ?_
  refine (safe_onStack (Stack.keeps_readNumber lockTimeLength item)).bind fun value => ?_
  exact .refuse_bind (fun _ => nofun) fun _ => .pure value.toNat

private theorem safe_whereInForce {check : Exec Unit} (safe : Safe bound frame check) (flag : Flags)
    (op : Opcode) : Safe bound frame (whereInForce flag op check) :=
  .setup_bind (.ite (fun _ => safe_upgradableNop op) fun _ => safe)

theorem safe_checkLockTime : Safe bound frame checkLockTime := by
  refine safe_whereInForce (.setup_bind ?_) _ _
  refine .requireContext_bind (fun _ => nofun) fun context => ?_
  refine (safe_peekLockTime _).bind fun required => ?_
  exact .ofExcept_bind (compareLockTimes_inRange _ _ _) fun _ _ => .refuse fun _ => nofun

theorem safe_checkSequence : Safe bound frame checkSequence := by
  refine safe_whereInForce (.setup_bind ?_) _ _
  refine .requireContext_bind (fun _ => nofun) fun context => ?_
  refine (safe_peekLockTime _).bind fun required => .ite (fun _ => ?_) fun _ => .pure ()
  refine .refuse_bind (fun _ => nofun) fun _ => .refuse_bind (fun _ => nofun) fun _ => ?_
  exact .ofExcept (compareLockTimes_inRange _ _ _)

/-! ## Digests and signatures -/

theorem safe_digest (algorithm : Digest.Algorithm) : Safe bound frame (digest algorithm) :=
  safe_pop.bind fun _ => safe_push _

/-- The signed script starts after a separator that lies in the script. -/
private theorem safe_signingScript (inside : bound ≤ frame.script.length) (signatures : List Bytes)
    (isForkId : Bool) : Safe bound frame (signingScript signatures isForkId) := by
  refine .read_bind (.get_bind fun state consistent => .ofExcept ?_)
  refine signedScript_inRange (fun index found => ?_) signatures isForkId
  exact Nat.lt_of_lt_of_le (consistent.separator index found) inside

private theorem safe_ask (context : TxContext) (query : SignatureQuery) :
    Safe bound frame (ask context query) := by
  intro state consistent
  exact { consistent with }

private theorem safe_checkOne (context : TxContext) (signature key : Bytes) (script : Script) :
    Safe bound frame (checkOne context signature key script) := by
  simp only [checkOne]
  split
  · exact .pure false
  · next hashType _ =>
      refine .setup_bind (.ofExcept_bind (checkHashType_inRange _ hashType) fun _ _ => ?_)
      refine .ofExcept_bind (checkSignatureEncoding_inRange _ _) fun _ _ => ?_
      exact .ofExcept_bind (checkKeyEncoding_inRange _ key) fun _ _ => safe_ask context _

theorem safe_checkSig (inside : bound ≤ frame.script.length) : Safe bound frame checkSig := by
  refine safe_pop.bind fun key => safe_pop.bind fun signature => ?_
  refine .ite (fun _ => safe_pushBool false) fun nonempty => ?_
  have signed : 0 < signature.length := by
    simpa [List.length_pos_iff] using nonempty
  refine .requireContext_bind (fun _ => nofun) fun context => .setup_bind ?_
  refine .ofExcept_bind (StaysInRange.difference signed) fun last found => ?_
  rw [difference_of_le signed] at found
  cases found
  refine .ofExcept_bind (StaysInRange.itemAt (by omega)) fun hashType _ => ?_
  refine (safe_signingScript inside _ _).bind fun script => ?_
  refine (safe_checkOne context signature key script).bind fun valid => ?_
  exact .refuse_bind (fun _ => nofun) fun _ => safe_pushBool valid

private theorem safe_matchSignatures (context : TxContext) (script : Script)
    (keys signatures : List Bytes) :
    Safe bound frame (matchSignatures context script keys signatures) :=
  matchSignatures_of_closed (Safe bound frame) .pure (fun signature key _ safe =>
    (safe_checkOne context signature key script).bind safe) keys signatures

theorem safe_countOps (count : Nat) : Safe bound frame (countOps count) := by
  refine .setup_bind (.bind (.modify ?_) fun _ => .get_bind fun _ _ => .refuse fun _ => nofun)
  intro state consistent
  exact { consistent with }

private theorem safe_popMany (count : Nat) : Safe bound frame (onStack (Stack.popMany count)) :=
  safe_onStack (Stack.keeps_popMany count)

private theorem safe_popKeys : Safe bound frame popKeys := by
  refine .setup_bind (safe_popNumber.bind fun count => .refuse_bind (fun _ => nofun) fun _ => ?_)
  refine .get_bind fun state _ => .refuse_bind (fun _ => nofun) fun _ => ?_
  exact (safe_countOps _).bind fun _ => safe_popMany _

private theorem safe_popSignatures (keyCount : Nat) :
    Safe bound frame (popSignatures keyCount) := by
  refine safe_popNumber.bind fun count => ?_
  exact .refuse_bind (fun _ => nofun) fun _ => safe_popMany count.toNat

theorem safe_checkMultiSig (inside : bound ≤ frame.script.length) :
    Safe bound frame checkMultiSig := by
  refine .setup_bind (safe_popKeys.bind fun keys => ?_)
  refine (safe_popSignatures _).bind fun signatures => ?_
  refine safe_pop.bind fun dummy => .refuse_bind (fun _ => nofun) fun _ => ?_
  refine .ite (fun _ => safe_pushBool true) fun _ => ?_
  refine .requireContext_bind (fun _ => nofun) fun context => ?_
  refine (safe_signingScript inside _ _).bind fun script => ?_
  refine (safe_matchSignatures context script keys signatures).bind fun valid => ?_
  exact .refuse_bind (fun _ => nofun) fun _ => safe_pushBool valid

end Exec

end BitcoinSpend.Spend
