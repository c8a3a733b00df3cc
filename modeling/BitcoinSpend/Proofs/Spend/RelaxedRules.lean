import BitcoinSpend.Spend.Validate

/-!
# Relaxed rules

Rules are relaxed by taking away flags that only refuse, and by allowing more
memory. Neither the genesis upgrade nor replay protection is such a flag.
-/

set_option autoImplicit false

namespace BitcoinSpend.Spend

namespace Flags

theorem has_iff {flags wanted : Flags} : flags.has wanted = true ↔
    ∀ position, wanted.bits.toBitVec.getLsbD position = true →
      flags.bits.toBitVec.getLsbD position = true := by
  simp only [has, beq_iff_eq, ← UInt32.toBitVec_inj, UInt32.toBitVec_and]
  constructor
  · intro same position member
    have shared := congrArg (fun bits => bits.getLsbD position) same
    simpa [member] using shared
  · intro included
    apply BitVec.eq_of_getLsbD_eq
    intro position inside
    have included := included position
    simp only [BitVec.getLsbD_and]
    cases member : wanted.bits.toBitVec.getLsbD position with
    | false => simp
    | true => simp [included member]

private theorem has_of_has_without {flags removed wanted : Flags}
    (remains : (flags.without removed).has wanted = true) : flags.has wanted = true := by
  rw [has_iff] at remains ⊢
  intro position member
  have both := remains position member
  simp only [without, UInt32.toBitVec_and, BitVec.getLsbD_and, Bool.and_eq_true] at both
  exact both.1

private theorem has_union_mono {fewer flags added wanted : Flags}
    (included : ∀ wanted, fewer.has wanted = true → flags.has wanted = true)
    (remains : (fewer.union added).has wanted = true) : (flags.union added).has wanted = true := by
  have inside : flags.has fewer = true := included fewer (by simp [has])
  rw [has_iff] at remains inside ⊢
  intro position member
  have either := remains position member
  simp only [union, UInt32.toBitVec_or, BitVec.getLsbD_or, Bool.or_eq_true] at either ⊢
  exact either.imp (inside position) id

private theorem not_both_of_disjoint {left right : Flags} (disjoint : left.inter right = empty)
    {position : Nat} (member : left.bits.toBitVec.getLsbD position = true) :
    right.bits.toBitVec.getLsbD position = false := by
  have same := congrArg (fun flags => flags.bits.toBitVec.getLsbD position) disjoint
  simpa [inter, empty, member] using same

private theorem has_without_of_disjoint {removed wanted : Flags}
    (disjoint : wanted.inter removed = empty)
    (flags : Flags) : (flags.without removed).has wanted = flags.has wanted := by
  rw [Bool.eq_iff_iff, has_iff, has_iff]
  refine forall_congr' fun position => imp_congr_right fun member => ?_
  have absent := not_both_of_disjoint disjoint member
  have bound : position < 32 := BitVec.lt_of_getLsbD member
  simp only [without, UInt32.toBitVec_and, UInt32.toBitVec_not, BitVec.getLsbD_and,
    BitVec.getLsbD_not, absent, bound]
  simp

theorem has_union_of_disjoint {added wanted : Flags} (disjoint : wanted.inter added = empty)
    (flags : Flags) : (flags.union added).has wanted = flags.has wanted := by
  rw [Bool.eq_iff_iff, has_iff, has_iff]
  refine forall_congr' fun position => imp_congr_right fun member => ?_
  have absent := not_both_of_disjoint disjoint member
  simp [union, absent]

private theorem disjoint_of_has {larger removed wanted : Flags}
    (included : larger.has removed = true)
    (disjoint : wanted.inter larger = empty) : wanted.inter removed = empty := by
  rw [has_iff] at included
  simp only [inter, empty, Flags.mk.injEq, ← UInt32.toBitVec_inj] at disjoint ⊢
  apply BitVec.eq_of_getLsbD_eq
  intro position inside
  have apart := congrArg (fun bits => bits.getLsbD position) disjoint
  have included := included position
  simp only [UInt32.toBitVec_and, BitVec.getLsbD_and, UInt32.toBitVec_zero,
    BitVec.getLsbD_zero] at apart ⊢
  cases member : removed.bits.toBitVec.getLsbD position with
  | false => simp
  | true => simpa [included member] using apart

/-- The flags that only refuse. Without its flag a lock time check is a nop kept for upgrades, so
the two flags of these checks belong here only where such nops are not discouraged. -/
def restrictive (remaining : Flags) : Flags :=
  let always := [cleanStack, lowS, derSignatures, strictEncoding, nullFail, minimalData, minimalIf,
    signaturePushOnly, strictMultiSig, discourageUpgradableNops].foldl union empty
  if remaining.has discourageUpgradableNops then always
  else (always.union checkLockTime).union checkSequence

/-- What the second set of flags must share with the first to refuse nothing more. -/
structure Relaxes (strict lax : Flags) : Prop where
  fewer : ∀ flag, lax.has flag = true → strict.has flag = true
  forkId : lax.has enableForkId = strict.has enableForkId
  genesis : lax.has afterGenesis = strict.has afterGenesis
  lockTimes : lax.has discourageUpgradableNops = false ∨
    (lax.has checkLockTime = strict.has checkLockTime ∧
      lax.has checkSequence = strict.has checkSequence)

theorem relaxes_without {flags removed : Flags}
    (allowed : (restrictive (flags.without removed)).has removed = true) :
    flags.Relaxes (flags.without removed) where
  fewer _ remains := has_of_has_without remains
  forkId := by
    refine has_without_of_disjoint (disjoint_of_has allowed ?_) flags
    simp only [restrictive]
    split <;> decide
  genesis := by
    refine has_without_of_disjoint (disjoint_of_has allowed ?_) flags
    simp only [restrictive]
    split <;> decide
  lockTimes := by
    cases discouraged : (flags.without removed).has discourageUpgradableNops with
    | false => exact Or.inl rfl
    | true =>
        simp only [restrictive, discouraged, if_true] at allowed
        exact Or.inr ⟨has_without_of_disjoint (disjoint_of_has allowed (by decide)) flags,
          has_without_of_disjoint (disjoint_of_has allowed (by decide)) flags⟩

theorem Relaxes.union_strictEncoding {strict lax : Flags} (relaxes : strict.Relaxes lax) :
    (strict.union strictEncoding).Relaxes (lax.union strictEncoding) where
  fewer _ remains := has_union_mono relaxes.fewer remains
  forkId := by
    simpa only [has_union_of_disjoint (by decide : enableForkId.inter strictEncoding = empty)]
      using relaxes.forkId
  genesis := by
    simpa only [has_union_of_disjoint (by decide : afterGenesis.inter strictEncoding = empty)]
      using relaxes.genesis
  lockTimes := by
    simpa only [
      has_union_of_disjoint (by decide : discourageUpgradableNops.inter strictEncoding = empty),
      has_union_of_disjoint (by decide : checkLockTime.inter strictEncoding = empty),
      has_union_of_disjoint (by decide : checkSequence.inter strictEncoding = empty)]
      using relaxes.lockTimes

end Flags

/-- The rules of the second setup refuse nothing that those of the first allow. -/
structure Setup.Relaxes (strict lax : Setup) : Prop where
  unlocking : lax.unlocking = strict.unlocking
  locking : lax.locking = strict.locking
  context : lax.context = strict.context
  inputIndex : lax.inputIndex = strict.inputIndex
  flags : strict.flags.Relaxes lax.flags
  memoryLimit : strict.memoryLimit ≤ lax.memoryLimit

namespace Setup.Relaxes

variable {strict lax : Setup}

theorem afterGenesis (relaxes : strict.Relaxes lax) : lax.afterGenesis = strict.afterGenesis :=
  relaxes.flags.genesis

theorem limits (relaxes : strict.Relaxes lax) : lax.limits = strict.limits := by
  simp only [Setup.limits, Limits.ofFlags, relaxes.flags.genesis]

theorem script (relaxes : strict.Relaxes lax) (phase : Phase) :
    lax.script phase = strict.script phase := by
  cases phase with
  | unlocking => exact relaxes.unlocking
  | locking => exact relaxes.locking

theorem refuses_less (relaxes : strict.Relaxes lax) {flag : Flags} {condition : Bool}
    (refused : (lax.flags.has flag && condition) = true) :
    (strict.flags.has flag && condition) = true := by
  simp only [Bool.and_eq_true] at refused ⊢
  exact ⟨relaxes.flags.fewer flag refused.1, refused.2⟩

end Setup.Relaxes

/-- The second stack holds the same, under a rule that reads no fewer numbers and the same ones as
the first. -/
structure Stack.Relaxes (strict lax : Stack) : Prop where
  items : lax.items = strict.items
  held : lax.held = strict.held
  maxLength : lax.rule.maxLength = strict.rule.maxLength
  requireMinimal : lax.rule.requireMinimal = true → strict.rule.requireMinimal = true

/-- The second state is the first but for the rules of its stacks. -/
structure State.Relaxes (strict lax : State) : Prop where
  stack : strict.stack.Relaxes lax.stack
  alt : strict.alt.Relaxes lax.alt
  branches : lax.branches = strict.branches
  switched : lax.switched = strict.switched
  separator : lax.separator = strict.separator
  opCount : lax.opCount = strict.opCount
  returned : lax.returned = strict.returned
  queries : lax.queries = strict.queries

theorem Stack.Relaxes.depth {strict lax : Stack} (relaxes : strict.Relaxes lax) :
    lax.depth = strict.depth :=
  congrArg List.length relaxes.items

theorem State.Relaxes.isExecuting {strict lax : State} {rules rules' : Setup}
    (relaxes : strict.Relaxes lax) (setups : rules.Relaxes rules') :
    lax.isExecuting rules' = strict.isExecuting rules := by
  simp only [State.isExecuting, State.branchesTaken, relaxes.branches, relaxes.returned,
    setups.afterGenesis]

theorem State.relaxes_initial {strict lax : Setup} (relaxes : strict.Relaxes lax) :
    (State.initial strict.numberRule).Relaxes (State.initial lax.numberRule) := by
  have empties : (Stack.empty strict.numberRule).Relaxes (Stack.empty lax.numberRule) :=
    ⟨rfl, rfl, congrArg Limits.maxNumberLength relaxes.limits, relaxes.flags.fewer _⟩
  exact ⟨empties, empties, rfl, rfl, rfl, rfl, rfl, rfl⟩

end BitcoinSpend.Spend
