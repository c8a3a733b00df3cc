import BitcoinSpend.Fee.Change
import BitcoinSpend.Proofs.Transaction.SizeEstimates

/-!
# Funding a fee

What the inputs bring in beyond the fixed outputs stops at zero. A fee that is not zero
is refused exactly if the inputs are less than the sum of the fixed outputs and the fee
without bound. A fee of zero is never refused, also where the fixed outputs alone are
more than the inputs.
-/

set_option autoImplicit false

namespace BitcoinSpend

open Amount (exactTotal)

namespace Amount

variable {left right : UInt64}

private theorem toNat_subSaturating (left right : UInt64) :
    (subSaturating left right).toNat = left.toNat - right.toNat := by
  simp only [subSaturating, UInt64.le_iff_toNat_le]
  split
  · next covers => exact UInt64.toNat_sub_of_le _ _ (UInt64.le_iff_toNat_le.mpr covers)
  · next exceeds =>
      rw [UInt64.toNat_zero]
      omega

/-- A total that stops at the largest amount leaves as little as the whole total. -/
private theorem toNat_subSaturating_saturate (amount : UInt64) (total : Nat) :
    (subSaturating amount (saturate total)).toNat = amount.toNat - total := by
  have bound : amount.toNat < UInt64.size := amount.toNat_lt
  have largest := toNat_largest
  rw [toNat_subSaturating, toNat_saturate]
  split <;> omega

theorem sub?_eq_none_iff : sub? left right = none ↔ left.toNat < right.toNat := by
  simp only [sub?, UInt64.le_iff_toNat_le]
  split
  · next covers => simp only [reduceCtorEq, false_iff, Nat.not_lt, covers]
  · next exceeds => simp only [Nat.lt_of_not_le exceeds]

end Amount

namespace Fee

variable {rate fee : UInt64} {tx : Transaction}

/-- With the same inputs there is a fee again, for the size that the other outputs make. -/
theorem atRate_of_inputs {other : Transaction} (asked : atRate rate tx = .ok fee)
    (same : other.inputs = tx.inputs) : ∃ lengths, fee = forSize (tx.sizeWith lengths) rate ∧
      atRate rate other = .ok (forSize (other.sizeWith lengths) rate) := by
  obtain ⟨size, estimated, rfl⟩ := atRate_eq_ok_iff.mp asked
  obtain ⟨lengths, counts, rfl⟩ := Transaction.estimatedSize_eq_ok_iff.mp estimated
  rw [← same] at counts
  exact ⟨lengths, rfl, atRate_eq_ok_iff.mpr
    ⟨_, Transaction.estimatedSize_eq_ok_iff.mpr ⟨lengths, counts, rfl⟩, rfl⟩⟩

theorem atRate_eq_zero_iff (asked : atRate rate tx = .ok fee) : fee = 0 ↔ rate = 0 := by
  obtain ⟨size, estimated, rfl⟩ := atRate_eq_ok_iff.mp asked
  obtain ⟨lengths, -, sized⟩ := Transaction.estimatedSize_eq_ok_iff.mp estimated
  have positive : 0 < size := by
    rw [sized, Transaction.sizeWith]
    exact Nat.zero_lt_succ _
  rw [← UInt64.toNat_inj, ← UInt64.toNat_inj, toNat_forSize, UInt64.toNat_zero]
  have zero : size * rate.toNat = 0 ↔ rate.toNat = 0 := by
    rw [Nat.mul_eq_zero]
    omega
  have largest := Amount.toNat_largest
  have bound : 1 < UInt64.size := by decide
  omega

end Fee

namespace Transaction

variable {tx : Transaction} {fee inputs : UInt64}

/-- The sum of the fixed outputs without bound. -/
def fixedTotal (tx : Transaction) : Nat :=
  exactTotal (outputValues tx.fixedOutputs)

/-- What some inputs bring in beyond the fixed outputs. -/
def available (tx : Transaction) (inputs : UInt64) : UInt64 :=
  Amount.subSaturating inputs (totalValue tx.fixedOutputs)

/-- The transaction with an amount of change shared out. -/
def withShares (tx : Transaction) (change : UInt64) : Transaction :=
  { tx with
    outputs := shareChange (change / tx.changeCount) (change % tx.changeCount) tx.outputs }

/-- The transaction with its change outputs removed. -/
def withoutChange (tx : Transaction) : Transaction :=
  { tx with outputs := tx.fixedOutputs }

/-- The transaction with an amount of change settled. -/
def settledWith (tx : Transaction) (change : UInt64) : Settled :=
  if tx.changeCount = 0 then .kept tx
  else if change < tx.changeCount then .dropped tx.withoutChange
  else .kept (tx.withShares change)

/-- Pays the fee of a fixed rate. -/
def payAtRate (tx : Transaction) (rate : UInt64) : Except TransactionError UInt64 × Transaction :=
  Id.run (tx.payFee (Fee.fixed rate))

theorem toNat_available (tx : Transaction) (inputs : UInt64) :
    (tx.available inputs).toNat = inputs.toNat - tx.fixedTotal := by
  rw [available, totalValue_eq, Amount.toNat_subSaturating_saturate, fixedTotal]

theorem settle_eq (found : tx.totalInput = .ok inputs) : tx.settle fee =
    match Amount.sub? (tx.available inputs) fee with
    | none => .error (.insufficientFee (tx.available inputs) fee)
    | some change => .ok (tx.settledWith change) := by
  simp only [settle, found, bind, Except.bind, available, settledWith]
  cases Amount.sub? (Amount.subSaturating inputs (totalValue tx.fixedOutputs)) fee with
  | none => rfl
  | some change =>
      dsimp only
      split
      · rfl
      · split <;> rfl

theorem settle_of_unknown {cause : TransactionError} (unknown : tx.totalInput = .error cause) :
    tx.settle fee = .error cause := by
  simp only [settle, unknown, bind, Except.bind]

theorem payAtRate_eq (tx : Transaction) (rate : UInt64) : tx.payAtRate rate =
    match Fee.atRate rate tx with
    | .error cause => (.error cause, tx)
    | .ok fee =>
        match tx.settle fee with
        | .error cause => (.error cause, tx)
        | .ok (.kept next) => (.ok fee, next)
        | .ok (.dropped next) => (Fee.atRate rate next, next) := by
  unfold payAtRate payFee
  simp only [Fee.fixed, pure_bind]
  cases Fee.atRate rate tx with
  | error cause => rfl
  | ok fee =>
      dsimp only
      cases tx.settle fee with
      | error cause => rfl
      | ok settled => cases settled <;> rfl

private theorem eq_of_settledWith_dropped {change : UInt64} {left : Transaction}
    (dropped : tx.settledWith change = .dropped left) : left = tx.withoutChange := by
  simp only [settledWith] at dropped
  split at dropped
  · cases dropped
  · split at dropped
    · cases dropped
      rfl
    · cases dropped

theorem payAtRate_of_change {rate change : UInt64} (asked : Fee.atRate rate tx = .ok fee)
    (found : tx.totalInput = .ok inputs)
    (covered : Amount.sub? (tx.available inputs) fee = some change) : tx.payAtRate rate =
      match tx.settledWith change with
      | .kept next => (.ok fee, next)
      | .dropped next => (Fee.atRate rate next, next) := by
  have settled : tx.settle fee = .ok (tx.settledWith change) := by rw [settle_eq found, covered]
  rw [payAtRate_eq, asked]
  dsimp only
  rw [settled]
  cases tx.settledWith change <;> rfl

private theorem exists_payAtRate_of_change {rate change : UInt64}
    (asked : Fee.atRate rate tx = .ok fee) (found : tx.totalInput = .ok inputs)
    (covered : Amount.sub? (tx.available inputs) fee = some change) :
    ∃ paid left, tx.payAtRate rate = (.ok paid, left) := by
  rw [payAtRate_of_change asked found covered]
  cases result : tx.settledWith change with
  | kept next => exact ⟨fee, next, rfl⟩
  | dropped next =>
      have same : next.inputs = tx.inputs := by rw [eq_of_settledWith_dropped result, withoutChange]
      obtain ⟨lengths, -, again⟩ := Fee.atRate_of_inputs asked same
      exact ⟨_, next, congrArg (·, next) again⟩

/-- A fee that is not known, or inputs that have no total, are the error. Otherwise a fee is refused
exactly if the rate is not zero and the inputs are less than the fixed outputs and the fee. What is
refused is left as it is. -/
theorem payAtRate_refuses_iff (tx : Transaction) (rate : UInt64) :
    match Fee.atRate rate tx, tx.totalInput with
    | .error cause, _ => tx.payAtRate rate = (.error cause, tx)
    | .ok _, .error cause => tx.payAtRate rate = (.error cause, tx)
    | .ok fee, .ok inputs =>
        if rate ≠ 0 ∧ inputs.toNat < tx.fixedTotal + fee.toNat then
          ∃ paid : UInt64, paid.toNat = inputs.toNat - tx.fixedTotal ∧
            tx.payAtRate rate = (.error (.insufficientFee paid fee), tx)
        else ∃ paid left, tx.payAtRate rate = (.ok paid, left) := by
  cases asked : Fee.atRate rate tx with
  | error cause => simp only [payAtRate_eq, asked]
  | ok fee =>
      cases found : tx.totalInput with
      | error cause => simp only [payAtRate_eq, asked, settle_of_unknown found]
      | ok inputs =>
          have zero := Fee.atRate_eq_zero_iff asked
          rw [← UInt64.toNat_inj, UInt64.toNat_zero] at zero
          have available := tx.toNat_available inputs
          dsimp only
          cases covered : Amount.sub? (tx.available inputs) fee with
          | none =>
              have short := Amount.sub?_eq_none_iff.mp covered
              have refuses : rate ≠ 0 ∧ inputs.toNat < tx.fixedTotal + fee.toNat :=
                ⟨fun free => by have := zero.mpr free; omega, by omega⟩
              rw [if_pos refuses]
              refine ⟨_, available, ?_⟩
              rw [payAtRate_eq, asked]
              dsimp only
              rw [settle_eq found, covered]
          | some change =>
              have enough := Amount.sub?_eq_some_iff.mp covered
              have accepts : ¬(rate ≠ 0 ∧ inputs.toNat < tx.fixedTotal + fee.toNat) := by
                rintro ⟨charged, short⟩
                exact charged (zero.mp (by omega))
              rw [if_neg accepts]
              exact exists_payAtRate_of_change asked found covered

/-- An input of five satoshis for an output of ten. -/
def underfunded : Transaction :=
  ⟨1, [{ (Input.ofOutpoint ⟨Hash32.zero, 0⟩).withSource ⟨5, ⟨[0x51]⟩⟩ with
      unlocking := some ⟨[0x51]⟩ }], [⟨10, ⟨[0x51]⟩, false⟩], 0, none⟩

/-- Without a fee the fixed outputs may be more than the inputs. -/
theorem payAtRate_accepts_underfunded : ¬ ∀ (tx : Transaction) (rate fee inputs : UInt64),
    Fee.atRate rate tx = .ok fee → tx.totalInput = .ok inputs →
      ((∃ paid required, (tx.payAtRate rate).1 = .error (.insufficientFee paid required)) ↔
        inputs.toNat < tx.fixedTotal + fee.toNat) := by
  intro refuses
  have asked : Fee.atRate 0 underfunded = .ok 0 := by rfl
  have found : underfunded.totalInput = .ok 5 := by rfl
  obtain ⟨paid, required, refused⟩ := (refuses underfunded 0 0 5 asked found).mpr (by decide)
  have accepted : (underfunded.payAtRate 0).1 = .ok 0 := by rfl
  rw [accepted] at refused
  cases refused

end Transaction

end BitcoinSpend
