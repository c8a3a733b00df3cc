import Mathlib.Algebra.Order.BigOperators.Group.List
import Mathlib.Algebra.Order.Group.Nat
import BitcoinSpend.Proofs.Fee.Funding

/-!
# Shares of the change

Where a fee is paid, the change outputs get what the inputs bring in beyond the fixed
outputs and the fee, to the last satoshi, or are removed. The size of an output does not
depend on its value, so the sharing leaves the fee as it is. A removal does not raise the
fee, and what is left over is then paid on top of it.
-/

set_option autoImplicit false

namespace BitcoinSpend

open Amount (exactTotal)

/-! ## Sharing among outputs -/

/-- The output less the value that it gets as its share of the change. -/
def Output.exceptShare (output : Output) : Output :=
  if output.change then { output with value := 0 } else output

private theorem Output.size_exceptShare (output : Output) :
    output.exceptShare.size = output.size := by
  cases marked : output.change <;> simp [exceptShare, marked, size]

/-- A number of equal shares, the first of them with an extra. -/
def shareValues (share extra : UInt64) : Nat → List UInt64
  | 0 => []
  | others + 1 => (share + extra) :: List.replicate others share

private theorem shareValues_zero (share : UInt64) (count : Nat) :
    shareValues share 0 count = List.replicate count share := by
  cases count with
  | zero => rfl
  | succ others => simp only [shareValues, UInt64.add_zero, List.replicate_succ]

private theorem exactTotal_eq_sum (amounts : List UInt64) :
    exactTotal amounts = (amounts.map UInt64.toNat).sum := by
  induction amounts with
  | nil => rfl
  | cons amount rest ih => rw [exactTotal, ih, List.map_cons, List.sum_cons]

section shareChange

variable (share extra : UInt64) (outputs : List Output)

private theorem map_exceptShare_shareChange :
    (shareChange share extra outputs).map Output.exceptShare = outputs.map Output.exceptShare := by
  induction outputs generalizing extra with
  | nil => rfl
  | cons output rest ih =>
      cases marked : output.change <;> simp [shareChange, Output.exceptShare, marked, ih]

private theorem filter_fixed_shareChange :
    (shareChange share extra outputs).filter (!·.change) = outputs.filter (!·.change) := by
  induction outputs generalizing extra with
  | nil => rfl
  | cons output rest ih => cases marked : output.change <;> simp [shareChange, marked, ih]

/-- The extra goes to the first change output, wherever it stands. -/
private theorem outputValues_shareChange :
    outputValues ((shareChange share extra outputs).filter Output.change) =
      shareValues share extra (outputs.filter Output.change).length := by
  induction outputs generalizing extra with
  | nil => rfl
  | cons output rest ih =>
      cases marked : output.change with
      | false => simpa [shareChange, marked] using ih extra
      | true =>
          have others := ih 0
          rw [shareValues_zero] at others
          simpa [shareChange, marked, shareValues, outputValues] using others

end shareChange

private theorem exactTotal_outputValues_filter (outputs : List Output) :
    exactTotal (outputValues outputs) = exactTotal (outputValues (outputs.filter (!·.change))) +
      exactTotal (outputValues (outputs.filter Output.change)) := by
  induction outputs with
  | nil => rfl
  | cons output rest ih =>
      cases marked : output.change with
      | false | true =>
          simp only [outputValues, List.filter_cons, marked, Bool.not_false, Bool.not_true,
            Bool.false_eq_true, if_true, if_false, List.map_cons, exactTotal] at ih ⊢
          omega

/-! ## Fees for other outputs -/

namespace Transaction

variable {tx other : Transaction}

private theorem sizeWith_eq_of_exceptShare (same : other.inputs = tx.inputs)
    (shared : other.outputs.map Output.exceptShare = tx.outputs.map Output.exceptShare)
    (lengths : List Nat) : other.sizeWith lengths = tx.sizeWith lengths := by
  have count := congrArg List.length shared
  have sizes := congrArg (List.map Output.size) shared
  simp only [List.length_map] at count
  simp only [List.map_map, Function.comp_def, Output.size_exceptShare] at sizes
  simp only [sizeWith, same, count, sizes]

private theorem sizeWith_le_of_sublist (counted : tx.outputs.length < UInt64.size)
    (same : other.inputs = tx.inputs) (fewer : other.outputs.Sublist tx.outputs)
    (lengths : List Nat) : other.sizeWith lengths ≤ tx.sizeWith lengths := by
  have shorter := fewer.length_le
  have counts : Wire.varIntLength (UInt64.ofNat other.outputs.length) ≤
      Wire.varIntLength (UInt64.ofNat tx.outputs.length) := by
    refine Wire.varIntLength_mono (UInt64.le_iff_toNat_le.mpr ?_)
    rw [UInt64.toNat_ofNat_of_lt' counted,
      UInt64.toNat_ofNat_of_lt' (Nat.lt_of_le_of_lt shorter counted)]
    exact shorter
  have sizes : (other.outputs.map fun output => output.size).sum ≤
      (tx.outputs.map fun output => output.size).sum :=
    (fewer.map _).sum_le_sum fun _ _ => Nat.zero_le _
  simp only [sizeWith, same]
  omega

end Transaction

namespace Fee

variable {rate fee : UInt64} {tx other : Transaction}

private theorem atRate_eq_of_exceptShare (asked : atRate rate tx = .ok fee)
    (same : other.inputs = tx.inputs)
    (shared : other.outputs.map Output.exceptShare = tx.outputs.map Output.exceptShare) :
    atRate rate other = .ok fee := by
  obtain ⟨lengths, rfl, again⟩ := atRate_of_inputs asked same
  rw [again, Transaction.sizeWith_eq_of_exceptShare same shared]

private theorem atRate_le_of_sublist {fee' : UInt64} (counted : tx.outputs.length < UInt64.size)
    (asked : atRate rate tx = .ok fee) (asked' : atRate rate other = .ok fee')
    (same : other.inputs = tx.inputs) (fewer : other.outputs.Sublist tx.outputs) : fee' ≤ fee := by
  obtain ⟨lengths, rfl, again⟩ := atRate_of_inputs asked same
  cases asked'.symm.trans again
  exact forSize_mono (Transaction.sizeWith_le_of_sublist counted same fewer lengths) rate

end Fee

/-! ## What is left -/

namespace Transaction

variable {tx left : Transaction} {rate fee inputs before change : UInt64}

def exceptOutputs (tx : Transaction) : Transaction :=
  { tx with outputs := [] }

def changeOutputs (tx : Transaction) : List Output :=
  tx.outputs.filter Output.change

/-- The change outputs have got equal shares of at least one satoshi, and the first a remainder that
is less than their number. Nothing else is different. -/
structure SharesChange (tx left : Transaction) : Prop where
  outputs : left.outputs.map Output.exceptShare = tx.outputs.map Output.exceptShare
  values : ∃ share extra : Nat, 1 ≤ share ∧ extra < tx.changeOutputs.length ∧
    (outputValues left.changeOutputs).map UInt64.toNat =
      (share + extra) :: List.replicate (tx.changeOutputs.length - 1) share

private theorem toNat_changeCount (counted : tx.outputs.length < UInt64.size) :
    tx.changeCount.toNat = tx.changeOutputs.length :=
  UInt64.toNat_ofNat_of_lt' (Nat.lt_of_le_of_lt (List.length_filter_le _ _) counted)

private theorem exactTotal_outputs (tx : Transaction) : exactTotal (outputValues tx.outputs) =
    tx.fixedTotal + exactTotal (outputValues tx.changeOutputs) :=
  exactTotal_outputValues_filter tx.outputs

/-- A fee is known by what the outputs add up to. -/
private theorem paidFee_of_balance (found : left.totalInput = .ok inputs)
    (balance : inputs.toNat = exactTotal (outputValues left.outputs) + fee.toNat) :
    left.paidFee = .ok fee := by
  have bound : inputs.toNat < UInt64.size := inputs.toNat_lt
  refine paidFee_eq_ok_iff.mpr ⟨inputs, found, ?_⟩
  rw [totalOutput, totalValue_eq, Amount.toNat_saturate, if_pos (by omega)]
  exact balance

/-- A payment found a fee, and inputs with change beyond it, and settled the change. -/
private theorem settledWith_of_payAtRate (paid : tx.payAtRate rate = (.ok fee, left)) :
    ∃ inputs before change, tx.totalInput = .ok inputs ∧ Fee.atRate rate tx = .ok before ∧
      Amount.sub? (tx.available inputs) before = some change ∧
      (tx.settledWith change = .kept left ∧ fee = before ∨
        tx.settledWith change = .dropped left ∧ Fee.atRate rate left = .ok fee) := by
  cases asked : Fee.atRate rate tx with
  | error cause => simp [payAtRate_eq, asked] at paid
  | ok before =>
      cases found : tx.totalInput with
      | error cause => simp [payAtRate_eq, asked, settle_of_unknown found] at paid
      | ok inputs =>
          cases covered : Amount.sub? (tx.available inputs) before with
          | none => simp [payAtRate_eq, asked, settle_eq found, covered] at paid
          | some change =>
              refine ⟨inputs, before, change, rfl, rfl, covered, ?_⟩
              rw [payAtRate_of_change asked found covered] at paid
              cases result : tx.settledWith change with
              | kept next =>
                  simp only [result, Prod.mk.injEq, Except.ok.injEq] at paid
                  exact .inl ⟨by rw [paid.2], paid.1.symm⟩
              | dropped next =>
                  simp only [result, Prod.mk.injEq] at paid
                  obtain ⟨again, rfl⟩ := paid
                  exact .inr ⟨rfl, again⟩

/-- A fee that is not zero is covered to the last satoshi. -/
private theorem balance_of_change (charged : 0 < rate) (asked : Fee.atRate rate tx = .ok before)
    (covered : Amount.sub? (tx.available inputs) before = some change) :
    inputs.toNat = tx.fixedTotal + before.toNat + change.toNat := by
  have enough := Amount.sub?_eq_some_iff.mp covered
  have nonzero : before ≠ 0 := fun free =>
    absurd ((Fee.atRate_eq_zero_iff asked).mp free) (UInt64.ne_of_lt charged).symm
  have positive : before.toNat ≠ 0 := fun free => nonzero (UInt64.toNat_inj.mp free)
  rw [toNat_available] at enough
  omega

private theorem fixedOutputs_withoutChange (tx : Transaction) :
    tx.withoutChange.fixedOutputs = tx.fixedOutputs := by
  simp only [fixedOutputs, withoutChange, List.filter_filter, Bool.and_self]

private theorem fixedOutputs_withShares (tx : Transaction) (change : UInt64) :
    (tx.withShares change).fixedOutputs = tx.fixedOutputs :=
  filter_fixed_shareChange _ _ _

/-- Without the change outputs all that is left over is paid. -/
private theorem exists_paidFee_withoutChange (found : tx.totalInput = .ok inputs)
    (balance : inputs.toNat = tx.fixedTotal + before.toNat + change.toNat) :
    ∃ all, tx.withoutChange.paidFee = .ok all ∧ all.toNat = before.toNat + change.toNat := by
  have bound : inputs.toNat < UInt64.size := inputs.toNat_lt
  have all : (UInt64.ofNat (before.toNat + change.toNat)).toNat = before.toNat + change.toNat :=
    UInt64.toNat_ofNat_of_lt' (by omega)
  refine ⟨_, paidFee_of_balance found ?_, all⟩
  rw [all, balance, Nat.add_assoc]
  rfl

section counted

variable (counted : tx.outputs.length < UInt64.size)

include counted

/-- What becomes of the change, in terms of its exact amount and of how many share it. -/
theorem settledWith_eq (change : UInt64) : tx.settledWith change =
    if tx.changeOutputs = [] then .kept tx
    else if change.toNat < tx.changeOutputs.length then .dropped tx.withoutChange
    else .kept (tx.withShares change) := by
  have count := toNat_changeCount counted
  have none : tx.changeCount = 0 ↔ tx.changeOutputs = [] := by
    rw [← UInt64.toNat_inj, count, UInt64.toNat_zero, List.length_eq_zero_iff]
  have few : change < tx.changeCount ↔ change.toNat < tx.changeOutputs.length := by
    rw [UInt64.lt_iff_toNat_lt, count]
  simp only [settledWith, none, few]

private theorem outputValues_withShares (shared : tx.changeOutputs ≠ []) (change : UInt64) :
    (outputValues (tx.withShares change).changeOutputs).map UInt64.toNat =
      (change.toNat / tx.changeOutputs.length + change.toNat % tx.changeOutputs.length) ::
        List.replicate (tx.changeOutputs.length - 1)
          (change.toNat / tx.changeOutputs.length) := by
  have count := toNat_changeCount counted
  have values : outputValues (tx.withShares change).changeOutputs =
      shareValues (change / tx.changeCount) (change % tx.changeCount) tx.changeOutputs.length :=
    outputValues_shareChange _ _ _
  obtain ⟨others, size⟩ := Nat.exists_eq_add_one_of_ne_zero (mt List.length_eq_zero_iff.mp shared)
  have first : (change / tx.changeCount + change % tx.changeCount).toNat =
      change.toNat / tx.changeOutputs.length + change.toNat % tx.changeOutputs.length := by
    have bound := change.toNat_lt
    have parts := Nat.div_add_mod change.toNat tx.changeOutputs.length
    have least : change.toNat / tx.changeOutputs.length ≤
        tx.changeOutputs.length * (change.toNat / tx.changeOutputs.length) :=
      Nat.le_mul_of_pos_left _ (by omega)
    rw [UInt64.toNat_add, UInt64.toNat_div, UInt64.toNat_mod, count]
    exact Nat.mod_eq_of_lt (by omega)
  rw [values, size, shareValues, ← size, List.map_cons, List.map_replicate, first,
    UInt64.toNat_div, count, size, Nat.add_sub_cancel]

/-- The shares add up to the change. -/
private theorem exactTotal_withShares (shared : tx.changeOutputs ≠ []) (change : UInt64) :
    exactTotal (outputValues (tx.withShares change).changeOutputs) = change.toNat := by
  obtain ⟨others, size⟩ := Nat.exists_eq_add_one_of_ne_zero (mt List.length_eq_zero_iff.mp shared)
  rw [exactTotal_eq_sum, outputValues_withShares counted shared, List.sum_cons,
    List.sum_replicate_nat, size, Nat.add_sub_cancel]
  have parts := Nat.div_add_mod change.toNat (others + 1)
  rw [Nat.add_mul] at parts
  omega

private theorem sharesChange_withShares (shared : tx.changeOutputs ≠ [])
    (enough : tx.changeOutputs.length ≤ change.toNat) : tx.SharesChange (tx.withShares change) := by
  have positive : 0 < tx.changeOutputs.length := List.length_pos_iff.mpr shared
  exact {
    outputs := map_exceptShare_shareChange _ _ _
    values := ⟨_, _, Nat.div_pos enough positive, Nat.mod_lt _ positive,
      outputValues_withShares counted shared change⟩ }

private theorem paidFee_withShares (shared : tx.changeOutputs ≠ [])
    (found : tx.totalInput = .ok inputs)
    (balance : inputs.toNat = tx.fixedTotal + fee.toNat + change.toNat) :
    (tx.withShares change).paidFee = .ok fee := by
  refine paidFee_of_balance found ?_
  rw [exactTotal_outputs, exactTotal_withShares counted shared, fixedTotal,
    fixedOutputs_withShares, balance, fixedTotal]
  omega

end counted

/-- What the inputs bring in goes to the outputs and the fee. The change outputs share all that the
fixed outputs and the fee leave over. Where that is too little for each to get a satoshi they are
removed, and it is paid besides the fee. Lists of outputs are taken to be no longer than their
64-bit counts can tell. -/
theorem payAtRate_conserves (counted : tx.outputs.length < UInt64.size) (charged : 0 < rate)
    (paid : tx.payAtRate rate = (.ok fee, left)) :
    left.exceptOutputs = tx.exceptOutputs ∧ left.fixedOutputs = tx.fixedOutputs ∧
      Fee.atRate rate left = .ok fee ∧
      ∃ inputs before, tx.totalInput = .ok inputs ∧ Fee.atRate rate tx = .ok before ∧
        tx.fixedTotal + before.toNat ≤ inputs.toNat ∧
        if tx.changeOutputs = [] then left = tx
        else if inputs.toNat - (tx.fixedTotal + before.toNat) < tx.changeOutputs.length then
          left.outputs = tx.fixedOutputs ∧ ∃ all, left.paidFee = .ok all ∧ fee ≤ all
        else tx.SharesChange left ∧ left.paidFee = .ok fee := by
  obtain ⟨inputs, before, change, found, asked, covered, outcome⟩ := settledWith_of_payAtRate paid
  have balance := balance_of_change charged asked covered
  have leftover : inputs.toNat - (tx.fixedTotal + before.toNat) = change.toNat := by omega
  have funded : tx.fixedTotal + before.toNat ≤ inputs.toNat := by omega
  rw [settledWith_eq counted] at outcome
  by_cases none : tx.changeOutputs = []
  · rw [if_pos none] at outcome
    obtain ⟨⟨⟩, rfl⟩ | ⟨⟨⟩, -⟩ := outcome
    exact ⟨rfl, rfl, asked, inputs, fee, found, asked, funded, by rw [if_pos none]⟩
  · rw [if_neg none] at outcome
    by_cases few : change.toNat < tx.changeOutputs.length
    · rw [if_pos few] at outcome
      obtain ⟨⟨⟩, -⟩ | ⟨⟨⟩, again⟩ := outcome
      obtain ⟨all, paidAll, total⟩ := exists_paidFee_withoutChange found balance
      have less : fee ≤ before :=
        Fee.atRate_le_of_sublist counted asked again rfl List.filter_sublist
      refine ⟨rfl, tx.fixedOutputs_withoutChange, again, inputs, before, found, asked, funded, ?_⟩
      rw [if_neg none, leftover, if_pos few]
      refine ⟨rfl, all, paidAll, ?_⟩
      rw [UInt64.le_iff_toNat_le] at less ⊢
      omega
    · rw [if_neg few] at outcome
      obtain ⟨⟨⟩, rfl⟩ | ⟨⟨⟩, -⟩ := outcome
      have again : Fee.atRate rate (tx.withShares change) = .ok fee :=
        Fee.atRate_eq_of_exceptShare asked rfl (map_exceptShare_shareChange _ _ _)
      refine ⟨rfl, tx.fixedOutputs_withShares change, again, inputs, fee, found, asked, funded, ?_⟩
      rw [if_neg none, leftover, if_neg few]
      exact ⟨sharesChange_withShares counted none (Nat.le_of_not_lt few),
        paidFee_withShares counted none found balance⟩

/-- An input of 1001 satoshis for an output of a hundred, and two change outputs around it. -/
def sharing : Transaction :=
  ⟨1, [{ (Input.ofOutpoint ⟨Hash32.zero, 0⟩).withSource ⟨1001, ⟨[0x51]⟩⟩ with
      unlocking := some ⟨[0x51]⟩ }],
    [⟨0, ⟨[0x51]⟩, true⟩, ⟨100, ⟨[0x51]⟩, false⟩, ⟨0, ⟨[0x51]⟩, true⟩], 0, none⟩

theorem sharing_payAtRate : ∃ left, sharing.payAtRate 1000 = (.ok 82, left) ∧
    outputValues left.outputs = [410, 100, 409] ∧ sharing.SharesChange left ∧
      left.paidFee = .ok 82 := by
  have paid : (sharing.payAtRate 1000).1 = .ok 82 := by rfl
  refine ⟨(sharing.payAtRate 1000).2, Prod.ext paid rfl, by rfl, ?_⟩
  obtain ⟨-, -, -, inputs, before, found, asked, -, settled⟩ :=
    payAtRate_conserves (by decide) (by decide) (Prod.ext paid rfl)
  have inputs_eq : sharing.totalInput = .ok 1001 := by rfl
  have before_eq : Fee.atRate 1000 sharing = .ok 82 := by rfl
  cases inputs_eq.symm.trans found
  cases before_eq.symm.trans asked
  rwa [if_neg (by decide), if_neg (by decide)] at settled

end Transaction

end BitcoinSpend
