import BitcoinSpend.Proofs.Transaction.ExtendedRoundTrip

/-!
# Fees against exact sums

The totals of a transaction compared with the sums of the same amounts as numbers
without bound. A total of inputs is exact or refused; a total of outputs stops at the
largest amount, and a fee is found for outputs beyond it where the inputs bring in
exactly that amount.
-/

set_option autoImplicit false

namespace BitcoinSpend

namespace Amount

/-- The sum of amounts as a number without bound. -/
def exactTotal : List UInt64 → Nat
  | [] => 0
  | amount :: rest => amount.toNat + exactTotal rest

theorem toNat_saturate (value : Nat) :
    (saturate value).toNat = if value < UInt64.size then value else largest.toNat := by
  simp only [saturate]
  split
  · next fits => exact UInt64.toNat_ofNat_of_lt' fits
  · rfl

theorem toNat_largest : largest.toNat + 1 = UInt64.size := rfl

private theorem saturate_toNat (amount : UInt64) : saturate amount.toNat = amount := by
  rw [← UInt64.toNat_inj, toNat_saturate, if_pos amount.toNat_lt]

/-- A sum that stops early stops where the whole sum does. -/
private theorem saturate_addSaturating (left right : UInt64) (rest : Nat) :
    saturate ((addSaturating left right).toNat + rest) =
      saturate (left.toNat + (right.toNat + rest)) := by
  have largest := toNat_largest
  rw [← UInt64.toNat_inj, addSaturating]
  simp only [toNat_saturate]
  by_cases fits : left.toNat + right.toNat < UInt64.size
  · rw [if_pos fits, Nat.add_assoc]
  · have exceeds : ¬ left.toNat + (right.toNat + rest) < UInt64.size := by omega
    rw [if_neg fits, if_neg exceeds]
    split
    · omega
    · rfl

theorem add?_eq_some_iff {left right sum : UInt64} :
    add? left right = some sum ↔ sum.toNat = left.toNat + right.toNat := by
  have bound : sum.toNat < UInt64.size := sum.toNat_lt
  simp only [add?]
  split
  · next fits =>
      have summed : (left + right).toNat = left.toNat + right.toNat := by
        rw [UInt64.toNat_add, Nat.mod_eq_of_lt fits]
      rw [Option.some_inj, ← UInt64.toNat_inj, summed, eq_comm]
  · next exceeds =>
      simp only [reduceCtorEq, false_iff]
      omega

theorem sub?_eq_some_iff {left right rest : UInt64} :
    sub? left right = some rest ↔ left.toNat = right.toNat + rest.toNat := by
  simp only [sub?, UInt64.le_iff_toNat_le]
  split
  · next covers =>
      have summed : (left - right).toNat = left.toNat - right.toNat :=
        UInt64.toNat_sub_of_le _ _ covers
      rw [Option.some_inj, ← UInt64.toNat_inj, summed]
      omega
  · next exceeds =>
      simp only [reduceCtorEq, false_iff]
      omega

end Amount

open Amount (exactTotal)

def outputValues (outputs : List Output) : List UInt64 :=
  outputs.map Output.value

/-- The values that inputs bring in, one for each input. -/
def inputValues (pairs : List (Input × SpentOutput)) : List UInt64 :=
  pairs.map fun pair => pair.2.value

theorem totalValue_eq (outputs : List Output) :
    totalValue outputs = Amount.saturate (exactTotal (outputValues outputs)) := by
  have folded : ∀ (outputs : List Output) (start : UInt64),
      outputs.foldl (fun total output => Amount.addSaturating total output.value) start =
        Amount.saturate (start.toNat + exactTotal (outputValues outputs)) := by
    intro outputs
    induction outputs with
    | nil =>
        intro start
        exact (Amount.saturate_toNat start).symm
    | cons output rest ih =>
        intro start
        rw [List.foldl_cons, ih, Amount.saturate_addSaturating]
        rfl
  rw [totalValue, folded, UInt64.toNat_zero, Nat.zero_add]

namespace Transaction

variable {tx : Transaction} {pairs : List (Input × SpentOutput)}

theorem addResolved_eq_ok_iff {total sum : UInt64} {spent : SpentOutput} :
    addResolved total spent = .ok sum ↔ sum.toNat = total.toNat + spent.value.toNat := by
  rw [← Amount.add?_eq_some_iff, addResolved]
  split
  · next found => simp [found, pure, Except.pure]
  · next refused => simp [refused, throw, throwThe, MonadExceptOf.throw]

theorem Resolved.totalInput_eq_ok_iff (resolved : tx.Resolved pairs) {total : UInt64} :
    tx.totalInput = .ok total ↔ total.toNat = exactTotal (inputValues pairs) := by
  have folded : ∀ (pairs : List (Input × SpentOutput)) (start : UInt64),
      (pairs.map Prod.snd).foldlM addResolved start = .ok total ↔
        total.toNat = start.toNat + exactTotal (inputValues pairs) := by
    intro pairs
    induction pairs with
    | nil =>
        intro start
        simp only [List.map_nil, List.foldlM_nil, inputValues, exactTotal, Nat.add_zero,
          UInt64.toNat_inj, pure, Except.pure, Except.ok.injEq]
        exact eq_comm
    | cons pair rest ih =>
        intro start
        simp only [List.map_cons, List.foldlM_cons, bind_eq_ok_iff, ih, addResolved_eq_ok_iff,
          inputValues, exactTotal]
        constructor
        · rintro ⟨sum, here, later⟩
          omega
        · intro summed
          have bound : total.toNat < UInt64.size := total.toNat_lt
          have fits : start.toNat + pair.2.value.toNat < UInt64.size := by omega
          refine ⟨UInt64.ofNat (start.toNat + pair.2.value.toNat), ?_, ?_⟩
          · exact UInt64.toNat_ofNat_of_lt' fits
          · rw [UInt64.toNat_ofNat_of_lt' fits]
            omega
  rw [resolved.totalInput, folded, UInt64.toNat_zero, Nat.zero_add]

theorem paidFee_eq_ok_iff {fee : UInt64} : tx.paidFee = .ok fee ↔ ∃ inputs,
    tx.totalInput = .ok inputs ∧ inputs.toNat = tx.totalOutput.toNat + fee.toNat := by
  rw [paidFee, bind_eq_ok_iff]
  refine exists_congr fun inputs => and_congr_right fun _ => ?_
  rw [← Amount.sub?_eq_some_iff]
  dsimp only
  split
  · next found => simp [found, pure, Except.pure]
  · next refused => simp [refused, throw, throwThe, MonadExceptOf.throw]

/-- The inputs pay for the outputs as far as their total goes. -/
theorem Resolved.paidFee_eq_ok_iff (resolved : tx.Resolved pairs) {fee : UInt64} :
    tx.paidFee = .ok fee ↔ exactTotal (inputValues pairs) < UInt64.size ∧
      exactTotal (inputValues pairs) =
        (Amount.saturate (exactTotal (outputValues tx.outputs))).toNat + fee.toNat := by
  simp only [Transaction.paidFee_eq_ok_iff, resolved.totalInput_eq_ok_iff, totalOutput,
    totalValue_eq]
  constructor
  · rintro ⟨inputs, summed, paid⟩
    have bound : inputs.toNat < UInt64.size := inputs.toNat_lt
    omega
  · rintro ⟨fits, paid⟩
    refine ⟨UInt64.ofNat (exactTotal (inputValues pairs)), UInt64.toNat_ofNat_of_lt' fits, ?_⟩
    rw [UInt64.toNat_ofNat_of_lt' fits, paid]

/-- The inputs bring in exactly the largest amount and the outputs make more than that. -/
def Overdrawn (tx : Transaction) (pairs : List (Input × SpentOutput)) : Prop :=
  exactTotal (inputValues pairs) = Amount.largest.toNat ∧
    Amount.largest.toNat < exactTotal (outputValues tx.outputs)

theorem Resolved.outputs_le_of_paidFee (resolved : tx.Resolved pairs) {fee : UInt64}
    (paid : tx.paidFee = .ok fee) (covered : ¬ tx.Overdrawn pairs) :
    exactTotal (outputValues tx.outputs) ≤ exactTotal (inputValues pairs) := by
  have largest := Amount.toNat_largest
  obtain ⟨fits, balance⟩ := resolved.paidFee_eq_ok_iff.mp paid
  rw [Amount.toNat_saturate] at balance
  rw [Overdrawn] at covered
  split at balance
  · next known => omega
  · next exceeds => omega

theorem paidFee_exact_or_overdrawn (resolved : tx.Resolved pairs) (fee : UInt64) :
    tx.paidFee = .ok fee ↔ exactTotal (inputValues pairs) < UInt64.size ∧
      (exactTotal (inputValues pairs) = exactTotal (outputValues tx.outputs) + fee.toNat ∨
        (tx.Overdrawn pairs ∧ fee = 0)) := by
  have largest := Amount.toNat_largest
  rw [resolved.paidFee_eq_ok_iff, Overdrawn, Amount.toNat_saturate, ← UInt64.toNat_inj,
    UInt64.toNat_zero]
  split
  · next fits => omega
  · next exceeds => omega

/-- One input that brings in the largest amount, and outputs that make that amount and one more. -/
def overdrawing : Transaction :=
  ⟨1, [(Input.ofOutpoint ⟨Hash32.zero, 0⟩).withSource ⟨Amount.largest, ⟨[0x51]⟩⟩],
    [⟨Amount.largest, ⟨[0x51]⟩, false⟩, ⟨1, ⟨[0x51]⟩, false⟩], 0, none⟩

/-- What the input of `overdrawing` resolves to. -/
def overdrawingSources : List (Input × SpentOutput) :=
  overdrawing.inputs.zip [⟨Amount.largest, ⟨[0x51]⟩⟩]

private theorem resolved_overdrawing : overdrawing.Resolved overdrawingSources := by
  refine ⟨rfl, ?_⟩
  intro index pair found
  rcases index with _ | index
  · cases found
    rfl
  · cases found

theorem overdrawing_paidFee : overdrawing.Resolved overdrawingSources ∧
    overdrawing.Overdrawn overdrawingSources ∧ overdrawing.paidFee = .ok 0 := by
  have overdrawn : overdrawing.Overdrawn overdrawingSources :=
    ⟨by decide, by decide⟩
  have fits : exactTotal (inputValues overdrawingSources) < UInt64.size := by decide
  refine ⟨resolved_overdrawing, overdrawn, ?_⟩
  exact (paidFee_exact_or_overdrawn resolved_overdrawing 0).mpr ⟨fits, .inr ⟨overdrawn, rfl⟩⟩

/-- A fee is found that is not what the inputs bring in beyond the outputs. -/
theorem paidFee_not_exact : ¬ ∀ (tx : Transaction) (pairs : List (Input × SpentOutput)),
    tx.Resolved pairs → ∀ fee : UInt64, tx.paidFee = .ok fee ↔
      exactTotal (inputValues pairs) < UInt64.size ∧
        exactTotal (inputValues pairs) = exactTotal (outputValues tx.outputs) + fee.toNat := by
  intro isExact
  have paid : overdrawing.paidFee = .ok 0 :=
    resolved_overdrawing.paidFee_eq_ok_iff.mpr (by decide)
  have balance := ((isExact overdrawing overdrawingSources resolved_overdrawing 0).mp paid).2
  exact absurd balance (by decide)

end Transaction

end BitcoinSpend
