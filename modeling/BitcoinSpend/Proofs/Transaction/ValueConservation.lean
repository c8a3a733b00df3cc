import Mathlib.Data.List.Dedup
import BitcoinSpend.Proofs.Transaction.Ancestry
import BitcoinSpend.Proofs.Transaction.ExactTotals

/-!
# Verified transactions make no more than they take

The values are those that the inputs bring in, each input counted. Nothing compares
the outpoints of two inputs: an outpoint that several inputs name counts for each of
them, and the sum is that of the distinct outpoints where no two inputs share one.
-/

set_option autoImplicit false

namespace BitcoinSpend.Transaction

open Amount (exactTotal)
open Merkle (Tracker)

/-! ## Outpoints -/

/-- The outpoints that inputs name, one for each input. -/
def namedOutpoints (pairs : List (Input × SpentOutput)) : List Outpoint :=
  pairs.map fun pair => pair.1.outpoint

/-- The largest value that an outpoint has among what inputs bring in. -/
def largestValue (pairs : List (Input × SpentOutput)) (outpoint : Outpoint) : Nat :=
  (pairs.filter fun pair => pair.1.outpoint = outpoint).foldr
    (fun pair largest => Nat.max pair.2.value.toNat largest) 0

/-- The sum over the distinct outpoints that inputs name, each at its largest value. -/
def distinctTotal (pairs : List (Input × SpentOutput)) : Nat :=
  (namedOutpoints pairs).dedup.foldr (fun outpoint total => largestValue pairs outpoint + total) 0

private theorem filter_outpoint_of_nodup {pairs : List (Input × SpentOutput)}
    {pair : Input × SpentOutput} (distinct : (namedOutpoints pairs).Nodup) (member : pair ∈ pairs) :
    (pairs.filter fun other => other.1.outpoint = pair.1.outpoint) = [pair] := by
  induction pairs with
  | nil => cases member
  | cons first rest ih =>
      obtain ⟨absent, distinct⟩ := List.nodup_cons.mp distinct
      rcases List.mem_cons.mp member with rfl | later
      · rw [List.filter_cons_of_pos (by simp), List.filter_eq_nil_iff.mpr]
        intro other inside same
        exact absent (List.mem_map.mpr ⟨other, inside, of_decide_eq_true same⟩)
      · rw [List.filter_cons_of_neg, ih distinct later]
        intro same
        exact absent (List.mem_map.mpr ⟨pair, later, (of_decide_eq_true same).symm⟩)

private theorem largestValue_of_nodup {pairs : List (Input × SpentOutput)}
    {pair : Input × SpentOutput} (distinct : (namedOutpoints pairs).Nodup) (member : pair ∈ pairs) :
    largestValue pairs pair.1.outpoint = pair.2.value.toNat := by
  rw [largestValue, filter_outpoint_of_nodup distinct member]
  exact Nat.max_zero _

private theorem distinctTotal_of_nodup {pairs : List (Input × SpentOutput)}
    (distinct : (namedOutpoints pairs).Nodup) :
    distinctTotal pairs = exactTotal (inputValues pairs) := by
  have summed : ∀ part : List (Input × SpentOutput), part ⊆ pairs →
      (namedOutpoints part).foldr (fun outpoint total => largestValue pairs outpoint + total) 0 =
        exactTotal (inputValues part) := by
    intro part
    induction part with
    | nil => exact fun _ => rfl
    | cons pair rest ih =>
        intro inside
        obtain ⟨member, inside⟩ := List.cons_subset.mp inside
        have value := largestValue_of_nodup distinct member
        simp only [namedOutpoints, inputValues] at ih
        simp only [namedOutpoints, inputValues, List.map_cons, List.foldr_cons, exactTotal, value,
          ih inside]
  rw [distinctTotal, distinct.dedup]
  exact summed pairs (List.Subset.refl _)

/-! ## Verification -/

private theorem exists_resolved {tx : Transaction} (resolves : ∀ (index : Nat) (input : Input),
    tx.inputs[index]? = some input → ∃ spent, input.sourceOutput index = .ok spent) :
    ∃ pairs, tx.Resolved pairs := by
  cases encoded : tx.encodeExtended with
  | ok bytes =>
      obtain ⟨pairs, resolved, -⟩ := encodeExtended_eq_ok_iff.mp encoded
      exact ⟨pairs, resolved⟩
  | error cause =>
      obtain ⟨index, input, here, failed, -⟩ := encodeExtended_eq_error_iff.mp encoded
      obtain ⟨spent, found⟩ := resolves index input here
      rw [failed] at found
      cases found

/-- A transaction without a Merkle path is checked before anything is asked of the chain. -/
private theorem verify_of_pathless {m : Type → Type} [Monad m] [LawfulMonad m] {tx : Transaction}
    (pathless : tx.path = none) (tracker : Tracker m) (options : VerifyOptions) :
    (tx.verify tracker options).run =
      match tx.checkUnanchored options with
      | .error cause => pure (.error cause)
      | .ok () => (verifyQueue tracker options [tx.txid] tx.sources).run := by
  rw [verify, verifyQueue, if_neg List.not_mem_nil]
  simp only [isAnchored, pathless, pure_bind, Bool.false_eq_true, if_false, List.nil_append]
  cases tx.checkUnanchored options with
  | error cause => simp [ExceptT.run_bind, ExceptT.run_mk]
  | ok passed => simp [ExceptT.run_bind, ExceptT.run_mk]

private theorem passes_of_verify_pathless {σ : Type} {tx : Transaction}
    {tracker : Tracker (StateM σ)}
    {options : VerifyOptions} {before after : σ} (pathless : tx.path = none)
    (verified : (tx.verify tracker options).run.run before = (.ok (), after)) :
    tx.Passes options := by
  rw [verify_of_pathless pathless] at verified
  split at verified
  · cases verified
  · next passed => exact checkUnanchored_eq_ok_iff.mp passed

/-- The corner where the total of the outputs stops at what the inputs bring in is left out. -/
theorem outputs_le_inputs_of_verify {σ : Type} {tx : Transaction} {tracker : Tracker (StateM σ)}
    {options : VerifyOptions} {before after : σ} (pathless : tx.path = none)
    (verified : (tx.verify tracker options).run.run before = (.ok (), after)) :
    ∃ pairs, tx.Resolved pairs ∧
      (¬ tx.Overdrawn pairs →
        exactTotal (outputValues tx.outputs) ≤ exactTotal (inputValues pairs)) ∧
      ((namedOutpoints pairs).Nodup → distinctTotal pairs = exactTotal (inputValues pairs)) := by
  have passes := passes_of_verify_pathless pathless verified
  obtain ⟨pairs, resolved⟩ := exists_resolved passes.resolved
  obtain ⟨fee, paid⟩ := passes.fee
  refine ⟨pairs, resolved, fun covered => ?_, distinctTotal_of_nodup⟩
  exact resolved.outputs_le_of_paidFee paid covered

/-- Spends two outputs of one transaction, of five satoshis each, into one of ten. -/
def spendingPair (first second : UInt32) : Transaction :=
  let input (index : UInt32) : Input :=
    { (Input.ofOutpoint ⟨Hash32.zero, index⟩).withSource ⟨5, ⟨[0x51]⟩⟩ with unlocking := some ⟨[]⟩ }
  ⟨1, [input first, input second], [⟨10, ⟨[0x51]⟩, false⟩], 0, none⟩

/-- What the inputs of `spendingPair` resolve to. -/
def spendingPairSources (first second : UInt32) : List (Input × SpentOutput) :=
  (spendingPair first second).inputs.zip [⟨5, ⟨[0x51]⟩⟩, ⟨5, ⟨[0x51]⟩⟩]

private theorem resolved_spendingPair (first second : UInt32) :
    (spendingPair first second).Resolved (spendingPairSources first second) := by
  refine ⟨rfl, ?_⟩
  intro index pair found
  rcases index with _ | _ | index
  · cases found
    rfl
  · cases found
    rfl
  · cases found

/-- A tracker that knows no roots. -/
def unaware : Tracker (StateM Unit) :=
  ⟨fun _ _ => pure (.ok false)⟩

/-- Evaluates inputs in order, with no flags and little memory. -/
def plainOptions : VerifyOptions :=
  ⟨Spend.Flags.empty, 100, false, false⟩

private theorem verify_spendingPair {first second : UInt32}
    (passed : (spendingPair first second).checkUnanchored plainOptions = .ok ()) :
    ((spendingPair first second).verify unaware plainOptions).run.run () = (.ok (), ()) := by
  have alone : (spendingPair first second).sources = [] := rfl
  rw [verify_of_pathless rfl, passed, alone, verifyQueue]
  rfl

theorem spendingPair_outputs_le_inputs :
    ((spendingPair 0 1).verify unaware plainOptions).run.run () = (.ok (), ()) ∧
    ∃ pairs, (spendingPair 0 1).Resolved pairs ∧ 10 ≤ exactTotal (inputValues pairs) ∧
      distinctTotal pairs = exactTotal (inputValues pairs) := by
  have passed : (spendingPair 0 1).checkUnanchored plainOptions = .ok () := by decide +kernel
  have verified := verify_spendingPair passed
  obtain ⟨pairs, resolved, conserved, counted⟩ := outputs_le_inputs_of_verify rfl verified
  have covered : ¬ (spendingPair 0 1).Overdrawn pairs :=
    fun overdrawn => absurd overdrawn.2 (by decide)
  have distinct : (namedOutpoints pairs).Nodup := by
    have named : namedOutpoints pairs = (spendingPair 0 1).inputs.map Input.outpoint := by
      rw [resolved.inputs, List.map_map]
      rfl
    rw [named]
    decide
  exact ⟨verified, pairs, resolved, conserved covered, counted distinct⟩

/-- An outpoint that is named twice pays twice. -/
theorem verify_counts_outpoint_twice : ¬ ∀ (tx : Transaction) (tracker : Tracker (StateM Unit))
    (options : VerifyOptions) (pairs : List (Input × SpentOutput)), tx.path = none →
    (tx.verify tracker options).run.run () = (.ok (), ()) → tx.Resolved pairs →
    exactTotal (outputValues tx.outputs) ≤ distinctTotal pairs := by
  intro conserved
  have passed : (spendingPair 0 0).checkUnanchored plainOptions = .ok () := by decide +kernel
  have verified := verify_spendingPair passed
  have covered := conserved (spendingPair 0 0) unaware plainOptions (spendingPairSources 0 0) rfl
    verified (resolved_spendingPair 0 0)
  exact absurd covered (by decide)

end BitcoinSpend.Transaction
