import Mathlib.Algebra.GroupWithZero.Nat
import Mathlib.Data.List.Forall2
import BitcoinSpend.Fee.Model
import BitcoinSpend.Proofs.Transaction.ExactTotals

/-!
# Estimated sizes

An estimate adds up the lengths of the parts of the encoding, with the length that each
input counts as in the place of its unlocking script. So where an input counts as its
unlocking script the estimate is the length of the encoding, and it does not fall when a
length or the list of outputs grows.
-/

set_option autoImplicit false

namespace BitcoinSpend

theorem mapM_zipIdx_eq_ok_iff_forall₂ {ε α β : Type} (find : α → Nat → Except ε β)
    {relation : α → β → Prop}
    (found : ∀ item index value, find item index = .ok value ↔ relation item value)
    {items : List α} {values : List β} :
    (items.zipIdx.mapM fun item => find item.1 item.2) = .ok values ↔
      List.Forall₂ relation items values := by
  induction items generalizing find values with
  | nil => simp [pure, Except.pure, eq_comm]
  | cons item rest ih =>
      have later : ∀ values, (rest.zipIdx.mapM fun item => find item.1 (item.2 + 1)) = .ok values ↔
          List.Forall₂ relation rest values :=
        fun values => ih (fun item index => find item (index + 1))
          fun item index value => found item (index + 1) value
      simp only [mapM_zipIdx_cons, bind_eq_ok_iff, later, found, List.forall₂_cons_left_iff]
      constructor
      · rintro ⟨value, here, others, after, same⟩
        cases same
        exact ⟨value, others, here, after, rfl⟩
      · rintro ⟨value, others, here, after, rfl⟩
        exact ⟨value, here, others, after, rfl⟩

/-! ## Lengths of encodings -/

theorem Wire.varIntLength_mono {small large : UInt64} (le : small ≤ large) :
    varIntLength small ≤ varIntLength large := by
  rw [UInt64.le_iff_toNat_le] at le
  simp only [varIntLength, UInt64.lt_iff_toNat_lt]
  grind

private theorem Wire.length_varBytes (bytes : Bytes) :
    (varBytes bytes).length = varIntLength (UInt64.ofNat bytes.length) + bytes.length := by
  rw [varBytes, List.length_append, length_varInt]

private theorem Output.length_encode (output : Output) : output.encode.length = output.size := by
  simp only [encode, Wire.encodeFields, Wire.Field.encode, List.flatMap_cons, List.flatMap_nil,
    List.length_append, Bytes.length_ofNatLE, Wire.length_varBytes, List.length_nil, size,
    Script.size]
  omega

private theorem Input.length_encode (input : Input) :
    input.encode.length = sizeWith input.unlockingBytes.length := by
  simp only [encode, Outpoint.encodeInput, Outpoint.encode, Wire.encodeFields, Wire.Field.encode,
    List.flatMap_cons, List.flatMap_nil, List.length_append, Bytes.length_ofNatLE,
    Wire.length_varBytes, List.length_nil, Hash32.length_bytes, sizeWith]
  omega

theorem Input.sizeWith_mono {short long : Nat} (le : short ≤ long) (fits : long < UInt64.size) :
    sizeWith short ≤ sizeWith long := by
  have ordered : UInt64.ofNat short ≤ UInt64.ofNat long := by
    rw [UInt64.le_iff_toNat_le, UInt64.toNat_ofNat_of_lt' fits,
      UInt64.toNat_ofNat_of_lt' (Nat.lt_of_le_of_lt le fits)]
    exact le
  have counts := Wire.varIntLength_mono ordered
  simp only [sizeWith]
  omega

private theorem length_encodeCounted {α : Type} (encode : α → Bytes) (items : List α) :
    (encodeCounted encode items).length = Wire.varIntLength (UInt64.ofNat items.length) +
      (items.map fun item => (encode item).length).sum := by
  rw [encodeCounted, List.length_append, Wire.length_varInt, List.length_flatMap]

/-! ## The length an input counts as -/

namespace Input

variable {input : Input} {index length : Nat}

/-- The length of the unlocking script that is added up for an input. -/
def CountsAs (input : Input) (length : Nat) : Prop :=
  ∀ index, input.estimatedLength index = .ok length

/-- The index of an input only goes into its error. -/
theorem estimatedLength_eq_ok_iff :
    input.estimatedLength index = .ok length ↔ input.CountsAs length := by
  constructor
  · intro estimated place
    rw [← estimated]
    simp only [estimatedLength] at estimated ⊢
    split
    · next unlocking unlocker =>
        rw [unlocking, unlocker] at estimated
        cases estimated
    all_goals rfl
  · exact fun counts => counts index

theorem CountsAs.unique {length' : Nat} (first : input.CountsAs length)
    (second : input.CountsAs length') : length = length' :=
  Except.ok.inj ((first 0).symm.trans (second 0))

theorem countsAs_of_script {script : Script} (found : input.unlocking = some script)
    (used : input.unlocker = none ∨ script.bytes ≠ []) : input.CountsAs script.size := by
  intro index
  simp only [estimatedLength, found]
  cases own : input.unlocker with
  | none => rfl
  | some unlocker =>
      have nonempty : script.bytes ≠ [] := used.resolve_left (by simp [own])
      have counted : script.isEmpty = false := List.isEmpty_eq_false_iff.mpr nonempty
      simp only [counted, Bool.false_eq_true, if_false]

theorem countsAs_of_unlocker {unlocker : Unlocker} (found : input.unlocker = some unlocker)
    (bare : input.unlockingBytes = []) : input.CountsAs unlocker.estimatedLength := by
  intro index
  simp only [estimatedLength, found, unlockingBytes] at bare ⊢
  cases unlocking : input.unlocking with
  | none => rfl
  | some script =>
      rw [unlocking] at bare
      have empty : script.isEmpty = true := List.isEmpty_iff.mpr bare
      simp only [empty, if_true]

/-- An input that waits for nothing has an unlocking script to count. -/
theorem unlocking_of_countsAs (counts : input.CountsAs length) (plain : input.unlocker = none) :
    ∃ script, input.unlocking = some script ∧ length = script.size := by
  cases found : input.unlocking with
  | none =>
      have refused := counts 0
      simp only [estimatedLength, found, plain] at refused
      cases refused
  | some script => exact ⟨script, rfl, counts.unique (countsAs_of_script found (.inl plain))⟩

/-- An input with bytes to unlock it counts as these. -/
theorem countsAs_of_unlockingBytes (nonempty : input.unlockingBytes ≠ []) :
    input.CountsAs input.unlockingBytes.length := by
  cases found : input.unlocking with
  | none =>
      rw [unlockingBytes, found] at nonempty
      exact absurd rfl nonempty
  | some script =>
      have bytes : input.unlockingBytes = script.bytes := by rw [unlockingBytes, found]
      rw [bytes] at nonempty ⊢
      exact countsAs_of_script found (.inr nonempty)

end Input

/-! ## Whole transactions -/

namespace Transaction

variable {tx : Transaction} {size : Nat} {lengths : List Nat}

/-- The size of a transaction with unlocking scripts of given lengths. -/
def sizeWith (tx : Transaction) (lengths : List Nat) : Nat :=
  4 + Wire.varIntLength (UInt64.ofNat tx.inputs.length) + (lengths.map Input.sizeWith).sum +
    Wire.varIntLength (UInt64.ofNat tx.outputs.length) +
    (tx.outputs.map fun output => output.size).sum + 4

theorem size_eq_sizeWith (tx : Transaction) :
    tx.size = tx.sizeWith (tx.inputs.map fun input => input.unlockingBytes.length) := by
  simp only [Transaction.size, encode, encodeTail, List.length_append, Bytes.length_ofNatLE,
    length_encodeCounted, Input.length_encode, Output.length_encode, sizeWith, List.map_map,
    Function.comp_def]
  omega

theorem estimatedSize_eq_ok_iff : tx.estimatedSize = .ok size ↔
    ∃ lengths, List.Forall₂ Input.CountsAs tx.inputs lengths ∧ size = tx.sizeWith lengths := by
  have estimated : ∀ lengths, (tx.inputs.zipIdx.mapM fun item => item.1.estimatedLength item.2) =
      .ok lengths ↔ List.Forall₂ Input.CountsAs tx.inputs lengths := fun lengths =>
    mapM_zipIdx_eq_ok_iff_forall₂ Input.estimatedLength fun _ _ _ => Input.estimatedLength_eq_ok_iff
  have summed : ∀ {α : Type} (items : List α) (count : α → Nat),
      items.foldl (fun total item => total + count item) 0 = (items.map count).sum := by
    intro α items count
    rw [← List.foldl_map, List.sum_eq_foldl]
  have opened : tx.estimatedSize = (do
      let lengths ← tx.inputs.zipIdx.mapM fun item => item.1.estimatedLength item.2
      pure (tx.sizeWith lengths)) := by
    simp only [Transaction.estimatedSize, sizeWith, summed]
  rw [opened, bind_eq_ok_iff]
  simp only [estimated, pure, Except.pure, Except.ok.injEq, eq_comm]

/-- Where every input counts as its unlocking script, the estimate is the size. -/
theorem estimatedSize_of_countsAs
    (counts : ∀ input ∈ tx.inputs, input.CountsAs input.unlockingBytes.length) :
    tx.estimatedSize = .ok tx.size := by
  refine estimatedSize_eq_ok_iff.mpr ⟨_, ?_, tx.size_eq_sizeWith⟩
  exact List.forall₂_map_right_iff.mpr (List.forall₂_same.mpr counts)

end Transaction

/-! ## Fees -/

namespace Fee

variable {size size' : Nat} {rate fee : UInt64} {tx : Transaction}

theorem toNat_forSize (size : Nat) (rate : UInt64) : (forSize size rate).toNat =
    (min (size * rate.toNat) Amount.largest.toNat + 999) / 1000 := by
  have largest := Amount.toNat_largest
  have saturated : (Amount.saturate (size * rate.toNat)).toNat =
      min (size * rate.toNat) Amount.largest.toNat := by
    rw [Amount.toNat_saturate]
    split <;> omega
  rw [forSize, saturated]
  refine UInt64.toNat_ofNat_of_lt' ?_
  omega

theorem forSize_mono (le : size ≤ size') (rate : UInt64) :
    forSize size rate ≤ forSize size' rate := by
  have product : size * rate.toNat ≤ size' * rate.toNat := Nat.mul_le_mul_right _ le
  rw [UInt64.le_iff_toNat_le, toNat_forSize, toNat_forSize]
  omega

theorem atRate_eq_ok_iff : atRate rate tx = .ok fee ↔
    ∃ size, tx.estimatedSize = .ok size ∧ fee = forSize size rate := by
  rw [atRate, bind_eq_ok_iff]
  simp only [pure, Except.pure, Except.ok.injEq, eq_comm]

end Fee

end BitcoinSpend
