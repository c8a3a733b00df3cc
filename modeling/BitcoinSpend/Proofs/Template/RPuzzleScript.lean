import BitcoinSpend.Proofs.Chunk.Push
import BitcoinSpend.Proofs.Signature.Der
import BitcoinSpend.Template.RPuzzle

/-!
# The chunks of R-puzzle scripts

There is a puzzle of every kind for the number `r` of every nonce, and its script
splits into the chunks that it was made of.
-/

set_option autoImplicit false

namespace BitcoinSpend.RPuzzle

variable {kind : Kind} {value : Bytes}

/-- The chunk that digests `r`, where the puzzle commits to a digest. -/
def digestChunks (kind : Kind) : List Chunk :=
  (kind.map fun algorithm => Chunk.ofOpcode (digestOpcode algorithm)).toList

/-- The chunks that compare a number with the committed value and check the signature. -/
def comparisonChunks (value : Bytes) : List Chunk :=
  [Chunk.push value, Chunk.ofOpcode Opcode.equalVerify, Chunk.ofOpcode Opcode.checkSig]

def lockingChunks (kind : Kind) (value : Bytes) : List Chunk :=
  extraction.map Chunk.ofOpcode ++ digestChunks kind ++ comparisonChunks value

theorem lockingScript_eq_ok_iff {script : Script} :
    lockingScript kind value = .ok script ↔
      value ≠ [] ∧ Script.ofChunks (lockingChunks kind value) = script := by
  simp only [lockingScript, List.isEmpty_iff]
  split
  · next empty => simp [empty]
  · next nonempty =>
      simp only [Except.ok.injEq, ne_eq, nonempty, not_false_eq_true, true_and]
      rfl

theorem length_digestChunks_le : (digestChunks kind).length ≤ 1 := by
  cases kind with
  | none => exact Nat.zero_le 1
  | some algorithm => exact Nat.le_refl 1

theorem chunks_ofChunks (short : value.length < UInt32.size) :
    (Script.ofChunks (lockingChunks kind value)).chunks = .ok (lockingChunks kind value) := by
  have shortValue : ∀ item ∈ [value], item.length < UInt32.size := by
    intro item member
    rw [List.mem_singleton.mp member]
    exact short
  have ending : Chunk.InOrder 0
      [Chunk.ofOpcode Opcode.equalVerify, Chunk.ofOpcode Opcode.checkSig] :=
    .cons (.bare rfl) (by decide) (.cons (.bare rfl) (by decide) .nil)
  have comparison : Chunk.InOrder 0 (comparisonChunks value) := .pushes_append shortValue ending
  have digested : Chunk.InOrder 0 (digestChunks kind ++ comparisonChunks value) := by
    rcases kind with _ | algorithm
    · exact comparison
    · cases algorithm <;> exact .cons (.bare rfl) (by decide) comparison
  have bare : ∀ op ∈ extraction, Opcode.hasOperand op = false ∧ op ≠ Opcode.returnEarly ∧
      Chunk.depthAfter op 0 = 0 := by decide +kernel
  have inOrder : Chunk.InOrder 0 (lockingChunks kind value) := by
    rw [lockingChunks, List.append_assoc]
    generalize extraction = ops at bare
    induction ops with
    | nil => exact digested
    | cons op ops ih =>
        obtain ⟨⟨noOperand, notReturn, closed⟩, bareRest⟩ := List.forall_mem_cons.mp bare
        refine .cons (.bare noOperand) (fun isReturn => notReturn isReturn.1) ?_
        exact closed.symm ▸ ih bareRest
  exact Chunk.decodeFrom_encodeAll inOrder 0

theorem size_ofChunks_le :
    (Script.ofChunks (lockingChunks kind value)).size ≤ value.length + 17 := by
  have extracted : (Chunk.encodeAll (extraction.map Chunk.ofOpcode)).length = 9 := by decide
  have digested : (Chunk.encodeAll (digestChunks kind)).length ≤ 1 := by
    cases kind with
    | none => exact Nat.zero_le 1
    | some algorithm => exact Nat.le_refl 1
  have pushed := Chunk.length_encode_push_le value
  have compared : (Chunk.encodeAll (comparisonChunks value)).length =
      (Chunk.push value).encode.length + 2 := by
    rw [comparisonChunks, Chunk.encodeAll_cons, List.length_append]
    rfl
  simp only [Chunk.encodeAll] at extracted digested compared
  simp only [Script.size, Script.ofChunks, lockingChunks, Chunk.encodeAll, List.flatMap_append,
    List.length_append, extracted, compared]
  omega

/-! ## Committed values -/

theorem length_commit {r : Bytes} (nonempty : 0 < r.length) (short : r.length ≤ 33) :
    0 < (commit kind r).length ∧ (commit kind r).length ≤ 33 := by
  rcases kind with _ | algorithm
  · exact ⟨nonempty, short⟩
  · cases algorithm <;> simp [commit, Digest.Algorithm.digest]

/-- The form that a puzzle gives to a number of 32 bytes is the one that signatures give to it. -/
private theorem signedForm_eq_integerBytes {value : Nat} (small : value < Bytes.capacity 32) :
    signedForm (Bytes.ofNatBE 32 value) = Signature.integerBytes (BitVec.ofNat 256 value) := by
  have same : (BitVec.ofNat 256 value).toNat = value := Nat.mod_eq_of_lt small
  simp only [signedForm, Signature.integerBytes, same, Bytes.dropWhile_ofNatBE small]
  cases Bytes.ofNatBEShortest value with
  | nil => rfl
  | cons first rest => simp only [ne_eq, Spend.highBit_eq_zero_iff, ite_not]

theorem ofNonce_of_ofBytes {nonce : Bytes} {solution : PrivateKey}
    (isNonce : PrivateKey.ofBytes nonce = .ok solution) :
    ofNonce nonce = .ok (Signature.integerBytes (BitVec.ofNat 256 solution.publicKey.x)) := by
  have small : solution.publicKey.x < Bytes.capacity 32 :=
    Nat.lt_trans solution.publicKey.contains.1 (by decide)
  rw [← signedForm_eq_integerBytes small]
  simp only [ofNonce, isNonce]
  rfl

end BitcoinSpend.RPuzzle
