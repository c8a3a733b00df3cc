import BitcoinSpend.Proofs.ExceptProperties
import BitcoinSpend.Template.Sign

/-!
# Digests do not look at unlocking scripts

Whatever the hash type, the digest of an input is that of the transaction without
any unlocking script. So is what an unlocker makes of it.
-/

set_option autoImplicit false

namespace BitcoinSpend

def Input.unsigned (input : Input) : Input :=
  { input with unlocking := none }

/-- The transaction without its unlocking scripts. -/
def Transaction.unsigned (tx : Transaction) : Transaction :=
  { tx with inputs := tx.inputs.map Input.unsigned }

/-- An unlocking script that is put in place makes no difference without unlocking scripts. -/
theorem Transaction.unsigned_withUnlocking (tx : Transaction) (index : Nat) (script : Script) :
    (tx.withUnlocking index script).unsigned = tx.unsigned := by
  unfold unsigned withUnlocking
  congr 1
  apply List.ext_getElem?
  intro place
  simp only [List.getElem?_map, List.getElem?_modify]
  cases tx.inputs[place]? with
  | none => rfl
  | some input =>
      simp only [Option.map_eq_map, Option.map_some]
      split <;> rfl

variable {tx : Transaction} {index : Nat} {type : HashType}

namespace HashType

private theorem outpointsField_unsigned :
    type.outpointsField tx.unsigned = type.outpointsField tx := by
  have same : tx.unsigned.outpointsDigest = tx.outpointsDigest := by
    unfold Transaction.outpointsDigest Transaction.unsigned
    rw [List.flatMap_map]
    rfl
  rw [outpointsField, outpointsField, same]

private theorem sequencesField_unsigned :
    type.sequencesField tx.unsigned = type.sequencesField tx := by
  have same : tx.unsigned.sequencesDigest = tx.sequencesDigest := by
    unfold Transaction.sequencesDigest Transaction.unsigned
    rw [List.flatMap_map]
    rfl
  rw [sequencesField, sequencesField, same]

private theorem encodeInputs_unsigned (signed : Input) (code : Bytes) :
    type.encodeInputs tx.unsigned index signed.unsigned code =
      type.encodeInputs tx index signed code := by
  unfold encodeInputs Transaction.unsigned
  cases type.isAnyoneCanPay with
  | true => rfl
  | false =>
      simp only [encodeCounted, List.zipIdx_map, List.length_map, List.flatMap_map]
      rfl

end HashType

namespace Transaction

private theorem inputAt_unsigned :
    tx.unsigned.inputAt index = (tx.inputAt index).map Input.unsigned := by
  simp only [inputAt, unsigned, List.getElem?_map, List.length_map]
  cases tx.inputs[index]? with
  | none => rfl
  | some input => rfl

private theorem forkIdMessage_unsigned (code : Bytes) (value : UInt64) :
    tx.unsigned.forkIdMessage index code type value = tx.forkIdMessage index code type value := by
  unfold forkIdMessage
  rw [inputAt_unsigned, HashType.outpointsField_unsigned, HashType.sequencesField_unsigned]
  cases tx.inputAt index with
  | error cause => rfl
  | ok input => rfl

private theorem legacyMessage_unsigned (signed : Input) (code : Bytes) :
    tx.unsigned.legacyMessage index signed.unsigned code type =
      tx.legacyMessage index signed code type := by
  unfold legacyMessage
  rw [HashType.encodeInputs_unsigned]
  rfl

private theorem legacyDigest_unsigned (code : Bytes) :
    tx.unsigned.legacyDigest index code type = tx.legacyDigest index code type := by
  have outputs : tx.unsigned.outputs = tx.outputs := rfl
  unfold legacyDigest
  rw [inputAt_unsigned, outputs]
  cases tx.inputAt index with
  | error cause => simp only [Except.map, bind, Except.bind]
  | ok input => simp only [Except.map, bind, Except.bind, legacyMessage_unsigned]

theorem digest_unsigned (code : Bytes) (value : UInt64) :
    tx.unsigned.digest index code type value = tx.digest index code type value := by
  rw [digest, digest, forkIdMessage_unsigned, legacyDigest_unsigned]

private theorem inputDigest_unsigned :
    tx.unsigned.inputDigest index type = tx.inputDigest index type := by
  unfold inputDigest
  rw [inputAt_unsigned]
  cases tx.inputAt index with
  | error cause => simp only [Except.map, bind, Except.bind]
  | ok input =>
      have source : input.unsigned.sourceOutput index = input.sourceOutput index := rfl
      simp only [Except.map, bind, Except.bind, source, digest_unsigned]

private theorem signInput_unsigned (sign : Hash32 → Except EncodingError Signature) :
    tx.unsigned.signInput index type sign = tx.signInput index type sign := by
  rw [signInput, signInput, inputDigest_unsigned]

end Transaction

theorem Unlocker.unlock_unsigned (unlocker : Unlocker) :
    unlocker.unlock tx.unsigned index = unlocker.unlock tx index := by
  cases unlocker with
  | payToKeyHash key type | pushDrop key type | rPuzzle nonce key type =>
      simp only [unlock, Transaction.signInput_unsigned]

end BitcoinSpend
