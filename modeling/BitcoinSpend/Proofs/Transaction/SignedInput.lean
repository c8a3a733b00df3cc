import BitcoinSpend.Proofs.Chunk.Push
import BitcoinSpend.Proofs.Signature.Der
import BitcoinSpend.Proofs.SignatureHash.Blindness
import BitcoinSpend.Proofs.Spend.CheckedQuery
import BitcoinSpend.Template.Sign
import BitcoinSpend.Transaction.Context

/-!
# Inputs that have been signed

An input is signed before its unlocking script is there, and the signature is
checked when it is. The digest is the same both times, since it leaves unlocking
scripts out.
-/

set_option autoImplicit false

namespace BitcoinSpend

/-- The known hash types with replay protection: what outputs are covered, for any input or for all
of them. -/
def HashType.IsProtected (type : HashType) : Prop :=
  type.bits ∈ [0x41, 0x42, 0x43, 0xc1, 0xc2, 0xc3]

instance (type : HashType) : Decidable type.IsProtected :=
  inferInstanceAs (Decidable (type.bits ∈ [0x41, 0x42, 0x43, 0xc1, 0xc2, 0xc3]))

namespace HashType

variable {type : HashType}

/-- A property of each of the six types is one of every protected type. -/
private theorem of_isProtected (property : HashType → Prop) [DecidablePred property]
    (known : type.IsProtected)
    (each : [0x41, 0x42, 0x43, 0xc1, 0xc2, 0xc3].all fun bits => property ⟨bits⟩) :
    property type :=
  of_decide_eq_true (List.all_eq_true.mp each type.bits known)

private theorem isForkId_of_isProtected (known : type.IsProtected) : type.isForkId = true :=
  of_isProtected (fun type => type.isForkId = true) known (by decide)

/-- The byte after a signature is the whole hash type. -/
private theorem toUInt32_byte (known : type.IsProtected) : type.byte.toUInt32 = type.bits :=
  of_isProtected (fun type => type.byte.toUInt32 = type.bits) known (by decide)

theorem byte_known (known : type.IsProtected) :
    type.byte &&& Spend.hashTypeForkId ≠ 0 ∧ type.byte &&& 0x3f ∈ [1, 2, 3] :=
  of_isProtected (fun type => type.byte &&& Spend.hashTypeForkId ≠ 0 ∧
    type.byte &&& 0x3f ∈ [1, 2, 3]) known (by decide)

end HashType

/-- A signature, with keys for it, is short enough to be pushed. -/
theorem Script.exists_ofPushes_signature (signature : Signature) (type : UInt8)
    (keys : List PublicKey) : ∃ script,
      ofPushes ((signature.toDer ++ [type]) :: keys.map PublicKey.compressed) = .ok script := by
  refine ⟨_, ofPushes_eq_ok_iff.mpr ⟨List.forall_mem_cons.mpr ⟨?_, ?_⟩, rfl⟩⟩
  · rw [List.length_append, List.length_singleton]
    exact Nat.lt_of_le_of_lt (Nat.add_le_add_right signature.length_toDer_le 1) (by decide)
  · intro item member
    obtain ⟨key, -, rfl⟩ := List.mem_map.mp member
    rw [key.length_compressed]
    decide

/-! ## An unlocking script put in place -/

namespace Transaction

variable {tx : Transaction} {index : Nat} {input : Input} {type : HashType}

theorem getElem?_withUnlocking (found : tx.inputs[index]? = some input) (script : Script) :
    (tx.withUnlocking index script).inputs[index]? = some (input.withUnlocking script) := by
  simp [withUnlocking, found]

/-- The digest of an input is the same with its unlocking script. -/
private theorem digest_withUnlocking (found : tx.inputs[index]? = some input) (type : HashType)
    {spent : SpentOutput} (source : input.sourceOutput index = .ok spent) (script : Script) :
    (tx.withUnlocking index script).digest index spent.script.bytes type spent.value =
      tx.inputDigest index type := by
  have inputAt : tx.inputAt index = .ok input := by simp only [Transaction.inputAt, found]
  rw [← digest_unsigned, unsigned_withUnlocking, digest_unsigned, inputDigest, inputAt]
  simp only [bind, Except.bind, source]

/-- An input whose source is known has a digest for every protected type. -/
theorem exists_inputDigest (found : tx.inputs[index]? = some input) {spent : SpentOutput}
    (source : input.sourceOutput index = .ok spent) (known : type.IsProtected) :
    ∃ digest, tx.inputDigest index type = .ok digest := by
  have inputAt : tx.inputAt index = .ok input := by simp only [Transaction.inputAt, found]
  simp only [inputDigest, digest, forkIdMessage, HashType.isForkId_of_isProtected known, if_true,
    inputAt, bind, Except.bind, source, pure, Except.pure]
  exact ⟨_, rfl⟩

/-- An unlocking script in place is evaluated as the request that it makes. -/
theorem evaluateInput_withUnlocking {spent : SpentOutput}
    (source : input.sourceOutput index = .ok spent) {script : Script} {flags : Spend.Flags}
    {memoryLimit : Nat}
    (valid : ((tx.withUnlocking index script).spendRequest index (input.withUnlocking script) spent
      script flags memoryLimit).validate = .ok ()) :
    (tx.withUnlocking index script).evaluateInput flags memoryLimit (input.withUnlocking script)
      index = .ok () := by
  have here : (input.withUnlocking script).sourceOutput index = .ok spent := source
  rw [evaluateInput, here]
  exact mapError_eq_ok_iff.mpr valid

/-! ## Signing and checking -/

theorem signInput_eq_ok_iff {sign : Hash32 → Except EncodingError Signature} {bytes : Bytes} :
    tx.signInput index type sign = .ok bytes ↔
      ∃ digest signature, tx.inputDigest index type = .ok digest ∧ sign digest = .ok signature ∧
        signature.toDer ++ [type.byte] = bytes := by
  simp only [signInput, bind_eq_ok_iff, mapError_eq_ok_iff, pure, Except.pure, Except.ok.injEq,
    exists_and_left]

/-- What is made of the signature of an input is made of a signature of its digest. -/
theorem signInput_bind_eq_ok_iff {sign : Hash32 → Except EncodingError Signature}
    {make : Bytes → Except TransactionError Script} {script : Script} :
    (do let bytes ← tx.signInput index type sign; make bytes) = .ok script ↔
      ∃ digest signature, tx.inputDigest index type = .ok digest ∧ sign digest = .ok signature ∧
        make (signature.toDer ++ [type.byte]) = .ok script := by
  simp only [bind_eq_ok_iff, signInput_eq_ok_iff]
  constructor
  · rintro ⟨-, ⟨digest, signature, digested, signed, rfl⟩, made⟩
    exact ⟨digest, signature, digested, signed, made⟩
  · rintro ⟨digest, signature, digested, signed, made⟩
    exact ⟨_, ⟨digest, signature, digested, signed, rfl⟩, made⟩

/-- A signature of the digest, shown with its input, is checked against that digest. -/
theorem verifySignature_withUnlocking (found : tx.inputs[index]? = some input)
    (known : type.IsProtected) {spent : SpentOutput} (source : input.sourceOutput index = .ok spent)
    {digest : Hash32} (digested : tx.inputDigest index type = .ok digest) {signature : Signature}
    (normal : signature.IsNormal) {encoded : Bytes} {key : PublicKey}
    (readable : PublicKey.ofBytes encoded = .ok key) (script : Script) :
    (tx.withUnlocking index script).verifySignature true
        ⟨signature.toDer ++ [type.byte], encoded, spent.script, index, type.byte.toUInt32⟩ =
      .ok (signature.verifies digest key) := by
  have nonempty : (signature.toDer ++ [type.byte]).isEmpty = false := by simp
  have readSignature : Signature.ofDer signature.toDer = .ok signature :=
    mapError_eq_ok_iff.mpr (Signature.readDer_of_isNormal normal)
  have here : (input.withUnlocking script).sourceOutput index = .ok spent := source
  have whole : (⟨type.byte.toUInt32⟩ : HashType) = type := by rw [HashType.toUInt32_byte known]
  have same := digest_withUnlocking found type source script
  rw [digested] at same
  simp only [verifySignature, nonempty, List.dropLast_concat, readSignature, readable,
    getElem?_withUnlocking found, here, whole, HashType.isForkId_of_isProtected known, same,
    Bool.and_self, Bool.false_eq_true, if_false, if_true]

end Transaction

end BitcoinSpend
