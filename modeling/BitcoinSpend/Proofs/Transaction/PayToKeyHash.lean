import BitcoinSpend.Proofs.Spend.StandardSpend
import BitcoinSpend.Proofs.Transaction.SignedInput

/-!
# Spending what is paid to a key hash

The unlocking script that the owner of a key makes for an input is valid for the
locking script that names the key by its hash.
-/

set_option autoImplicit false

namespace BitcoinSpend

/-- The chunks of the locking script that names a key by its hash. -/
def payToKeyHashChunks (hash : Bytes) : List Chunk :=
  [⟨Opcode.dup, none⟩, ⟨Opcode.hash160, none⟩, Chunk.push hash, ⟨Opcode.equalVerify, none⟩,
    ⟨Opcode.checkSig, none⟩]

private theorem ofChunks_payToKeyHash {hash : Bytes} (length : hash.length = 20) :
    Script.ofChunks (payToKeyHashChunks hash) = Script.payToKeyHash hash := by
  have pushed : Chunk.push hash = ⟨20, some hash⟩ := by
    rw [Chunk.push_of_length (by omega), length]
    rfl
  rw [payToKeyHashChunks, pushed]
  rfl

private theorem chunks_payToKeyHash {hash : Bytes} (length : hash.length = 20) :
    (Script.payToKeyHash hash).chunks = .ok (payToKeyHashChunks hash) := by
  have short : ∀ item ∈ [hash], item.length < UInt32.size := by
    intro item member
    rw [List.mem_singleton.mp member, length]
    decide
  have ending : Chunk.InOrder 0 [⟨Opcode.equalVerify, none⟩, ⟨Opcode.checkSig, none⟩] :=
    .cons (.bare rfl) (by decide) (.cons (.bare rfl) (by decide) .nil)
  have inOrder : Chunk.InOrder 0 (payToKeyHashChunks hash) :=
    .cons (.bare rfl) (by decide) (.cons (.bare rfl) (by decide) (.pushes_append short ending))
  rw [← ofChunks_payToKeyHash length]
  exact Chunk.decodeFrom_encodeAll inOrder 0

namespace Spend

/-- The key with the hash that the script names is left for the signature check. -/
private theorem Machine.runToEnd_keyOfHash {setup : Setup}
    (limits : setup.limits = Limits.afterGenesis)
    {encoded : Bytes} (isLocking : setup.locking = payToKeyHashChunks (Digest.hash160 encoded))
    {items : List Bytes} (shallow : items.length + 3 ≤ Limits.unbounded)
    (light : 2 * encoded.length + 40 + totalLength items ≤ setup.memoryLimit) :
    runToEnd (plain setup .locking 0 (encoded :: items) 0 []) =
      runToEnd (plain setup .locking 4 (encoded :: items) 3 []) := by
  have chunks : setup.script .locking = payToKeyHashChunks (Digest.hash160 encoded) := isLocking
  have sizeHash := Digest.length_hash160 encoded
  have isCopied : Exec.onStack (Stack.dupBlock 1) ⟨setup, .locking, 0⟩
      (State.plain setup.numberRule (encoded :: items) 1 []) =
        .ok () (State.plain setup.numberRule (encoded :: encoded :: items) 1 []) :=
    Exec.dup_plain encoded
  have isHashed : Exec.digest .hash160 ⟨setup, .locking, 1⟩
      (State.plain setup.numberRule (encoded :: encoded :: items) 2 []) =
        .ok () (State.plain setup.numberRule (Digest.hash160 encoded :: encoded :: items) 2 []) :=
    Exec.digest_plain .hash160 encoded
  generalize Digest.hash160 encoded = hash at *
  calc runToEnd (plain setup .locking 0 (encoded :: items) 0 [])
      = runToEnd (plain setup .locking 1 (encoded :: encoded :: items) 1 []) := by
        refine runToEnd_bare limits Opcode.dup (by rw [chunks]; rfl) (by decide) (by decide)
          isCopied (by decide) ?_ ?_
        · simp only [List.length_cons]
          omega
        · simp only [totalLength]
          omega
    _ = runToEnd (plain setup .locking 2 (hash :: encoded :: items) 2 []) := by
        refine runToEnd_bare limits Opcode.hash160 (by rw [chunks]; rfl) (by decide) (by decide)
          isHashed (by decide) ?_ ?_
        · simp only [List.length_cons]
          omega
        · simp only [totalLength]
          omega
    _ = runToEnd (plain setup .locking 3 (hash :: hash :: encoded :: items) 2 []) := by
        refine runToEnd_push limits (by rw [chunks]; rfl) ?_ (by decide) shallow ?_
        · rw [sizeHash]
          decide
        · simp only [totalLength]
          omega
    _ = runToEnd (plain setup .locking 4 (encoded :: items) 3 []) := by
        refine runToEnd_equalVerify limits (by rw [chunks]; rfl) (by decide) ?_ ?_
        · simp only [List.length_cons]
          omega
        · simp only [totalLength]
          omega

/-- A signature and the key that the script names leave a true item. -/
private theorem Machine.runToEnd_payToKeyHash {setup : Setup}
    (standard : setup.flags = Flags.standard)
    {key : PublicKey} (isLocking : setup.locking = payToKeyHashChunks key.hash)
    {context : TxContext} (known : setup.context = some context) {der : Bytes} {hashType : UInt8}
    (knownType : hashType &&& hashTypeForkId ≠ 0 ∧ hashType &&& 0x3f ∈ [1, 2, 3])
    (strict : IsStrict true der) (light : 200 ≤ setup.memoryLimit) {query : SignatureQuery}
    (asks : query = ⟨der ++ [hashType], key.compressed, Script.payToKeyHash key.hash,
      setup.inputIndex, hashType.toUInt32⟩)
    (valid : context.verifySignature [] query = .ok true) :
    runToEnd (plain setup .locking 0 [key.compressed, der ++ [hashType]] 0 []) =
      runToEnd (plain setup .locking setup.locking.length [[1]] 4 [query]) := by
  have limits := Setup.limits_of_standard standard
  have chunks : setup.script .locking = payToKeyHashChunks key.hash := isLocking
  have sizeKey := key.length_compressed
  have sizeDer := strict.length_le
  have asksWhole : query = ⟨der ++ [hashType], key.compressed, Script.ofChunks setup.locking,
      setup.inputIndex, hashType.toUInt32⟩ := by
    rw [asks, isLocking, ofChunks_payToKeyHash key.length_hash]
  calc runToEnd (plain setup .locking 0 [key.compressed, der ++ [hashType]] 0 [])
      = runToEnd (plain setup .locking 4 [key.compressed, der ++ [hashType]] 3 []) := by
        refine runToEnd_keyOfHash limits isLocking (show 1 + 3 ≤ _ by decide) ?_
        simp only [totalLength, List.length_append, List.length_singleton]
        omega
    _ = runToEnd (plain setup .locking 5 [[1]] 4 [query]) :=
        runToEnd_checkSig standard (by rw [chunks]; rfl) known knownType strict
          (isKeyEncoding_compressed key) (by decide) (by omega) asksWhole valid
    _ = runToEnd (plain setup .locking setup.locking.length [[1]] 4 [query]) := by
        rw [isLocking]
        rfl

/-- A pushed signature and key are valid for the script that names the key, when the transaction
finds the signature valid for that script. -/
private theorem Request.validate_payToKeyHash {request : Request}
    (standard : request.flags = Flags.standard) {key : PublicKey}
    (isLocking : request.locking = Script.payToKeyHash key.hash)
    {context : TxContext} (known : request.context = some context) {der : Bytes} {hashType : UInt8}
    (made : Script.ofPushes [der ++ [hashType], key.compressed] = .ok request.unlocking)
    (knownType : hashType &&& hashTypeForkId ≠ 0 ∧ hashType &&& 0x3f ∈ [1, 2, 3])
    (strict : IsStrict true der) (light : 200 ≤ request.memoryLimit)
    (valid : context.verifySignature [] ⟨der ++ [hashType], key.compressed,
      Script.payToKeyHash key.hash, request.inputIndex, hashType.toUInt32⟩ = .ok true) :
    request.validate = .ok () := by
  have sizeHash := key.length_hash
  have sizeLocking : request.locking.size = 25 := by
    rw [isLocking]
    simp [Script.size, Script.payToKeyHash, sizeHash]
  have splits : request.locking.chunks = .ok (payToKeyHashChunks key.hash) := by
    rw [isLocking]
    exact chunks_payToKeyHash sizeHash
  have shortLocking : request.locking.size ≤ Limits.unbounded := by
    rw [sizeLocking]
    decide
  exact Request.validate_eq_ok_iff.mpr ⟨_, Request.accepts_of_signatureAndKey standard strict made
    splits shortLocking light (Machine.runToEnd_payToKeyHash
      (Request.effectiveFlags_standard standard) rfl known knownType strict light rfl valid)
    (by decide)⟩

end Spend

namespace Transaction

variable {key : PrivateKey} {tx : Transaction} {index : Nat} {type : HashType} {script : Script}

theorem unlock_payToKeyHash_eq_ok_iff :
    (Unlocker.payToKeyHash key type).unlock tx index = .ok script ↔
      ∃ digest signature, tx.inputDigest index type = .ok digest ∧
        key.sign digest = .ok signature ∧
        Script.ofPushes [signature.toDer ++ [type.byte], key.publicKey.compressed] =
          .ok script :=
  signInput_bind_eq_ok_iff

/-- The script that the owner of a key makes for an input that is paid to the hash of the key, put
in place, is valid under the standard rules. -/
theorem evaluateInput_payToKeyHash {input : Input} {value : UInt64}
    (found : tx.inputs[index]? = some input)
    (source : input.sourceOutput index =
      .ok ⟨value, Script.payToKeyHash key.publicKey.hash⟩)
    (known : type.IsProtected)
    (unlocked : (Unlocker.payToKeyHash key type).unlock tx index = .ok script)
    (verifies : ∀ digest signature, tx.inputDigest index type = .ok digest →
      key.sign digest = .ok signature → signature.verifies digest key.publicKey = true)
    (readable : PublicKey.ofBytes key.publicKey.compressed = .ok key.publicKey) :
    ∃ signed, (tx.withUnlocking index script).inputs[index]? = some signed ∧
      signed.unlocking = some script ∧
      (tx.withUnlocking index script).evaluateInput Spend.Flags.standard Spend.Limits.defaultMemory
        signed index = .ok () := by
  obtain ⟨digest, signature, digested, made, pushed⟩ := unlock_payToKeyHash_eq_ok_iff.mp unlocked
  have normal := PrivateKey.isNormal_of_sign made
  have valid := verifySignature_withUnlocking found known source digested normal readable script
  rw [verifies digest signature digested made] at valid
  have validated : ((tx.withUnlocking index script).spendRequest index
      (input.withUnlocking script) ⟨value, Script.payToKeyHash key.publicKey.hash⟩ script
      Spend.Flags.standard Spend.Limits.defaultMemory).validate = .ok () := by
    refine Spend.Request.validate_payToKeyHash rfl rfl rfl pushed (HashType.byte_known known)
      (Signature.isStrict_toDer fun _ => normal.low) (show 200 ≤ 32000000 by decide) ?_
    exact valid
  have sourceSigned : (input.withUnlocking script).sourceOutput index =
      .ok ⟨value, Script.payToKeyHash key.publicKey.hash⟩ := source
  refine ⟨_, getElem?_withUnlocking found script, rfl, ?_⟩
  rw [evaluateInput, sourceSigned]
  exact mapError_eq_ok_iff.mpr validated

end Transaction

/-- The key whose public point is the generator. -/
def PrivateKey.one : PrivateKey where
  scalar := 1
  publicKey := {
    x := 0x79be667ef9dcbbac55a06295ce870b07029bfcdb2dce28d959f2815b16f81798
    y := 0x483ada7726a3c4655da4fbfc0e1108a8fd17b448a68554199c47d08ffb10d4b8
    contains := by decide +kernel }
  scalar_pos := by decide
  scalar_lt := by decide
  ofPoint?_scalar := by decide +kernel

/-- Two payments to a key hash. The second one has no output of its own. -/
def twoPayments : Transaction :=
  let payment : SpentOutput := ⟨1000, Script.payToKeyHash PrivateKey.one.publicKey.hash⟩
  { version := 1
    inputs := [(Input.ofOutpoint ⟨Hash32.zero, 0⟩).withSource payment,
      (Input.ofOutpoint ⟨Hash32.zero, 1⟩).withSource payment]
    outputs := [⟨1900, ⟨[0x51]⟩, false⟩]
    lockTime := 0
    path := none }

theorem Transaction.evaluateInput_twoPayments : ∃ script,
    (Unlocker.payToKeyHash PrivateKey.one ⟨0xc3⟩).unlock twoPayments 1 = .ok script ∧
    ∃ signed, (twoPayments.withUnlocking 1 script).inputs[1]? = some signed ∧
      signed.unlocking = some script ∧
      (twoPayments.withUnlocking 1 script).evaluateInput Spend.Flags.standard
        Spend.Limits.defaultMemory signed 1 = .ok () := by
  have evaluated : (twoPayments.inputDigest 1 ⟨0xc3⟩).toOption.any (fun digest =>
      (PrivateKey.one.sign digest).toOption.any fun signature =>
        signature.verifies digest PrivateKey.one.publicKey) = true := by decide +kernel
  have readable : (PublicKey.ofBytes PrivateKey.one.publicKey.compressed).toOption =
      some PrivateKey.one.publicKey := by decide +kernel
  obtain ⟨digest, digested, evaluated⟩ := (Option.any_eq_true _ _).mp evaluated
  obtain ⟨signature, signed, valid⟩ := (Option.any_eq_true _ _).mp evaluated
  rw [toOption_eq_some_iff] at readable digested signed
  have short : ∀ item ∈ [signature.toDer ++ [HashType.byte ⟨0xc3⟩],
      PrivateKey.one.publicKey.compressed], item.length < UInt32.size := by
    have sizeDer := signature.length_toDer_le
    have sizeKey := PrivateKey.one.publicKey.length_compressed
    have wide : 73 < UInt32.size := by decide
    simp only [List.forall_mem_cons, List.length_append, List.length_singleton]
    exact ⟨by omega, by omega, nofun⟩
  have unlocked := unlock_payToKeyHash_eq_ok_iff.mpr
    ⟨digest, signature, digested, signed, Script.ofPushes_eq_ok_iff.mpr ⟨short, rfl⟩⟩
  refine ⟨_, unlocked, evaluateInput_payToKeyHash rfl rfl (by decide) unlocked ?_ readable⟩
  intro digest' signature' digested' signed'
  cases digested.symm.trans digested'
  cases signed.symm.trans signed'
  exact valid

end BitcoinSpend
