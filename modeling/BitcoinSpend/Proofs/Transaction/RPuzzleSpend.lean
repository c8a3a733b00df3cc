import BitcoinSpend.Proofs.Curve.CompressedKey
import BitcoinSpend.Proofs.Spend.ResultLengths
import BitcoinSpend.Proofs.Spend.StandardSpend
import BitcoinSpend.Proofs.Template.RPuzzleScript
import BitcoinSpend.Proofs.Transaction.PayToKeyHash

/-!
# Solving R-puzzles

The locking script cuts the number `r` out of an encoded signature by the length
that stands before it. A signature made with the nonce of the puzzle has the `r` that
the puzzle commits to, and so it spends with any key.
-/

set_option autoImplicit false

namespace BitcoinSpend

/-- A length below the sign bit is the number that its byte is read as. -/
private theorem ScriptNumber.decodeWithin_length {size : Nat} (positive : 0 < size)
    (small : size < 0x80) :
    decodeWithin ⟨Spend.Limits.afterGenesis.maxNumberLength, true⟩ [UInt8.ofNat size] =
      .ok (size : Int) := by
  have all : ∀ size < 0x80, 0 < size →
      decodeWithin ⟨Spend.Limits.afterGenesis.maxNumberLength, true⟩ [UInt8.ofNat size] =
        .ok (size : Int) := by decide
  exact all size small positive

namespace Spend

variable {setup : Setup} {queries : List SignatureQuery}

namespace Machine

/-- A string is cut at a place that a push of one byte names. -/
private theorem runToEnd_cut (limits : setup.limits = Limits.afterGenesis) {phase : Phase}
    {position : Nat}
    {place : UInt8} (pushes : (setup.script phase)[position]? = some (Chunk.push [place]))
    (splits : (setup.script phase)[position + 1]? = some ⟨Opcode.split, none⟩)
    {bytes left right : Bytes} (parts : bytes = left ++ right)
    (reads : ScriptNumber.decodeWithin setup.numberRule [place] = .ok (left.length : Int))
    {items : List Bytes} {opCount : Nat} (few : opCount < Limits.unbounded)
    (shallow : items.length + 2 ≤ Limits.unbounded)
    (light : 1 + bytes.length + totalLength items ≤ setup.memoryLimit) :
    runToEnd (plain setup phase position (bytes :: items) opCount queries) =
      runToEnd (plain setup phase (position + 2) (right :: left :: items) (opCount + 1)
        queries) := by
  calc runToEnd (plain setup phase position (bytes :: items) opCount queries)
      = runToEnd
          (plain setup phase (position + 1) ([place] :: bytes :: items) opCount queries) := by
        refine runToEnd_push limits pushes (show 1 ≤ _ by decide) (Nat.le_of_lt few) shallow ?_
        simp only [totalLength, List.length_singleton]
        omega
    _ = runToEnd (plain setup phase (position + 2) (right :: left :: items) (opCount + 1)
          queries) := by
        refine runToEnd_bare limits Opcode.split splits (by decide) (by decide)
          (Exec.split_plain parts reads) few shallow ?_
        rw [parts, List.length_append] at light
        simp only [totalLength]
        omega

/-- The string under the key is copied, and what comes before the length in it is cut off. -/
private theorem runToEnd_pastHeader (standard : setup.flags = Flags.standard) {after : List Chunk}
    (isLocking : setup.locking = RPuzzle.extraction.map Chunk.ofOpcode ++ after)
    {key signature header counted : Bytes} (isSignature : signature = header ++ counted)
    (three : header.length = 3)
    (light : key.length + 2 * signature.length + 1 ≤ setup.memoryLimit) :
    runToEnd (plain setup .locking 0 [key, signature] 0 []) =
      runToEnd (plain setup .locking 4 [counted, key, signature] 3 []) := by
  have limits := Setup.limits_of_standard standard
  have chunks : setup.script .locking = RPuzzle.extraction.map Chunk.ofOpcode ++ after := isLocking
  have readsThree : ScriptNumber.decodeWithin setup.numberRule [3] = .ok (header.length : Int) := by
    rw [Setup.numberRule_of_standard standard, three]
    exact ScriptNumber.decodeWithin_length (by decide) (by decide)
  have copies : Exec.onStack (Stack.overBlock 1) ⟨setup, .locking, 0⟩
      (State.plain setup.numberRule [key, signature] 1 []) =
        .ok () (State.plain setup.numberRule [signature, key, signature] 1 []) :=
    Exec.over_plain key signature
  calc runToEnd (plain setup .locking 0 [key, signature] 0 [])
      = runToEnd (plain setup .locking 1 [signature, key, signature] 1 []) := by
        refine runToEnd_bare limits Opcode.copySecond (by rw [chunks]; rfl) (by decide) (by decide)
          copies (by decide) (show 3 ≤ _ by decide) ?_
        simp only [totalLength]
        omega
    _ = runToEnd (plain setup .locking 3 [counted, header, key, signature] 2 []) := by
        refine runToEnd_cut limits (by rw [chunks]; rfl) (by rw [chunks]; rfl) isSignature
          readsThree (by decide) (show 4 ≤ _ by decide) ?_
        simp only [totalLength]
        omega
    _ = runToEnd (plain setup .locking 4 [counted, key, signature] 3 []) := by
        refine runToEnd_bare limits Opcode.nip (by rw [chunks]; rfl) (by decide) (by decide)
          (Exec.nip_plain counted header) (by decide) (show 3 ≤ _ by decide) ?_
        rw [isSignature] at light ⊢
        simp only [totalLength, List.length_append] at light ⊢
        omega

/-- A string that begins with the length of a number is replaced by that number. -/
private theorem runToEnd_takeCounted (standard : setup.flags = Flags.standard) {after : List Chunk}
    (isLocking : setup.locking = RPuzzle.extraction.map Chunk.ofOpcode ++ after) {r rest : Bytes}
    (nonempty : 0 < r.length) (short : r.length < 0x80) {items : List Bytes}
    (shallow : items.length + 3 ≤ Limits.unbounded)
    (light : r.length + rest.length + 2 + totalLength items ≤ setup.memoryLimit) :
    runToEnd (plain setup .locking 4 (([UInt8.ofNat r.length] ++ (r ++ rest)) :: items) 3 []) =
      runToEnd (plain setup .locking 9 (r :: items) 7 []) := by
  have limits := Setup.limits_of_standard standard
  have chunks : setup.script .locking = RPuzzle.extraction.map Chunk.ofOpcode ++ after := isLocking
  have reads : ∀ {size : Nat}, 0 < size → size < 0x80 →
      ScriptNumber.decodeWithin setup.numberRule [UInt8.ofNat size] = .ok (size : Int) := by
    rw [Setup.numberRule_of_standard standard]
    exact ScriptNumber.decodeWithin_length
  have readsOne : ScriptNumber.decodeWithin setup.numberRule [1] =
      .ok ([UInt8.ofNat r.length].length : Int) := reads (by decide) (by decide)
  have swaps : Exec.onStack (Stack.swapBlock 1) ⟨setup, .locking, 6⟩
      (State.plain setup.numberRule ((r ++ rest) :: [UInt8.ofNat r.length] :: items) 5 []) =
        .ok ()
          (State.plain setup.numberRule ([UInt8.ofNat r.length] :: (r ++ rest) :: items) 5 []) :=
    Exec.swap_plain (r ++ rest) [UInt8.ofNat r.length]
  have drops : Exec.onStack (Stack.dropBlock 1) ⟨setup, .locking, 8⟩
      (State.plain setup.numberRule (rest :: r :: items) 7 []) =
        .ok () (State.plain setup.numberRule (r :: items) 7 []) :=
    Exec.drop_plain [rest]
  calc runToEnd (plain setup .locking 4 (([UInt8.ofNat r.length] ++ (r ++ rest)) :: items) 3 [])
      = runToEnd
          (plain setup .locking 6 ((r ++ rest) :: [UInt8.ofNat r.length] :: items) 4 []) := by
        refine runToEnd_cut limits (by rw [chunks]; rfl) (by rw [chunks]; rfl) rfl readsOne
          (by decide) (by omega) ?_
        simp only [List.length_append, List.length_singleton]
        omega
    _ = runToEnd
          (plain setup .locking 7 ([UInt8.ofNat r.length] :: (r ++ rest) :: items) 5 []) := by
        refine runToEnd_bare limits Opcode.swap (by rw [chunks]; rfl) (by decide) (by decide)
          swaps (by decide) (Nat.le_of_succ_le shallow) ?_
        simp only [totalLength, List.length_append, List.length_singleton]
        omega
    _ = runToEnd (plain setup .locking 8 (rest :: r :: items) 6 []) := by
        refine runToEnd_bare limits Opcode.split (by rw [chunks]; rfl) (by decide) (by decide)
          (Exec.split_plain rfl (reads nonempty short)) (by decide) (Nat.le_of_succ_le shallow) ?_
        simp only [totalLength]
        omega
    _ = runToEnd (plain setup .locking 9 (r :: items) 7 []) := by
        refine runToEnd_bare limits Opcode.drop (by rw [chunks]; rfl) (by decide) (by decide)
          drops (by decide) ?_ ?_
        · rw [List.length_cons]
          omega
        · simp only [totalLength]
          omega

/-- The number that stands after its length in a string is brought to the top. -/
private theorem runToEnd_extraction (standard : setup.flags = Flags.standard) {after : List Chunk}
    (isLocking : setup.locking = RPuzzle.extraction.map Chunk.ofOpcode ++ after)
    {key signature header r rest : Bytes}
    (isSignature : signature = header ++ ([UInt8.ofNat r.length] ++ (r ++ rest)))
    (three : header.length = 3) (nonempty : 0 < r.length) (short : r.length < 0x80)
    (light : key.length + 2 * signature.length + 3 ≤ setup.memoryLimit) :
    runToEnd (plain setup .locking 0 [key, signature] 0 []) =
      runToEnd (plain setup .locking 9 [r, key, signature] 7 []) := by
  have sizes : signature.length = 4 + r.length + rest.length := by
    rw [isSignature]
    simp only [List.length_append, List.length_singleton]
    omega
  rw [runToEnd_pastHeader standard isLocking isSignature three (by omega)]
  refine runToEnd_takeCounted standard isLocking nonempty short (show 5 ≤ _ by decide) ?_
  simp only [totalLength]
  omega

/-- Where the puzzle commits to a digest, the number is digested. -/
private theorem runToEnd_digestChunks (limits : setup.limits = Limits.afterGenesis)
    {kind : RPuzzle.Kind} {before after : List Chunk}
    (isScript : setup.script .locking = before ++ RPuzzle.digestChunks kind ++ after) {r : Bytes}
    {items : List Bytes} {opCount : Nat} (few : opCount < Limits.unbounded)
    (shallow : items.length < Limits.unbounded)
    (light : 32 + totalLength items ≤ setup.memoryLimit) :
    runToEnd (plain setup .locking before.length (r :: items) opCount queries) =
      runToEnd (plain setup .locking (before.length + (RPuzzle.digestChunks kind).length)
        (RPuzzle.commit kind r :: items) (opCount + (RPuzzle.digestChunks kind).length)
        queries) := by
  cases kind with
  | none => rfl
  | some algorithm =>
      have here : (setup.script .locking)[before.length]? =
          some ⟨RPuzzle.digestOpcode algorithm, none⟩ := by
        rw [isScript]
        simp [RPuzzle.digestChunks, Chunk.ofOpcode]
      have beyond : Opcode.sixteen < RPuzzle.digestOpcode algorithm := by
        cases algorithm <;> decide
      have meaning : Instruction.ofOpcode (RPuzzle.digestOpcode algorithm) = .digest algorithm := by
        cases algorithm <;> rfl
      have size := length_digest_le algorithm r
      refine runToEnd_bare limits _ here beyond ?_ ?_ few shallow ?_
      · rw [meaning]
        simp
      · rw [meaning]
        exact Exec.digest_plain algorithm r
      · exact Nat.le_trans (Nat.add_le_add_right size _) light

/-- The committed value is found equal, and a signature that is valid for the whole script passes
the check. -/
private theorem runToEnd_comparisonChunks (standard : setup.flags = Flags.standard)
    {before : List Chunk}
    {value : Bytes} (isLocking : setup.locking = before ++ RPuzzle.comparisonChunks value)
    (small : value.length ≤ 33) {context : TxContext} (known : setup.context = some context)
    {der : Bytes} {key : PublicKey} {hashType : UInt8}
    (knownType : hashType &&& hashTypeForkId ≠ 0 ∧ hashType &&& 0x3f ∈ [1, 2, 3])
    (strict : IsStrict true der) {opCount : Nat} (few : opCount + 1 < Limits.unbounded)
    (light : 200 ≤ setup.memoryLimit) {query : SignatureQuery}
    (asks : query = ⟨der ++ [hashType], key.compressed, Script.ofChunks setup.locking,
      setup.inputIndex, hashType.toUInt32⟩)
    (valid : context.verifySignature [] query = .ok true) :
    runToEnd (plain setup .locking before.length [value, key.compressed, der ++ [hashType]]
        opCount []) =
      runToEnd (plain setup .locking (before.length + 3) [[1]] (opCount + 2) [query]) := by
  have limits := Setup.limits_of_standard standard
  have isScript : setup.script .locking = before ++ RPuzzle.comparisonChunks value := isLocking
  have sizeKey := key.length_compressed
  have sizeDer := strict.length_le
  have pushesValue : (setup.script .locking)[before.length]? = some (Chunk.push value) := by
    rw [isScript]
    simp [RPuzzle.comparisonChunks]
  have compares : (setup.script .locking)[before.length + 1]? =
      some (Chunk.ofOpcode Opcode.equalVerify) := by
    rw [isScript]
    simp [RPuzzle.comparisonChunks]
  have checks : (setup.script .locking)[before.length + 2]? =
      some (Chunk.ofOpcode Opcode.checkSig) := by
    rw [isScript]
    simp [RPuzzle.comparisonChunks]
  calc runToEnd (plain setup .locking before.length [value, key.compressed, der ++ [hashType]]
        opCount [])
      = runToEnd (plain setup .locking (before.length + 1)
          [value, value, key.compressed, der ++ [hashType]] opCount []) := by
        refine runToEnd_push limits pushesValue (Nat.le_trans small (by decide)) (by omega)
          (show 4 ≤ _ by decide) ?_
        simp only [totalLength, List.length_append, List.length_singleton]
        omega
    _ = runToEnd (plain setup .locking (before.length + 2) [key.compressed, der ++ [hashType]]
          (opCount + 1) []) := by
        refine runToEnd_equalVerify limits compares (by omega) (show 2 ≤ _ by decide) ?_
        simp only [totalLength, List.length_append, List.length_singleton]
        omega
    _ = runToEnd (plain setup .locking (before.length + 3) [[1]] (opCount + 2) [query]) :=
        runToEnd_checkSig standard checks known knownType strict (isKeyEncoding_compressed key) few
          (by omega) asks valid

/-- A signature that is valid for the whole script and has the `r` of the puzzle leaves one true
item. -/
private theorem runToEnd_rPuzzle (standard : setup.flags = Flags.standard) {kind : RPuzzle.Kind}
    {signature : Signature} (isLocking : setup.locking = RPuzzle.lockingChunks kind
      (RPuzzle.commit kind (Signature.integerBytes signature.r)))
    {context : TxContext} (known : setup.context = some context) {key : PublicKey}
    {hashType : UInt8}
    (knownType : hashType &&& hashTypeForkId ≠ 0 ∧ hashType &&& 0x3f ∈ [1, 2, 3])
    (low : signature.isLowS = true) (light : 200 ≤ setup.memoryLimit) {query : SignatureQuery}
    (asks : query = ⟨signature.toDer ++ [hashType], key.compressed, Script.ofChunks setup.locking,
      setup.inputIndex, hashType.toUInt32⟩)
    (valid : context.verifySignature [] query = .ok true) :
    runToEnd (plain setup .locking 0 [key.compressed, signature.toDer ++ [hashType]] 0 []) =
      runToEnd (plain setup .locking setup.locking.length [[1]]
        (7 + (RPuzzle.digestChunks kind).length + 2) [query]) := by
  have limits := Setup.limits_of_standard standard
  have sizeKey := key.length_compressed
  have sizeDer := signature.length_toDer_le
  obtain ⟨nonempty, short⟩ := Signature.length_integerBytes signature.r
  obtain ⟨header, rest, three, parts⟩ : ∃ header rest : Bytes, header.length = 3 ∧
      signature.toDer = header ++ ([UInt8.ofNat (Signature.integerBytes signature.r).length] ++
        (Signature.integerBytes signature.r ++ rest)) :=
    ⟨[0x30, _, 0x02], _, rfl, signature.toDer_eq_signatureFrame⟩
  have isSignature : signature.toDer ++ [hashType] =
      header ++ ([UInt8.ofNat (Signature.integerBytes signature.r).length] ++
        (Signature.integerBytes signature.r ++ (rest ++ [hashType]))) := by
    rw [parts]
    simp only [List.append_assoc]
  have strict : IsStrict true signature.toDer := Signature.isStrict_toDer fun _ => low
  generalize Signature.integerBytes signature.r = r at *
  have small : (RPuzzle.commit kind r).length ≤ 33 := (RPuzzle.length_commit nonempty short).2
  have extractionFirst : setup.locking = RPuzzle.extraction.map Chunk.ofOpcode ++
      (RPuzzle.digestChunks kind ++ RPuzzle.comparisonChunks (RPuzzle.commit kind r)) := by
    rw [isLocking, RPuzzle.lockingChunks, List.append_assoc]
  have digestNext : setup.script .locking = RPuzzle.extraction.map Chunk.ofOpcode ++
      RPuzzle.digestChunks kind ++ RPuzzle.comparisonChunks (RPuzzle.commit kind r) := isLocking
  have few : 7 + (RPuzzle.digestChunks kind).length + 1 < Limits.unbounded :=
    Nat.lt_of_le_of_lt
      (Nat.add_le_add_right (Nat.add_le_add_left RPuzzle.length_digestChunks_le 7) 1) (by decide)
  have ends : setup.locking.length = (RPuzzle.extraction.map Chunk.ofOpcode ++
      RPuzzle.digestChunks kind).length + 3 := by
    rw [isLocking, RPuzzle.lockingChunks, List.length_append]
    rfl
  calc runToEnd (plain setup .locking 0 [key.compressed, signature.toDer ++ [hashType]] 0 [])
      = runToEnd
          (plain setup .locking 9 [r, key.compressed, signature.toDer ++ [hashType]] 7 []) := by
        refine runToEnd_extraction standard extractionFirst isSignature three nonempty
          (Nat.lt_of_le_of_lt short (by decide)) ?_
        rw [List.length_append, List.length_singleton]
        omega
    _ = runToEnd (plain setup .locking (9 + (RPuzzle.digestChunks kind).length)
          [RPuzzle.commit kind r, key.compressed, signature.toDer ++ [hashType]]
          (7 + (RPuzzle.digestChunks kind).length) []) := by
        refine runToEnd_digestChunks limits digestNext (by decide) (show 2 < _ by decide) ?_
        simp only [totalLength, List.length_append, List.length_singleton]
        omega
    _ = runToEnd (plain setup .locking (RPuzzle.extraction.map Chunk.ofOpcode ++
            RPuzzle.digestChunks kind).length
          [RPuzzle.commit kind r, key.compressed, signature.toDer ++ [hashType]]
          (7 + (RPuzzle.digestChunks kind).length) []) := by
        rw [List.length_append]
        rfl
    _ = runToEnd (plain setup .locking setup.locking.length [[1]]
          (7 + (RPuzzle.digestChunks kind).length + 2) [query]) := by
        rw [ends]
        exact runToEnd_comparisonChunks standard isLocking small known knownType strict few light
          asks valid

end Machine

/-- A pushed signature and key are valid for the puzzle that commits to the `r` of the signature,
when the transaction finds the signature valid for the script of the puzzle. -/
private theorem Request.validate_rPuzzle {request : Request}
    (standard : request.flags = Flags.standard) {kind : RPuzzle.Kind} {signature : Signature}
    (isLocking : request.locking = Script.ofChunks (RPuzzle.lockingChunks kind
      (RPuzzle.commit kind (Signature.integerBytes signature.r))))
    {context : TxContext} (known : request.context = some context) {key : PublicKey}
    {hashType : UInt8}
    (made : Script.ofPushes [signature.toDer ++ [hashType], key.compressed] =
      .ok request.unlocking)
    (knownType : hashType &&& hashTypeForkId ≠ 0 ∧ hashType &&& 0x3f ∈ [1, 2, 3])
    (low : signature.isLowS = true) (light : 200 ≤ request.memoryLimit)
    (valid : context.verifySignature [] ⟨signature.toDer ++ [hashType], key.compressed,
      request.locking, request.inputIndex, hashType.toUInt32⟩ = .ok true) :
    request.validate = .ok () := by
  obtain ⟨nonempty, short⟩ := Signature.length_integerBytes signature.r
  have small : (RPuzzle.commit kind (Signature.integerBytes signature.r)).length ≤ 33 :=
    (RPuzzle.length_commit nonempty short).2
  have splits : request.locking.chunks = .ok (RPuzzle.lockingChunks kind
      (RPuzzle.commit kind (Signature.integerBytes signature.r))) := by
    rw [isLocking]
    exact RPuzzle.chunks_ofChunks (Nat.lt_of_le_of_lt small (by decide))
  have shortLocking : request.locking.size ≤ Limits.unbounded := by
    rw [isLocking]
    exact Nat.le_trans RPuzzle.size_ofChunks_le
      (Nat.le_trans (Nat.add_le_add_right small 17) (by decide))
  rw [isLocking] at valid
  exact Request.validate_eq_ok_iff.mpr ⟨_, Request.accepts_of_signatureAndKey standard
    (Signature.isStrict_toDer fun _ => low) made splits shortLocking light
    (Machine.runToEnd_rPuzzle (Request.effectiveFlags_standard standard) rfl known knownType low
      light rfl valid) (by decide)⟩

end Spend

namespace Transaction

variable {key solution : PrivateKey} {tx : Transaction} {index : Nat} {type : HashType}
  {script : Script} {nonce : Bytes}

theorem unlock_rPuzzle_eq_ok_iff :
    (Unlocker.rPuzzle nonce key type).unlock tx index = .ok script ↔
      ∃ digest signature, tx.inputDigest index type = .ok digest ∧
        key.signWithK digest nonce = .ok signature ∧
        Script.ofPushes [signature.toDer ++ [type.byte], key.publicKey.compressed] =
          .ok script :=
  signInput_bind_eq_ok_iff

/-- There is a puzzle of every kind for every nonce whose point has its first coordinate below the
order of the group. Whoever knows the nonce can spend what the puzzle locks, with any key: the
script that is made for an input, put in place, is valid under the standard rules. -/
theorem evaluateInput_rPuzzle (kind : RPuzzle.Kind)
    (isNonce : PrivateKey.ofBytes nonce = .ok solution)
    (below : solution.publicKey.x < Curve.order) :
    ∃ r locking, RPuzzle.ofNonce nonce = .ok r ∧
      RPuzzle.lockingScript kind (RPuzzle.commit kind r) = .ok locking ∧
      ∀ {tx : Transaction} {index : Nat} {input : Input} {value : UInt64} {key : PrivateKey}
        {type : HashType} {script : Script}, tx.inputs[index]? = some input →
        input.sourceOutput index = .ok ⟨value, locking⟩ → type.IsProtected →
        (Unlocker.rPuzzle nonce key type).unlock tx index = .ok script →
        (∀ digest signature, tx.inputDigest index type = .ok digest →
          key.signWithK digest nonce = .ok signature →
          signature.verifies digest key.publicKey = true) →
        ∃ signed, (tx.withUnlocking index script).inputs[index]? = some signed ∧
          signed.unlocking = some script ∧
          (tx.withUnlocking index script).evaluateInput Spend.Flags.standard
            Spend.Limits.defaultMemory signed index = .ok () := by
  obtain ⟨nonempty, short⟩ := Signature.length_integerBytes (BitVec.ofNat 256 solution.publicKey.x)
  have filled : 0 < (RPuzzle.commit kind
      (Signature.integerBytes (BitVec.ofNat 256 solution.publicKey.x))).length :=
    (RPuzzle.length_commit nonempty short).1
  refine ⟨_, _, RPuzzle.ofNonce_of_ofBytes isNonce,
    RPuzzle.lockingScript_eq_ok_iff.mpr ⟨List.ne_nil_of_length_pos filled, rfl⟩, ?_⟩
  intro tx index input value key type script found source known unlocked verifies
  obtain ⟨digest, signature, digested, made, pushed⟩ := unlock_rPuzzle_eq_ok_iff.mp unlocked
  have normal := PrivateKey.isNormal_of_signWithNonce (PrivateKey.signWithNonce_of_signWithK made)
  rw [← PrivateKey.r_of_signWithK isNonce below made] at source
  have valid := verifySignature_withUnlocking found known source digested normal
    key.publicKey.ofBytes_compressed script
  rw [verifies digest signature digested made] at valid
  refine ⟨_, getElem?_withUnlocking found script, rfl, evaluateInput_withUnlocking source ?_⟩
  exact Spend.Request.validate_rPuzzle rfl rfl rfl pushed (HashType.byte_known known) normal.low
    (show 200 ≤ 32000000 by decide) valid

end Transaction

/-- The number two, as the bytes of a nonce. -/
def nonceTwo : Bytes :=
  List.replicate 31 0 ++ [2]

/-- A payment that spends what a script locks. -/
def puzzlePayment (locking : Script) : Transaction where
  version := 1
  inputs := [(Input.ofOutpoint ⟨Hash32.zero, 0⟩).withSource ⟨1000, locking⟩]
  outputs := [⟨900, ⟨[0x51]⟩, false⟩]
  lockTime := 0
  path := none

theorem Transaction.evaluateInput_puzzlePayment : ∃ r locking script,
    RPuzzle.ofNonce nonceTwo = .ok r ∧
      RPuzzle.lockingScript (some .hash160) (RPuzzle.commit (some .hash160) r) = .ok locking ∧
      (Unlocker.rPuzzle nonceTwo PrivateKey.one ⟨0x41⟩).unlock (puzzlePayment locking) 0 =
        .ok script ∧
      ∃ signed, ((puzzlePayment locking).withUnlocking 0 script).inputs[0]? = some signed ∧
        signed.unlocking = some script ∧
        ((puzzlePayment locking).withUnlocking 0 script).evaluateInput Spend.Flags.standard
          Spend.Limits.defaultMemory signed 0 = .ok () := by
  have evaluatedNonce : (PrivateKey.ofBytes nonceTwo).toOption.any (fun solution =>
      decide (solution.publicKey.x < Curve.order)) = true := by decide +kernel
  have evaluated : (RPuzzle.ofNonce nonceTwo).toOption.any (fun r =>
      (RPuzzle.lockingScript (some .hash160) (RPuzzle.commit (some .hash160) r)).toOption.any
        fun locking => ((puzzlePayment locking).inputDigest 0 ⟨0x41⟩).toOption.any fun digest =>
          (PrivateKey.one.signWithK digest nonceTwo).toOption.any fun signature =>
            signature.verifies digest PrivateKey.one.publicKey) = true := by decide +kernel
  obtain ⟨solution, isNonce, below⟩ := (Option.any_eq_true _ _).mp evaluatedNonce
  obtain ⟨r, made, evaluated⟩ := (Option.any_eq_true _ _).mp evaluated
  obtain ⟨locking, locked, evaluated⟩ := (Option.any_eq_true _ _).mp evaluated
  obtain ⟨digest, digested, evaluated⟩ := (Option.any_eq_true _ _).mp evaluated
  obtain ⟨signature, signed, valid⟩ := (Option.any_eq_true _ _).mp evaluated
  rw [toOption_eq_some_iff] at isNonce made locked digested signed
  obtain ⟨r', locking', made', locked', spends⟩ := evaluateInput_rPuzzle (some .hash160) isNonce
    (of_decide_eq_true below)
  cases made.symm.trans made'
  cases locked.symm.trans locked'
  obtain ⟨script, pushed⟩ := Script.exists_ofPushes_signature signature (HashType.byte ⟨0x41⟩)
    [PrivateKey.one.publicKey]
  have unlocked := unlock_rPuzzle_eq_ok_iff.mpr ⟨digest, signature, digested, signed, pushed⟩
  refine ⟨r, locking, script, made, locked, unlocked, spends rfl rfl (by decide) unlocked ?_⟩
  intro digest' signature' digested' signed'
  cases digested.symm.trans digested'
  cases signed.symm.trans signed'
  exact valid

end BitcoinSpend
