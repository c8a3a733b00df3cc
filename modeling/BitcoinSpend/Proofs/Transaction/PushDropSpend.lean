import BitcoinSpend.Proofs.Curve.CompressedKey
import BitcoinSpend.Proofs.Spend.StandardSpend
import BitcoinSpend.Proofs.Template.PushDropScript
import BitcoinSpend.Proofs.Transaction.PayToKeyHash

/-!
# Spending push-drop outputs

The fields of a push-drop script are pushed and dropped again, so that a run of the
data leaves the stack as it was. What remains is the check, before the data or after
it, and the owner of the key passes it with a signature of the whole script.
-/

set_option autoImplicit false

namespace BitcoinSpend

namespace Spend

variable {setup : Setup} {items : List Bytes} {opCount : Nat} {queries : List SignatureQuery}
  {before after : List Chunk}

namespace Machine

/-- As many drops as there are values take them all away. -/
private theorem runToEnd_drops (limits : setup.limits = Limits.afterGenesis) {phase : Phase}
    {values : List Bytes} {count : Nat} (counted : values.length = count)
    (isScript : setup.script phase = before ++ PushDrop.drops count ++ after)
    (few : opCount + (PushDrop.drops count).length ≤ Limits.unbounded)
    (shallow : (values ++ items).length ≤ Limits.unbounded)
    (light : totalLength (values ++ items) ≤ setup.memoryLimit) :
    runToEnd (plain setup phase before.length (values ++ items) opCount queries) =
      runToEnd (plain setup phase (before.length + (PushDrop.drops count).length) items
        (opCount + (PushDrop.drops count).length) queries) := by
  -- The induction goes down as the drops do, two values at a time.
  induction count using PushDrop.drops.induct generalizing before values opCount with
  | case1 =>
      rw [List.length_eq_zero_iff] at counted
      rw [counted]
      rfl
  | case2 =>
      obtain ⟨value, rfl⟩ := List.length_eq_one_iff.mp counted
      have here : (setup.script phase)[before.length]? = some (Chunk.ofOpcode Opcode.drop) := by
        rw [isScript]
        simp [PushDrop.drops]
      have dropped : Exec.onStack (Stack.dropBlock 1) ⟨setup, phase, before.length⟩
          (State.plain setup.numberRule (value :: items) (opCount + 1) queries) =
            .ok () (State.plain setup.numberRule items (opCount + 1) queries) :=
        Exec.drop_plain [value]
      refine runToEnd_bare limits Opcode.drop here (by decide) (by decide) dropped few ?_ ?_
      · exact Nat.le_trans (Nat.le_succ _) shallow
      · rw [totalLength_append] at light
        omega
  | case3 count ih =>
      rcases values with _ | ⟨first, _ | ⟨second, values⟩⟩
      · cases counted
      · cases counted
      · have countedRest : values.length = count := by simpa using counted
        have isRest : setup.script phase = (before ++ [Chunk.ofOpcode Opcode.drop2]) ++
            PushDrop.drops count ++ after := by
          rw [isScript]
          simp [PushDrop.drops]
        simp only [PushDrop.drops, List.length_cons, List.cons_append, totalLength]
          at few shallow light ⊢
        have fewRest : opCount + 1 + (PushDrop.drops count).length ≤ Limits.unbounded := by omega
        have rest := ih countedRest isRest fewRest (by omega) (by omega)
        rw [List.length_append, List.length_singleton] at rest
        have here : (setup.script phase)[before.length]? = some (Chunk.ofOpcode Opcode.drop2) := by
          rw [isScript]
          simp [PushDrop.drops]
        have dropped : Exec.onStack (Stack.dropBlock 2) ⟨setup, phase, before.length⟩
            (State.plain setup.numberRule (first :: second :: (values ++ items)) (opCount + 1)
              queries) =
              .ok () (State.plain setup.numberRule (values ++ items) (opCount + 1) queries) :=
          Exec.drop_plain [first, second]
        rw [runToEnd_bare limits Opcode.drop2 here (by decide) (by decide) dropped (by omega)
          (by omega) (by omega), rest, Nat.add_assoc, Nat.add_assoc, Nat.add_comm 1]

variable {content : PushDrop}

/-- The data of a push-drop script leaves the stack as it was. -/
private theorem runToEnd_dataChunks (limits : setup.limits = Limits.afterGenesis) {phase : Phase}
    (isScript : setup.script phase = before ++ content.dataChunks ++ after)
    (small : ∀ field ∈ content.fields, field.length ≤ Limits.afterGenesis.maxElementSize)
    (few : opCount + (PushDrop.drops content.fields.length).length ≤ Limits.unbounded)
    (shallow : content.fields.length + items.length ≤ Limits.unbounded)
    (light : totalLength content.fields + totalLength items ≤ setup.memoryLimit) :
    runToEnd (plain setup phase before.length items opCount queries) =
      runToEnd (plain setup phase (before.length + content.dataChunks.length) items
        (opCount + (PushDrop.drops content.fields.length).length) queries) := by
  have pushes : setup.script phase = before ++ content.fields.map Chunk.push ++
      (PushDrop.drops content.fields.length ++ after) := by
    rw [isScript, PushDrop.dataChunks]
    simp only [List.append_assoc]
  have drops : setup.script phase = (before ++ content.fields.map Chunk.push) ++
      PushDrop.drops content.fields.length ++ after := by
    rw [pushes]
    simp only [List.append_assoc]
  have shallowAll : (content.fields.reverse ++ items).length ≤ Limits.unbounded := by
    rwa [List.length_append, List.length_reverse]
  have lightAll : totalLength (content.fields.reverse ++ items) ≤ setup.memoryLimit := by
    rwa [totalLength_append, totalLength_reverse]
  calc runToEnd (plain setup phase before.length items opCount queries)
      = runToEnd (plain setup phase (before.length + content.fields.length)
          (content.fields.reverse ++ items) opCount queries) := by
        refine runToEnd_pushes pushes (by rwa [limits]) ?_ (by rwa [limits]) lightAll
        rw [limits]
        exact Nat.le_of_add_right_le few
    _ = runToEnd (plain setup phase (before ++ content.fields.map Chunk.push).length
          (content.fields.reverse ++ items) opCount queries) := by
        rw [List.length_append, List.length_map]
    _ = runToEnd (plain setup phase (before.length + content.dataChunks.length) items
          (opCount + (PushDrop.drops content.fields.length).length) queries) := by
        rw [runToEnd_drops limits content.fields.length_reverse drops few shallowAll lightAll,
          PushDrop.dataChunks, List.length_append, List.length_append, Nat.add_assoc]

/-- A signature that is valid for the whole script passes the check of a push-drop script. -/
private theorem runToEnd_lockChunks (standard : setup.flags = Flags.standard)
    (isLocking : setup.locking = before ++ content.lockChunks ++ after) {context : TxContext}
    (known : setup.context = some context) {der : Bytes} {hashType : UInt8}
    (knownType : hashType &&& hashTypeForkId ≠ 0 ∧ hashType &&& 0x3f ∈ [1, 2, 3])
    (strict : IsStrict true der) (few : opCount < Limits.unbounded)
    (light : 200 ≤ setup.memoryLimit) {query : SignatureQuery}
    (asks : query = ⟨der ++ [hashType], content.key.compressed, Script.ofChunks setup.locking,
      setup.inputIndex, hashType.toUInt32⟩)
    (valid : context.verifySignature [] query = .ok true) :
    runToEnd (plain setup .locking before.length [der ++ [hashType]] opCount []) =
      runToEnd (plain setup .locking (before.length + 2) [[1]] (opCount + 1) [query]) := by
  have limits := Setup.limits_of_standard standard
  have sizeKey := content.key.length_compressed
  have sizeDer := strict.length_le
  have isScript : setup.script .locking = before ++ content.lockChunks ++ after := isLocking
  have pushesKey : (setup.script .locking)[before.length]? =
      some (Chunk.push content.key.compressed) := by
    rw [isScript]
    simp [PushDrop.lockChunks]
  have checks : (setup.script .locking)[before.length + 1]? =
      some (Chunk.ofOpcode Opcode.checkSig) := by
    rw [isScript]
    simp [PushDrop.lockChunks]
  calc runToEnd (plain setup .locking before.length [der ++ [hashType]] opCount [])
      = runToEnd (plain setup .locking (before.length + 1)
          [content.key.compressed, der ++ [hashType]] opCount []) := by
        refine runToEnd_push limits pushesKey ?_ (Nat.le_of_lt few) (show 2 ≤ _ by decide) ?_
        · rw [sizeKey]
          decide
        · simp only [totalLength, List.length_append, List.length_singleton]
          omega
    _ = runToEnd (plain setup .locking (before.length + 2) [[1]] (opCount + 1) [query]) :=
        runToEnd_checkSig standard checks known knownType strict
          (isKeyEncoding_compressed content.key) few (by omega) asks valid

/-- A signature that is valid for the whole script leaves one true item. -/
private theorem runToEnd_pushDrop (standard : setup.flags = Flags.standard)
    {position : PushDrop.LockPosition} (isLocking : setup.locking = content.lockingChunks position)
    (short : setup.locking.length ≤ Limits.unbounded)
    (small : ∀ field ∈ content.fields, field.length ≤ Limits.afterGenesis.maxElementSize)
    (light : totalLength content.fields + 200 ≤ setup.memoryLimit) {context : TxContext}
    (known : setup.context = some context) {der : Bytes} {hashType : UInt8}
    (knownType : hashType &&& hashTypeForkId ≠ 0 ∧ hashType &&& 0x3f ∈ [1, 2, 3])
    (strict : IsStrict true der) {query : SignatureQuery}
    (asks : query = ⟨der ++ [hashType], content.key.compressed, Script.ofChunks setup.locking,
      setup.inputIndex, hashType.toUInt32⟩)
    (valid : context.verifySignature [] query = .ok true) :
    runToEnd (plain setup .locking 0 [der ++ [hashType]] 0 []) =
      runToEnd (plain setup .locking setup.locking.length [[1]]
        ((PushDrop.drops content.fields.length).length + 1) [query]) := by
  have limits := Setup.limits_of_standard standard
  have sizeDer := strict.length_le
  have sizes := short
  rw [isLocking, PushDrop.length_lockingChunks] at sizes
  cases position with
  | beforeFields =>
      have checkFirst : setup.locking = [] ++ content.lockChunks ++ content.dataChunks := isLocking
      have dataLast : setup.script .locking = content.lockChunks ++ content.dataChunks ++ [] := by
        rw [List.append_nil]
        exact isLocking
      have carried : runToEnd (plain setup .locking content.lockChunks.length [[1]] 1 [query]) =
          runToEnd (plain setup .locking (content.lockChunks.length + content.dataChunks.length)
            [[1]] (1 + (PushDrop.drops content.fields.length).length) [query]) := by
        refine runToEnd_dataChunks limits dataLast small (by omega) ?_ ?_
        · rw [List.length_singleton]
          omega
        · simp only [totalLength, List.length_singleton]
          omega
      calc runToEnd (plain setup .locking 0 [der ++ [hashType]] 0 [])
          = runToEnd (plain setup .locking content.lockChunks.length [[1]] 1 [query]) :=
            runToEnd_lockChunks standard checkFirst known knownType strict (by decide) (by omega)
              asks valid
        _ = runToEnd (plain setup .locking setup.locking.length [[1]]
              ((PushDrop.drops content.fields.length).length + 1) [query]) := by
            rw [carried, isLocking, Nat.add_comm 1, PushDrop.lockingChunks, List.length_append]
  | afterFields =>
      have dataFirst : setup.script .locking =
          [] ++ content.dataChunks ++ content.lockChunks := isLocking
      have checkLast : setup.locking = content.dataChunks ++ content.lockChunks ++ [] := by
        rw [List.append_nil]
        exact isLocking
      have carried : runToEnd (plain setup .locking 0 [der ++ [hashType]] 0 []) =
          runToEnd (plain setup .locking (0 + content.dataChunks.length) [der ++ [hashType]]
            (0 + (PushDrop.drops content.fields.length).length) []) := by
        refine runToEnd_dataChunks limits dataFirst small (by omega) ?_ ?_
        · rw [List.length_singleton]
          omega
        · simp only [totalLength, List.length_append, List.length_singleton]
          omega
      rw [Nat.zero_add, Nat.zero_add] at carried
      rw [carried, isLocking, PushDrop.lockingChunks, List.length_append]
      exact runToEnd_lockChunks standard checkLast known knownType strict (by omega) (by omega) asks
        valid

end Machine

/-- A pushed signature is accepted for a push-drop script when the transaction finds it valid for
that script. -/
private theorem Request.accepts_pushDrop {request : Request}
    (standard : request.flags = Flags.standard)
    {content : PushDrop} {position : PushDrop.LockPosition}
    (isLocking : request.locking = content.lockingScript position)
    (short : request.locking.size ≤ Limits.unbounded)
    (small : totalLength content.fields ≤ Limits.afterGenesis.maxElementSize)
    (light : totalLength content.fields + 200 ≤ request.memoryLimit) {context : TxContext}
    (known : request.context = some context) {der : Bytes} {hashType : UInt8}
    (made : Script.ofPushes [der ++ [hashType]] = .ok request.unlocking)
    (knownType : hashType &&& hashTypeForkId ≠ 0 ∧ hashType &&& 0x3f ∈ [1, 2, 3])
    (strict : IsStrict true der)
    (valid : context.verifySignature [] ⟨der ++ [hashType], content.key.compressed,
      request.locking, request.inputIndex, hashType.toUInt32⟩ = .ok true) :
    ∃ final, request.Accepts final ∧ final.stack = [[1]] := by
  have sizeDer := strict.length_le
  have smallFields : ∀ field ∈ content.fields, field.length ≤ Limits.afterGenesis.maxElementSize :=
    fun field member => Nat.le_trans (length_le_totalLength member) small
  have splits : request.locking.chunks = .ok (content.lockingChunks position) := by
    rw [isLocking]
    refine PushDrop.chunks_lockingScript fun field member => ?_
    exact Nat.lt_of_le_of_lt (smallFields field member) (by decide)
  have sizes : (content.lockingChunks position).length ≤ Limits.unbounded := by
    rw [isLocking, PushDrop.lockingScript_eq_ofChunks] at short
    exact Nat.le_trans (Chunk.length_le_size_ofChunks _) short
  rw [isLocking, PushDrop.lockingScript_eq_ofChunks] at valid
  have flags : (request.setup ([der ++ [hashType]].map Chunk.push)
      (content.lockingChunks position)).flags = Flags.standard :=
    Request.effectiveFlags_standard standard
  have ran := Machine.runToEnd_pushDrop flags rfl sizes smallFields light known knownType strict rfl
    valid
  refine ⟨_, Request.accepts_of_pushes standard made splits ?_ ?_ short ?_ ran (by decide), rfl⟩
  · intro item member
    rw [List.mem_singleton.mp member, List.length_append, List.length_singleton]
    exact Nat.le_trans (Nat.add_le_add_right sizeDer 1) (by decide)
  · have allowed : 73 + 5 ≤ Limits.unbounded := by decide
    simp only [totalLength, List.length_append, List.length_singleton]
    omega
  · simp only [List.reverse_singleton, totalLength, List.length_append, List.length_singleton]
    omega

end Spend

namespace Transaction

variable {key : PrivateKey} {tx : Transaction} {index : Nat} {type : HashType} {script : Script}

theorem unlock_pushDrop_eq_ok_iff :
    (Unlocker.pushDrop key type).unlock tx index = .ok script ↔
      ∃ digest signature, tx.inputDigest index type = .ok digest ∧
        key.sign digest = .ok signature ∧
        Script.ofPushes [signature.toDer ++ [type.byte]] = .ok script :=
  signInput_bind_eq_ok_iff

/-- The owner of a key can spend every push-drop output of the key: a script is made for the input,
which, put in place, is valid under the standard rules and leaves one item. -/
theorem evaluateInput_pushDrop {input : Input} {value : UInt64} {fields : List Bytes}
    {position : PushDrop.LockPosition} (found : tx.inputs[index]? = some input)
    (source : input.sourceOutput index =
      .ok ⟨value, (PushDrop.mk key.publicKey fields).lockingScript position⟩)
    (short : ((PushDrop.mk key.publicKey fields).lockingScript position).size ≤
      Spend.Limits.unbounded)
    (light : Spend.totalLength fields ≤ 31000000) (known : type.IsProtected)
    (signs : ∀ digest, tx.inputDigest index type = .ok digest →
      ∃ signature, key.sign digest = .ok signature ∧
        signature.verifies digest key.publicKey = true) :
    ∃ script, (Unlocker.pushDrop key type).unlock tx index = .ok script ∧
      ∃ signed, (tx.withUnlocking index script).inputs[index]? = some signed ∧
        signed.unlocking = some script ∧
        (tx.withUnlocking index script).evaluateInput Spend.Flags.standard
          Spend.Limits.defaultMemory signed index = .ok () ∧
        ∃ spent final, signed.sourceOutput index = .ok spent ∧
          ((tx.withUnlocking index script).spendRequest index signed spent script
            Spend.Flags.standard Spend.Limits.defaultMemory).Accepts final ∧
          final.stack.length = 1 := by
  obtain ⟨digest, digested⟩ := exists_inputDigest found source known
  obtain ⟨signature, made, verifies⟩ := signs digest digested
  have normal := PrivateKey.isNormal_of_sign made
  obtain ⟨script, pushed⟩ := Script.exists_ofPushes_signature signature type.byte []
  have valid := verifySignature_withUnlocking found known source digested normal
    key.publicKey.ofBytes_compressed script
  rw [verifies] at valid
  have small : Spend.totalLength fields ≤ Spend.Limits.afterGenesis.maxElementSize :=
    Nat.le_trans light (by decide)
  have lightAll : Spend.totalLength fields + 200 ≤ Spend.Limits.defaultMemory :=
    Nat.le_trans (Nat.add_le_add_right light 200) (by decide)
  have isLocking : ((tx.withUnlocking index script).spendRequest index (input.withUnlocking script)
      ⟨value, (PushDrop.mk key.publicKey fields).lockingScript position⟩ script
      Spend.Flags.standard Spend.Limits.defaultMemory).locking =
        (PushDrop.mk key.publicKey fields).lockingScript position := rfl
  obtain ⟨final, accepted, left⟩ := Spend.Request.accepts_pushDrop rfl isLocking short small
    lightAll rfl pushed (HashType.byte_known known)
    (Signature.isStrict_toDer fun _ => normal.low) valid
  have unlocked := unlock_pushDrop_eq_ok_iff.mpr ⟨digest, signature, digested, made, pushed⟩
  refine ⟨script, unlocked, _, getElem?_withUnlocking found script, rfl, ?_, _, final, source,
    accepted, by rw [left]; rfl⟩
  exact evaluateInput_withUnlocking source (Spend.Request.validate_eq_ok_iff.mpr ⟨final, accepted⟩)

end Transaction

/-- A payment that carries three fields, each pushed by an opcode alone. -/
def carriedFields : Transaction :=
  let carrier : PushDrop := ⟨PrivateKey.one.publicKey, [[], [5], [0x81]]⟩
  { version := 1
    inputs := [(Input.ofOutpoint ⟨Hash32.zero, 0⟩).withSource
      ⟨1000, carrier.lockingScript .afterFields⟩]
    outputs := [⟨900, ⟨[0x51]⟩, false⟩]
    lockTime := 0
    path := none }

theorem Transaction.evaluateInput_carriedFields : ∃ script,
    (Unlocker.pushDrop PrivateKey.one ⟨0x41⟩).unlock carriedFields 0 = .ok script ∧
      ∃ signed, (carriedFields.withUnlocking 0 script).inputs[0]? = some signed ∧
        signed.unlocking = some script ∧
        (carriedFields.withUnlocking 0 script).evaluateInput Spend.Flags.standard
          Spend.Limits.defaultMemory signed 0 = .ok () ∧
        ∃ spent final, signed.sourceOutput 0 = .ok spent ∧
          ((carriedFields.withUnlocking 0 script).spendRequest 0 signed spent script
            Spend.Flags.standard Spend.Limits.defaultMemory).Accepts final ∧
          final.stack.length = 1 := by
  have evaluated : (carriedFields.inputDigest 0 ⟨0x41⟩).toOption.any (fun digest =>
      (PrivateKey.one.sign digest).toOption.any fun signature =>
        signature.verifies digest PrivateKey.one.publicKey) = true := by decide +kernel
  obtain ⟨digest, digested, evaluated⟩ := (Option.any_eq_true _ _).mp evaluated
  obtain ⟨signature, signed, valid⟩ := (Option.any_eq_true _ _).mp evaluated
  rw [toOption_eq_some_iff] at digested signed
  have short : ((PushDrop.mk PrivateKey.one.publicKey [[], [5], [0x81]]).lockingScript
      .afterFields).size ≤ Spend.Limits.unbounded := by decide +kernel
  refine evaluateInput_pushDrop rfl rfl short (by decide) (by decide) ?_
  intro digest' digested'
  cases digested.symm.trans digested'
  exact ⟨signature, signed, valid⟩

end BitcoinSpend
