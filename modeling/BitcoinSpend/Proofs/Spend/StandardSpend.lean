import BitcoinSpend.Proofs.Spend.CheckedQuery
import BitcoinSpend.Proofs.Spend.PlainRun
import BitcoinSpend.Proofs.Spend.RelaxedRun

/-!
# Spends under the standard rules

An unlocking script of shortest pushes starts under the standard rules and leaves
its items for the locking script. A valid signature with a known hash type passes
every check of its encoding there.
-/

set_option autoImplicit false

namespace BitcoinSpend

private theorem Script.size_pushes_le (items : List Bytes) :
    (Script.ofChunks (items.map Chunk.push)).size ≤
      Spend.totalLength items + 5 * items.length := by
  induction items with
  | nil => exact Nat.le_refl 0
  | cons item items ih =>
      have head := Chunk.length_encode_push_le item
      simp only [Script.size, Script.ofChunks, List.map_cons, Chunk.encodeAll_cons,
        List.length_append, List.length_cons, Spend.totalLength] at ih ⊢
      omega

namespace Spend

/-- The limits that go with the standard flags. -/
private theorem limits_standard : Limits.ofFlags Flags.standard = Limits.afterGenesis := by decide

namespace Setup

variable {setup : Setup}

theorem limits_of_standard (standard : setup.flags = Flags.standard) :
    setup.limits = Limits.afterGenesis := by
  rw [limits, standard, limits_standard]

theorem numberRule_of_standard (standard : setup.flags = Flags.standard) :
    setup.numberRule = ⟨Limits.afterGenesis.maxNumberLength, true⟩ := by
  rw [numberRule, limits_of_standard standard, standard]
  decide

end Setup

namespace Request

variable {request : Request}

theorem effectiveFlags_standard (standard : request.flags = Flags.standard) :
    request.effectiveFlags = Flags.standard := by
  rw [effectiveFlags, standard]
  decide

private theorem readScript_standard (standard : request.flags = Flags.standard) (phase : Phase)
    {script : Script} {chunks : List Chunk} (short : script.size ≤ Limits.unbounded)
    (splits : script.chunks = .ok chunks) : request.readScript phase script = .ok chunks := by
  have fits : ¬Limits.afterGenesis.maxScriptSize < script.size := Nat.not_lt.mpr short
  rw [readScript, effectiveFlags_standard standard, limits_standard, if_neg fits, splits]
  rfl

private theorem start_of_pushes (standard : request.flags = Flags.standard) {items : List Bytes}
    (made : Script.ofPushes items = .ok request.unlocking) {locking : List Chunk}
    (splits : request.locking.chunks = .ok locking)
    (short : totalLength items + 5 * items.length ≤ Limits.unbounded)
    (shortLocking : request.locking.size ≤ Limits.unbounded) :
    request.start = .ok (Machine.initial (request.setup (items.map Chunk.push) locking)) := by
  have shortUnlocking : request.unlocking.size ≤ Limits.unbounded := by
    rw [(Script.ofPushes_eq_ok_iff.mp made).2]
    exact Nat.le_trans (Script.size_pushes_le items) short
  have readUnlocking := readScript_standard standard .unlocking shortUnlocking
    (Script.chunks_of_ofPushes made)
  have readLocking := readScript_standard standard .locking shortLocking splits
  have pushes : (items.map Chunk.push).all Chunk.isPush = true := by
    simp [Chunk.isPush_push]
  simp only [start, readUnlocking, readLocking, pushes, Bool.not_true, Bool.and_false,
    Bool.false_eq_true, if_false]

private theorem setup_limits_standard (standard : request.flags = Flags.standard)
    (unlocking locking : List Chunk) :
    (request.setup unlocking locking).limits = Limits.afterGenesis :=
  Setup.limits_of_standard (effectiveFlags_standard standard)

/-- Items that the unlocking script pushes are accepted when the locking script, run on them, ends
with one true item. -/
theorem accepts_of_pushes (standard : request.flags = Flags.standard) {items : List Bytes}
    (made : Script.ofPushes items = .ok request.unlocking) {locking : List Chunk}
    (splits : request.locking.chunks = .ok locking)
    (small : ∀ item ∈ items, item.length ≤ Limits.afterGenesis.maxElementSize)
    (short : totalLength items + 5 * items.length ≤ Limits.unbounded)
    (shortLocking : request.locking.size ≤ Limits.unbounded)
    (light : totalLength items.reverse ≤ request.memoryLimit) {top : Bytes} {opCount : Nat}
    {queries : List SignatureQuery}
    (ran : Machine.runToEnd (Machine.plain (request.setup (items.map Chunk.push) locking) .locking 0
        items.reverse 0 []) =
      Machine.runToEnd (Machine.plain (request.setup (items.map Chunk.push) locking) .locking
        locking.length [top] opCount queries))
    (isTrue : ScriptNumber.isTrue top = true) :
    request.Accepts (Machine.plain (request.setup (items.map Chunk.push) locking) .locking
      locking.length [top] opCount queries) := by
  have limits := setup_limits_standard standard (items.map Chunk.push) locking
  have isScript : (request.setup (items.map Chunk.push) locking).script .unlocking =
      [] ++ items.map Chunk.push ++ [] := by
    rw [List.nil_append, List.append_nil]
    rfl
  have shallow : (items.reverse ++ []).length ≤ Limits.afterGenesis.maxStackSize := by
    rw [List.append_nil, List.length_reverse]
    exact Nat.le_trans (by omega) short
  have pushed : Machine.runToEnd (Machine.initial (request.setup (items.map Chunk.push) locking)) =
      Machine.runToEnd (Machine.plain (request.setup (items.map Chunk.push) locking) .unlocking
        (0 + items.length) (items.reverse ++ []) 0 []) :=
    Machine.runToEnd_pushes isScript (by rwa [limits]) (Nat.zero_le _) (by rwa [limits])
      (by rwa [List.append_nil])
  rw [List.append_nil, Nat.zero_add] at pushed
  have entered : Machine.runToEnd (Machine.plain (request.setup (items.map Chunk.push) locking)
      .unlocking (items.map Chunk.push).length items.reverse 0 []) =
      Machine.runToEnd (Machine.plain (request.setup (items.map Chunk.push) locking) .locking 0
        items.reverse 0 []) := Machine.runToEnd_between
  rw [List.length_map] at entered
  refine ⟨_, start_of_pushes standard made splits short shortLocking, ?_⟩
  rw [Machine.validate_of_runToEnd (pushed.trans (entered.trans ran))]
  exact Machine.validate_plain isTrue

/-- A signature and the key for it are accepted when the locking script, run on them, ends with one
true item. -/
theorem accepts_of_signatureAndKey (standard : request.flags = Flags.standard) {der : Bytes}
    {hashType : UInt8} {key : PublicKey} (strict : IsStrict true der)
    (made : Script.ofPushes [der ++ [hashType], key.compressed] = .ok request.unlocking)
    {locking : List Chunk} (splits : request.locking.chunks = .ok locking)
    (shortLocking : request.locking.size ≤ Limits.unbounded) (light : 200 ≤ request.memoryLimit)
    {top : Bytes} {opCount : Nat} {queries : List SignatureQuery}
    (ran : Machine.runToEnd (Machine.plain (request.setup
        ([der ++ [hashType], key.compressed].map Chunk.push) locking) .locking 0
        [key.compressed, der ++ [hashType]] 0 []) =
      Machine.runToEnd (Machine.plain (request.setup
        ([der ++ [hashType], key.compressed].map Chunk.push) locking) .locking locking.length [top]
        opCount queries))
    (isTrue : ScriptNumber.isTrue top = true) :
    request.Accepts (Machine.plain (request.setup
      ([der ++ [hashType], key.compressed].map Chunk.push) locking) .locking locking.length [top]
      opCount queries) := by
  have sizeKey := key.length_compressed
  have sizeDer := strict.length_le
  have small : ∀ item ∈ [der ++ [hashType], key.compressed],
      item.length ≤ Limits.afterGenesis.maxElementSize := by
    have allowed : 73 ≤ Limits.afterGenesis.maxElementSize := by decide
    simp only [List.forall_mem_cons, List.length_append, List.length_singleton]
    exact ⟨by omega, by omega, List.forall_mem_nil _⟩
  have total : totalLength [der ++ [hashType], key.compressed] ≤ 106 := by
    simp only [totalLength, List.length_append, List.length_singleton]
    omega
  have short : totalLength [der ++ [hashType], key.compressed] + 5 * 2 ≤ Limits.unbounded :=
    Nat.le_trans (Nat.add_le_add_right total _) (by decide)
  refine accepts_of_pushes standard made splits small short shortLocking ?_ ran isTrue
  rw [totalLength_reverse]
  omega

end Request

/-- An opcode that goes on to the next chunk under the standard limits. -/
theorem Machine.runToEnd_bare {setup : Setup} (limits : setup.limits = Limits.afterGenesis)
    (op : Opcode) {phase : Phase} {position : Nat}
    (here : (setup.script phase)[position]? = some ⟨op, none⟩) (beyond : Opcode.sixteen < op)
    (goesOn : Instruction.ofOpcode op ∉ [.disabled, .reservedConditional, .returnEarly])
    {items items' : List Bytes} {opCount : Nat} {queries queries' : List SignatureQuery}
    (ran : Exec.runStraight (Instruction.ofOpcode op) ⟨op, none⟩ ⟨setup, phase, position⟩
      (State.plain setup.numberRule items (opCount + 1) queries) =
        .ok () (State.plain setup.numberRule items' (opCount + 1) queries'))
    (few : opCount < Limits.unbounded) (shallow : items'.length ≤ Limits.unbounded)
    (light : totalLength items' ≤ setup.memoryLimit) :
    runToEnd (plain setup phase position items opCount queries) =
      runToEnd (plain setup phase (position + 1) items' (opCount + 1) queries') := by
  refine runToEnd_chunk here (Exec.chunk_bare beyond goesOn ?_ ran) ?_ light
  · rw [limits]
    exact few
  · rw [limits]
    exact shallow

/-- A push under the standard limits. -/
theorem Machine.runToEnd_push {setup : Setup} (limits : setup.limits = Limits.afterGenesis)
    {phase : Phase} {position : Nat} {data : Bytes}
    (here : (setup.script phase)[position]? = some (Chunk.push data))
    (small : data.length ≤ Limits.afterGenesis.maxElementSize) {items : List Bytes} {opCount : Nat}
    {queries : List SignatureQuery} (few : opCount ≤ Limits.unbounded)
    (shallow : (data :: items).length ≤ Limits.unbounded)
    (light : totalLength (data :: items) ≤ setup.memoryLimit) :
    runToEnd (plain setup phase position items opCount queries) =
      runToEnd (plain setup phase (position + 1) (data :: items) opCount queries) := by
  refine runToEnd_chunk here (Exec.chunk_push ?_ ?_) ?_ light
  · rw [limits]
    exact small
  · rw [limits]
    exact few
  · rw [limits]
    exact shallow

/-- Two equal items are found equal and taken away. -/
theorem Machine.runToEnd_equalVerify {setup : Setup} (limits : setup.limits = Limits.afterGenesis)
    {phase : Phase} {position : Nat}
    (here : (setup.script phase)[position]? = some ⟨Opcode.equalVerify, none⟩) {item : Bytes}
    {items : List Bytes} {opCount : Nat} {queries : List SignatureQuery}
    (few : opCount < Limits.unbounded) (shallow : items.length ≤ Limits.unbounded)
    (light : totalLength items ≤ setup.memoryLimit) :
    runToEnd (plain setup phase position (item :: item :: items) opCount queries) =
      runToEnd (plain setup phase (position + 1) items (opCount + 1) queries) := by
  have isEqual : Exec.equal ⟨setup, phase, position⟩
      (State.plain setup.numberRule (item :: item :: items) (opCount + 1) queries) =
        .ok () (State.plain setup.numberRule ([1] :: items) (opCount + 1) queries) := by
    rw [Exec.equal_plain, beq_self_eq_true]
    rfl
  refine runToEnd_bare limits Opcode.equalVerify here (by decide) (by decide) ?_ few shallow light
  exact (Exec.bind_of_ok isEqual).trans (Exec.verify_plain rfl .equal _)

theorem isKeyEncoding_compressed (key : PublicKey) : IsKeyEncoding key.compressed := by
  refine Or.inl ⟨key.length_compressed, ?_⟩
  rw [PublicKey.compressed, List.head?_cons]
  split
  · exact Or.inl rfl
  · exact Or.inr rfl

/-- A signature in its encoding is valid for the whole running script under the standard flags. -/
private theorem Exec.checkSig_standard {frame : Frame}
    (standard : frame.setup.flags = Flags.standard)
    {context : TxContext} (known : frame.setup.context = some context) {der key : Bytes}
    {hashType : UInt8}
    (knownType : hashType &&& hashTypeForkId ≠ 0 ∧ hashType &&& 0x3f ∈ [1, 2, 3])
    (strict : IsStrict true der) (encoded : IsKeyEncoding key) {rule : ScriptNumber.Rule}
    {items : List Bytes} {opCount : Nat} {queries : List SignatureQuery} {query : SignatureQuery}
    (asks : query = ⟨der ++ [hashType], key, Script.ofChunks frame.script, frame.setup.inputIndex,
      hashType.toUInt32⟩)
    (valid : context.verifySignature queries query = .ok true) :
    checkSig frame (State.plain rule (key :: (der ++ [hashType]) :: items) opCount queries) =
      .ok () (State.plain rule ([1] :: items) opCount (queries ++ [query])) := by
  have asksStrict : frame.setup.flags.has Flags.strictEncoding = true := by
    rw [standard]
    decide
  have protects : frame.setup.flags.has Flags.enableForkId = true := by
    rw [standard]
    decide
  have asksLow : frame.setup.flags.has Flags.lowS = true := by
    rw [standard]
    decide
  refine checkSig_plain known ?_ ((checkHashType_eq_ok_iff asksStrict protects).mpr knownType) ?_
    ((checkKeyEncoding_eq_ok_iff asksStrict).mpr encoded) asks valid
  · simp [usesForkId, protects, knownType.1]
  · rw [checkSignatureEncoding_eq_ok_iff (Flags.asksForLayout_of_lowS asksLow), asksLow]
    exact Or.inr strict

/-- The check of a signature that is valid for the whole locking script. -/
theorem Machine.runToEnd_checkSig {setup : Setup} (standard : setup.flags = Flags.standard)
    {position : Nat} (here : (setup.script .locking)[position]? = some ⟨Opcode.checkSig, none⟩)
    {context : TxContext} (known : setup.context = some context) {der key : Bytes}
    {hashType : UInt8}
    (knownType : hashType &&& hashTypeForkId ≠ 0 ∧ hashType &&& 0x3f ∈ [1, 2, 3])
    (strict : IsStrict true der) (encoded : IsKeyEncoding key) {opCount : Nat}
    (few : opCount < Limits.unbounded) (light : 1 ≤ setup.memoryLimit) {query : SignatureQuery}
    (asks : query = ⟨der ++ [hashType], key, Script.ofChunks setup.locking, setup.inputIndex,
      hashType.toUInt32⟩)
    (valid : context.verifySignature [] query = .ok true) :
    runToEnd (plain setup .locking position [key, der ++ [hashType]] opCount []) =
      runToEnd (plain setup .locking (position + 1) [[1]] (opCount + 1) [query]) := by
  have limits := Setup.limits_of_standard standard
  have isValid : Exec.checkSig ⟨setup, .locking, position⟩
      (State.plain setup.numberRule [key, der ++ [hashType]] (opCount + 1) []) =
        .ok () (State.plain setup.numberRule [[1]] (opCount + 1) [query]) :=
    Exec.checkSig_standard standard known knownType strict encoded asks valid
  refine runToEnd_bare limits Opcode.checkSig here (by decide) (by decide) ?_ few
    (show 1 ≤ _ by decide) light
  exact Exec.bind_of_ok isValid

end Spend

end BitcoinSpend
