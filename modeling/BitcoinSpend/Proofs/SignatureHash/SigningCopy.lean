import BitcoinSpend.Proofs.Chunk.Splitting
import BitcoinSpend.SignatureHash.Legacy

/-!
# The older digest is that of a changed copy

The message of the older digest is written piece by piece. It is the encoding of a copy of the
transaction, in which scripts, sequence numbers, inputs and outputs are changed as the hash type
says, with the hash type after it.
-/

set_option autoImplicit false

namespace BitcoinSpend

/-! ## Script codes -/

/-- The script with its separators taken out, or as it is if it does not split into chunks. -/
def Script.withoutSeparators (code : Script) : Script :=
  match code.chunks with
  | .ok chunks => Script.ofChunks (chunks.filter fun chunk => chunk.op != Opcode.codeSeparator)
  | .error _ => code

/-- A script without separators is what its chunks encode to, so that it need not be set apart. -/
theorem Script.bytes_withoutSeparators (code : Script) :
    code.withoutSeparators.bytes = BitcoinSpend.withoutSeparators code.bytes := by
  unfold Script.withoutSeparators BitcoinSpend.withoutSeparators
  cases decoded : code.chunks with
  | error cause => rfl
  | ok chunks =>
      obtain ⟨-, whole⟩ := Script.chunks_eq_ok_iff.mp decoded
      by_cases separated : chunks.any (fun chunk => chunk.op == Opcode.codeSeparator) = true
      · exact (if_pos separated).symm
      · have kept : chunks.filter (fun chunk => chunk.op != Opcode.codeSeparator) = chunks := by
          apply List.filter_eq_self.mpr
          intro chunk member
          have other := List.any_eq_false.mp (Bool.eq_false_iff.mpr separated) chunk member
          simpa using other
        simp only [separated, kept, whole, Bool.false_eq_true, if_false]

/-! ## The copy -/

namespace Transaction

/-- An input of the copy. Others than the signed one have no script, and no sequence number of their
own unless all outputs are signed. -/
def copiedInput (index : Nat) (script : Script) (type : HashType) (place : Nat) (input : Input) :
    Input :=
  if place = index then { input with unlocking := some script }
  else { input with
    unlocking := some Script.empty
    sequence := if type.base = 2 ∨ type.base = 3 then 0 else input.sequence }

def copiedInputs (tx : Transaction) (index : Nat) (script : Script) (type : HashType) :
    List Input :=
  let copied := tx.inputs.mapIdx (copiedInput index script type)
  if type.isAnyoneCanPay then copied[index]?.toList else copied

/-- An output of a copy that signs the one at an index. Those before it are blanked. -/
def copiedOutput (index place : Nat) (output : Output) : Output :=
  if place < index then { output with value := Amount.largest, script := Script.empty } else output

def copiedOutputs (tx : Transaction) (index : Nat) (type : HashType) : List Output :=
  if type.base = 2 then []
  else if type.base = 3 then (tx.outputs.take (index + 1)).mapIdx (copiedOutput index)
  else tx.outputs

/-- The copy of a transaction whose encoding is digested for a signature of one of its inputs, which
carries the script that the signature commits to. -/
def signingCopy (tx : Transaction) (index : Nat) (script : Script) (type : HashType) :
    Transaction :=
  { tx with
    inputs := tx.copiedInputs index script type
    outputs := tx.copiedOutputs index type }

/-- The older digest by its definition from the copy. An input that does not exist comes before a
single output that does not. -/
def copyDigest (tx : Transaction) (index : Nat) (script : Script) (type : HashType) :
    Except TransactionError Hash32 :=
  if tx.inputs.length ≤ index then .error (.inputRange index tx.inputs.length)
  else if type.base = 3 ∧ tx.outputs.length ≤ index then .ok missingOutputDigest
  else
    .ok (Hash32.hash256
      ((tx.signingCopy index script type).encode ++ Bytes.ofNatLE 4 type.bits.toNat))

end Transaction

/-! ## The message is the encoded copy -/

private theorem encodeCounted_mapIdx {α β : Type} (encode : β → Bytes) (change : Nat → α → β)
    (items : List α) : encodeCounted encode (items.mapIdx change) =
      encodeCounted (fun (item, place) => encode (change place item)) items.zipIdx := by
  simp only [encodeCounted, List.mapIdx_eq_zipIdx_map, List.length_map, List.flatMap_map]

namespace HashType

variable {tx : Transaction} {index : Nat} {signed : Input} {code : Bytes} {script : Script}

theorem cover_eq_all_iff {type : HashType} :
    type.cover = .all ↔ ¬(type.base = 2 ∨ type.base = 3) := by
  unfold cover
  split
  · simp_all
  · split
    · simp_all
    · simp_all

theorem cover_eq_single_iff {type : HashType} : type.cover = .single ↔ type.base = 3 := by
  unfold cover
  split
  · next none => simp [none]
  · simp

private theorem encode_signed (same : script.bytes = withoutSeparators code) :
    ({ signed with unlocking := some script } : Input).encode =
      signed.outpoint.encodeInput (withoutSeparators code) signed.sequence := by
  rw [← same]
  rfl

private theorem encode_copiedInput {type : HashType} {place : Nat} {input : Input}
    (other : place ≠ index) :
    (Transaction.copiedInput index script type place input).encode = type.encodeOther input := by
  unfold Transaction.copiedInput encodeOther
  rw [if_neg other]
  by_cases covered : type.cover = .all
  · rw [if_neg (cover_eq_all_iff.mp covered), if_pos covered]
    rfl
  · have changed : type.base = 2 ∨ type.base = 3 :=
      Decidable.of_not_not fun plain => covered (cover_eq_all_iff.mpr plain)
    rw [if_pos changed, if_neg covered]
    rfl

theorem encodeInputs_eq (found : tx.inputs[index]? = some signed)
    (same : script.bytes = withoutSeparators code) (type : HashType) :
    type.encodeInputs tx index signed code =
      encodeCounted Input.encode (tx.copiedInputs index script type) := by
  unfold encodeInputs Transaction.copiedInputs
  cases alone : type.isAnyoneCanPay with
  | true =>
      have copied : (tx.inputs.mapIdx (Transaction.copiedInput index script type))[index]? =
          some { signed with unlocking := some script } := by
        simp [List.getElem?_mapIdx, found, Transaction.copiedInput]
      simp only [if_true, copied, Option.toList_some, encodeCounted, List.length_singleton,
        List.flatMap_singleton, encode_signed same]
      rfl
  | false =>
      simp only [Bool.false_eq_true, if_false]
      rw [encodeCounted_mapIdx]
      unfold encodeCounted
      rw [List.flatMap_def, List.flatMap_def]
      congr 2
      apply List.map_congr_left
      rintro ⟨input, place⟩ member
      have there := List.mk_mem_zipIdx_iff_getElem?.mp member
      by_cases here : place = index
      · subst here
        cases there.symm.trans found
        simp only [if_true, Transaction.copiedInput, encode_signed same]
      · simp only [here, if_false, encode_copiedInput here]

/-- Blanked outputs differ at most in marks, which are not encoded. -/
private theorem encode_blanked {outputs : List Output} (fewer : outputs.length = index) :
    (outputs.mapIdx (Transaction.copiedOutput index)).flatMap Output.encode =
      (List.replicate index blankOutput.encode).flatten := by
  rw [List.flatMap_def]
  congr 1
  apply List.eq_replicate_iff.mpr
  constructor
  · rw [List.length_map, List.length_mapIdx, fewer]
  · intro encoded member
    obtain ⟨output, copied, rfl⟩ := List.mem_map.mp member
    obtain ⟨place, inside, rfl⟩ := List.mem_mapIdx.mp copied
    have before : place < index := fewer ▸ inside
    unfold Transaction.copiedOutput
    rw [if_pos before]
    rfl

private theorem encodeOutputs_single {single : Output} (found : tx.outputs[index]? = some single) :
    Wire.varInt (UInt64.ofNat (index + 1)) ++ (List.replicate index blankOutput.encode).flatten ++
        single.encode =
      encodeCounted Output.encode
        ((tx.outputs.take (index + 1)).mapIdx (Transaction.copiedOutput index)) := by
  obtain ⟨inside, -⟩ := List.getElem?_eq_some_iff.mp found
  have before : (tx.outputs.take index).length = index :=
    List.length_take_of_le (Nat.le_of_lt inside)
  have count : (tx.outputs.take (index + 1)).length = index + 1 := List.length_take_of_le inside
  have itself : Transaction.copiedOutput index index single = single :=
    if_neg (Nat.lt_irrefl index)
  unfold encodeCounted
  rw [List.length_mapIdx, count, List.take_add_one, found, Option.toList_some, List.mapIdx_append,
    before, List.flatMap_append, encode_blanked before, List.append_assoc]
  simp [itself]

theorem encodeOutputs_eq {type : HashType} (present : type.base = 3 → index < tx.outputs.length) :
    type.encodeOutputs tx index tx.outputs[index]? =
      encodeCounted Output.encode (tx.copiedOutputs index type) := by
  unfold encodeOutputs Transaction.copiedOutputs cover
  by_cases none : type.base = 2
  · simp only [none, if_true]
    rfl
  · by_cases alone : type.base = 3
    · have found := List.getElem?_eq_getElem (present alone)
      simp only [alone, if_true, found]
      exact encodeOutputs_single found
    · simp only [none, alone, if_false]

end HashType

namespace Transaction

variable {tx : Transaction} {index : Nat} {signed : Input} {code : Bytes} {script : Script}
  {type : HashType}

theorem legacyMessage_eq (found : tx.inputs[index]? = some signed)
    (same : script.bytes = withoutSeparators code)
    (present : type.base = 3 → index < tx.outputs.length) :
    tx.legacyMessage index signed code type =
      (tx.signingCopy index script type).encode ++ Bytes.ofNatLE 4 type.bits.toNat := by
  unfold legacyMessage encode encodeTail
  rw [HashType.encodeInputs_eq found same, HashType.encodeOutputs_eq present]
  simp only [signingCopy, List.append_assoc]

/-- The copy may carry any script with the bytes that separators leave of the code. -/
theorem legacyDigest_eq_copyDigest (same : script.bytes = withoutSeparators code) :
    tx.legacyDigest index code type = tx.copyDigest index script type := by
  unfold legacyDigest inputAt copyDigest
  by_cases outside : tx.inputs.length ≤ index
  · rw [if_pos outside, List.getElem?_eq_none outside]
    rfl
  · have found := List.getElem?_eq_getElem (Nat.lt_of_not_le outside)
    rw [if_neg outside, found]
    by_cases missing : type.base = 3 ∧ tx.outputs.length ≤ index
    · rw [if_pos missing]
      simp only [bind, Except.bind, HashType.cover_eq_single_iff, missing, and_self, if_true]
      rfl
    · have present : type.base = 3 → index < tx.outputs.length :=
        fun single => Nat.lt_of_not_le fun past => missing ⟨single, past⟩
      rw [if_neg missing]
      simp only [bind, Except.bind, HashType.cover_eq_single_iff, missing, if_false,
        legacyMessage_eq found same present]
      rfl

theorem legacyDigest_refines_copyDigest (tx : Transaction) (index : Nat)
    (code : Script) (type : HashType) :
    tx.legacyDigest index code.bytes type = tx.copyDigest index code.withoutSeparators type :=
  legacyDigest_eq_copyDigest code.bytes_withoutSeparators

end Transaction

end BitcoinSpend
