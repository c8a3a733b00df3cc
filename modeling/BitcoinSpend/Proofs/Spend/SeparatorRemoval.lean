import BitcoinSpend.Proofs.Chunk.Regrouping
import BitcoinSpend.Proofs.SignatureHash.SigningCopy
import BitcoinSpend.Proofs.Spend.CheckedQuery

/-!
# Separators are removed once

A signature check without replay protection takes separators out of the chunks that
are left of the running script. The older digest takes them out of bytes that it
splits again. It finds none, even where the script was cut inside a conditional.
-/

set_option autoImplicit false

namespace BitcoinSpend

namespace Script

/-- Chunks without separators may be cut out of a script: what they encode to has none either. -/
private theorem exists_parts {depth : Nat} {chunks : List Chunk}
    (inOrder : Chunk.InOrder depth chunks)
    (free : ∀ chunk ∈ chunks, chunk.op ≠ Opcode.codeSeparator) :
    ∃ parts, (ofChunks chunks).chunks = .ok parts ∧
      ∀ part ∈ parts, part.op ≠ Opcode.codeSeparator := by
  obtain ⟨parts, partsInOrder, encoded, occurs⟩ := inOrder.exists_regrouped (Nat.zero_le depth)
  refine ⟨parts, chunks_eq_ok_iff.mpr ⟨partsInOrder, congrArg Script.mk encoded⟩, ?_⟩
  intro part member isSeparator
  obtain ⟨chunk, among, same⟩ := occurs part member
  exact free chunk among (same ▸ isSeparator)

private theorem withoutSeparators_of_split {script : Script} {chunks : List Chunk}
    (split : script.chunks = .ok chunks) : script.withoutSeparators =
      ofChunks (chunks.filter fun chunk => chunk.op != Opcode.codeSeparator) := by
  rw [withoutSeparators, split]

private theorem bytes_of_free {script : Script} {parts : List Chunk}
    (split : script.chunks = .ok parts) (free : ∀ part ∈ parts, part.op ≠ Opcode.codeSeparator) :
    BitcoinSpend.withoutSeparators script.bytes = script.bytes := by
  have none : parts.any (fun chunk => chunk.op == Opcode.codeSeparator) = false := by
    rw [List.any_eq_false]
    intro part member isSeparator
    exact free part member (beq_iff_eq.mp isSeparator)
  have again : Script.chunks ⟨script.bytes⟩ = .ok parts := split
  simp only [BitcoinSpend.withoutSeparators, again, none, Bool.false_eq_true, if_false]

end Script

namespace Spend

variable {signatures : List Bytes} {chunks : List Chunk}

/-- No shortest push has one of the signatures for its data, empty signatures apart. -/
def PushesNoneOf (signatures : List Bytes) (chunks : List Chunk) : Prop :=
  ∀ chunk ∈ chunks, chunk.op ≤ Opcode.pushData4 → chunk.isMinimal = true →
    ∀ signature ∈ signatures, signature ≠ [] → chunk.data ≠ some signature

instance (signatures : List Bytes) (chunks : List Chunk) :
    Decidable (PushesNoneOf signatures chunks) :=
  inferInstanceAs (Decidable (∀ chunk ∈ chunks, chunk.op ≤ Opcode.pushData4 →
    chunk.isMinimal = true → ∀ signature ∈ signatures, signature ≠ [] →
      chunk.data ≠ some signature))

/-! ## Stripped chunks -/

private theorem ne_codeSeparator_of_mem_strip {chunk : Chunk}
    (member : chunk ∈ stripSignatures signatures chunks) : chunk.op ≠ Opcode.codeSeparator := by
  have kept := (List.mem_filter.mp member).2
  rw [Bool.and_eq_true, bne_iff_ne] at kept
  exact kept.1

/-- Separators and pushes leave the conditionals alone. -/
private theorem inOrder_stripSignatures (signatures : List Bytes) {depth : Nat}
    (inOrder : Chunk.InOrder depth chunks) :
    Chunk.InOrder depth (stripSignatures signatures chunks) := by
  apply inOrder.filter
  intro chunk dropped depth
  simp only [Bool.and_eq_false_iff, Bool.or_eq_false_iff, bne_eq_false_iff_eq,
    decide_eq_false_iff_not] at dropped
  obtain isSeparator | ⟨⟨push, -⟩, -⟩ := dropped
  · rw [isSeparator]
    rfl
  · exact Chunk.depthAfter_of_push (UInt8.le_trans (UInt8.not_lt.mp push) (by decide)) depth

/-- Where no push is of a signature, separators are all that is stripped. -/
private theorem stripSignatures_of_pushesNoneOf (foreign : PushesNoneOf signatures chunks) :
    stripSignatures signatures chunks =
      chunks.filter fun chunk => chunk.op != Opcode.codeSeparator := by
  apply List.filter_congr
  intro chunk member
  rw [Bool.and_eq_left_iff_imp]
  intro _
  by_cases larger : Opcode.pushData4 < chunk.op
  · simp only [larger, decide_true, Bool.true_or]
  · cases minimal : chunk.isMinimal with
    | false => simp only [Bool.not_false, Bool.or_true, Bool.true_or]
    | true =>
        have apart := foreign chunk member (UInt8.not_lt.mp larger) minimal
        cases carried : chunk.data with
        | none => simp only [Bool.or_true]
        | some data =>
            have unsigned : (signatures.any fun signature =>
                !signature.isEmpty && data == signature) = false := by
              rw [List.any_eq_false]
              intro signature among matches'
              rw [Bool.and_eq_true, Bool.not_eq_true', List.isEmpty_eq_false_iff,
                beq_iff_eq] at matches'
              obtain ⟨nonempty, rfl⟩ := matches'
              exact apart data among nonempty carried
            simp only [unsigned, Bool.not_false, Bool.or_true]

private theorem signedScript_stripped {separator : Option Nat}
    (inside : ∀ index, separator = some index → index < chunks.length) :
    signedScript chunks separator signatures false = .ok (Script.ofChunks
      (stripSignatures signatures (chunks.drop (afterSeparator separator)))) := by
  have start : afterSeparator separator ≤ chunks.length := by
    cases separator with
    | none => exact Nat.zero_le _
    | some index => exact inside index rfl
  cases separator with
  | none | some index =>
      exact bind_eq_ok_iff.mpr ⟨_, suffixFrom_eq_ok_iff.mpr ⟨start, rfl⟩, rfl⟩

/-! ## Digests of stripped scripts -/

/-- What an older signature commits to is digested as it is. Where no separator was run and no push
is of a signature, it has the digests of the whole script. -/
theorem signedScript_digests {script : Script} (split : script.chunks = .ok chunks)
    (separator : Option Nat)
    (inside : ∀ index, separator = some index → index < chunks.length)
    (signatures : List Bytes) :
    ∃ signed, signedScript chunks separator signatures false = .ok signed ∧
      (∃ parts, signed.chunks = .ok parts ∧ ∀ part ∈ parts, part.op ≠ Opcode.codeSeparator) ∧
      withoutSeparators signed.bytes = signed.bytes ∧
      (∀ (tx : Transaction) (index : Nat) (type : HashType),
        tx.legacyDigest index signed.bytes type = tx.copyDigest index signed type) ∧
      (separator = none → PushesNoneOf signatures chunks →
        ∀ (tx : Transaction) (index : Nat) (type : HashType),
          tx.legacyDigest index signed.bytes type = tx.legacyDigest index script.bytes type) := by
  obtain ⟨depth, inOrder⟩ :=
    (Script.chunks_eq_ok_iff.mp split).1.drop (afterSeparator separator)
  obtain ⟨parts, again, free⟩ := Script.exists_parts
    (inOrder_stripSignatures signatures inOrder)
    fun chunk => ne_codeSeparator_of_mem_strip
  have stays := Script.bytes_of_free again free
  refine ⟨_, signedScript_stripped inside, ⟨parts, again, free⟩, stays, ?_, ?_⟩
  · intro tx index type
    exact Transaction.legacyDigest_eq_copyDigest stays.symm
  · intro noSeparator foreign tx index type
    cases noSeparator
    have same : (Script.ofChunks (stripSignatures signatures chunks)).bytes =
        withoutSeparators script.bytes := by
      rw [stripSignatures_of_pushesNoneOf foreign, ← Script.withoutSeparators_of_split split,
        Script.bytes_withoutSeparators]
    exact (Transaction.legacyDigest_eq_copyDigest stays.symm).trans
      (Transaction.legacyDigest_eq_copyDigest same).symm

/-- Two separators around a return inside a conditional, and a push of half a signature. -/
def returnBetweenSeparators : List Chunk :=
  [⟨Opcode.ifTrue, none⟩, ⟨Opcode.codeSeparator, none⟩, ⟨Opcode.returnEarly, none⟩,
    ⟨Opcode.codeSeparator, none⟩, ⟨0x01, some [0x30]⟩, ⟨Opcode.endIf, none⟩]

/-- After the first separator the return takes what is left. In the whole script it takes
nothing. -/
theorem returnBetweenSeparators_digests :
    (∃ signed, signedScript returnBetweenSeparators (some 1) [[0x30]] false = .ok signed ∧
      signed.bytes = [0x6a, 0x68] ∧ signed.chunks = .ok [⟨0x6a, some [0x68]⟩] ∧
      ∀ (tx : Transaction) (index : Nat) (type : HashType),
        tx.legacyDigest index signed.bytes type = tx.copyDigest index signed type) ∧
    ∃ signed, signedScript returnBetweenSeparators none [[0x31]] false = .ok signed ∧
      ∀ (tx : Transaction) (index : Nat) (type : HashType),
        tx.legacyDigest index signed.bytes type =
          tx.legacyDigest index (Script.ofChunks returnBetweenSeparators).bytes type := by
  have split : (Script.ofChunks returnBetweenSeparators).chunks = .ok returnBetweenSeparators := by
    cbv
  have inside : ∀ index, some 1 = some index → index < returnBetweenSeparators.length := by
    intro index found
    cases found
    decide
  have nowhere : ∀ index, none = some index → index < returnBetweenSeparators.length := by
    intro index found
    cases found
  obtain ⟨signed, made, -, -, digests, -⟩ := signedScript_digests split (some 1) inside [[0x30]]
  obtain ⟨whole, madeWhole, -, -, -, same⟩ := signedScript_digests split none nowhere [[0x31]]
  have cut : signedScript returnBetweenSeparators (some 1) [[0x30]] false = .ok ⟨[0x6a, 0x68]⟩ :=
    rfl
  cases made.symm.trans cut
  exact ⟨⟨_, made, rfl, by cbv, digests⟩, whole, madeWhole, same rfl (by decide)⟩

end Spend

end BitcoinSpend
